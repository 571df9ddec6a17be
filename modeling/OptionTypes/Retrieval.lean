import OptionTypes.Host
import OptionTypes.Text.Blank
import OptionTypes.Text.Utf8.Message

/-!
# Where a source comes from

A source is fetched from an address, which a template gives for a version, or read from a file. An
answer is of use only if its status says so.
-/

namespace OptionTypes

/-- Why there is no source. -/
inductive RetrievalError where
  | status (address : Text) (code : Nat) (reason : Text)
  | failed (address message : Text)
  | notFound (path : Text)
  | unreadable (path : Text) (e : StoreFault)
  | encoding (path : Text) (e : Utf8.DecodeError)
  /-- The address is none. -/
  | badAddress (message : Text)

namespace RetrievalError

/-- The wording of the failure. -/
def message : RetrievalError → Text
  | status address code reason =>
    Blank.trimEnd ("Failed to fetch " ++ address ++ ": HTTP " ++ Text.ofNat code ++ " " ++ reason)
  | failed address message => "Failed to fetch " ++ address ++ ": " ++ message
  | notFound path => "Source file not found: " ++ path
  | unreadable path e =>
    "Failed to read source file " ++ path ++ ": " ++ Text.ofString e.message
  | encoding path e => "Failed to read source file " ++ path ++ ": " ++ e.message
  | badAddress message => message

/-- The status of the answer that is of no use. -/
def status? : RetrievalError → Option Nat
  | status _ n _ => some n
  | _ => none

end RetrievalError

namespace Retrieval

/-- What stands for the version in a template. -/
def placeholder : Text := "\x7bversion\x7d"

/-- The address of the source of a version. -/
def addressOf (version template : Text) : Text := Text.replace placeholder version template

/-- The standard reasons of answers. -/
def reasons : List (Nat × String) :=
  [(100, "Continue"), (101, "Switching Protocols"), (102, "Processing"), (103, "Early Hints"),
    (200, "OK"), (201, "Created"), (202, "Accepted"), (203, "Non-Authoritative Information"),
    (204, "No Content"), (205, "Reset Content"), (206, "Partial Content"), (207, "Multi-Status"),
    (208, "Already Reported"), (226, "IM Used"), (300, "Multiple Choices"),
    (301, "Moved Permanently"), (302, "Found"), (303, "See Other"), (304, "Not Modified"),
    (305, "Use Proxy"), (307, "Temporary Redirect"), (308, "Permanent Redirect"),
    (400, "Bad Request"), (401, "Unauthorized"), (402, "Payment Required"), (403, "Forbidden"),
    (404, "Not Found"), (405, "Method Not Allowed"), (406, "Not Acceptable"),
    (407, "Proxy Authentication Required"), (408, "Request Timeout"), (409, "Conflict"),
    (410, "Gone"), (411, "Length Required"), (412, "Precondition Failed"),
    (413, "Request Entity Too Large"), (414, "Request-URI Too Long"),
    (415, "Unsupported Media Type"), (416, "Requested Range Not Satisfiable"),
    (417, "Expectation Failed"), (418, "I'm a teapot"), (421, "Misdirected Request"),
    (422, "Unprocessable Entity"), (423, "Locked"), (424, "Failed Dependency"),
    (425, "Too Early"), (426, "Upgrade Required"), (428, "Precondition Required"),
    (429, "Too Many Requests"), (431, "Request Header Fields Too Large"),
    (451, "Unavailable For Legal Reasons"), (500, "Internal Server Error"),
    (501, "Not Implemented"), (502, "Bad Gateway"), (503, "Service Unavailable"),
    (504, "Gateway Timeout"), (505, "HTTP Version Not Supported"),
    (506, "Variant Also Negotiates"), (507, "Insufficient Storage"), (508, "Loop Detected"),
    (510, "Not Extended"), (511, "Network Authentication Required")]

/-- The standard reason of a status, empty if it has none. -/
def reasonOf (status : Nat) : Text :=
  match reasons.find? fun (n, _) => n = status with
  | some (_, reason) => Text.ofString reason
  | none => []

/-- Whether a status says that the answer is of use. -/
def isSuccess (status : Nat) : Bool := 200 ≤ status && status < 300

/-- The text that a response to a request for an address brings. -/
def textOf (address : Text) : Response → Except RetrievalError Text
  | .answer status reason body =>
    if isSuccess status then .ok body
    else .error (.status address status (reason.getD (reasonOf status)))
  | .failure message => .error (.failed address message)
  | .badAddress message => .error (.badAddress message)

/-- The text of the bytes of a source file. Every line end is read as LF. -/
def decode (path : Text) (bytes : Bytes) : Except RetrievalError Text :=
  match Utf8.decode bytes with
  | .ok chars => .ok (Text.ofChars (Blank.unifyLines chars))
  | .error e => .error (.encoding path e)

variable {m : Type → Type} [Monad m] [Host m]

/-- Fetch the source of a version. -/
def fetch (version template : Text) (timeout : Number) : m (Except RetrievalError Text) := do
  let address := addressOf version template
  return textOf address (← Host.fetch ⟨address, timeout⟩)

/-- Read a source from a file. -/
def load (path : Text) : m (Except RetrievalError Text) := do
  let file := Path.ofText path
  if ← Host.isFile file then
    match ← Host.read file with
    | .ok bytes => return decode path bytes
    | .error e => return .error (.unreadable path e)
  else return .error (.notFound path)

end Retrieval

end OptionTypes
