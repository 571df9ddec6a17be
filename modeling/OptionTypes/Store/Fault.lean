/-!
# Failures of operations on files

The causes for which an operation on files fails, and their wording.
-/

namespace OptionTypes

/-- Why an operation on files fails. -/
inductive StoreFault where
  | missing
  | notDirectory
  | isDirectory
  | present
  /-- The operation is refused for another cause. -/
  | refused
  deriving DecidableEq

/-- The wording of the failure. -/
def StoreFault.message : StoreFault → String
  | .missing => "No such file or directory"
  | .notDirectory => "Not a directory"
  | .isDirectory => "Is a directory"
  | .present => "File exists"
  | .refused => "Device or resource busy"

end OptionTypes
