import OptionTypes.Proofs.Escape

/-!
# Spellings of a string

A string literal may spell each of its characters in many ways: raw, by its number in hexadecimal
or octal digits, by a letter, as two surrogates, or after a backslash that changes nothing. Between
two characters its line may be continued. Whatever mixture is chosen, decoding gives the string
back.

* `Spelling c t` says that the text `t` spells the character `c`, and `Spelled s t` that `t` spells
  the string `s`.
* `Spelling.decodes`: one spelled character is read as far as its spelling goes, whatever follows.
* `decode_spelled`: a spelled string is decoded to the string.
-/

namespace OptionTypes

/-- A text without surrogates is made of characters. -/
theorem Text.exists_eq_ofChars {t : Text} (h : ∀ c ∈ t, c.isSurrogate = false) :
    ∃ s, t = Text.ofChars s := by
  induction t with
  | nil => exact ⟨[], rfl⟩
  | cons c t ih =>
    obtain ⟨hc, ht⟩ := List.forall_mem_cons.mp h
    obtain ⟨s, rfl⟩ := ih ht
    cases c with
    | char a => exact ⟨a :: s, rfl⟩
    | surrogate n => cases hc

namespace Escape

/-! ## Digits

A digit of base 16 is a value with a choice of case, so that both cases of a letter are covered
where digits are quantified over. -/

/-- A hexadecimal digit in one of its two cases. -/
structure HexDigit where
  value : Fin 16
  capital : Bool

namespace HexDigit

def char (d : HexDigit) : Char :=
  if d.capital then (Nat.digitChar d.value).toUpper else Nat.digitChar d.value

/-- The text of digits, most significant first. -/
def text (ds : List HexDigit) : Text := ds.map fun d => .char d.char

/-- The number that digits write. -/
def number (ds : List HexDigit) : Nat := Nat.ofDigits 16 (ds.reverse.map fun d => d.value.val)

/-- Both cases of each digit are digits. There are 32 of them, all of which are looked at. -/
theorem isHex_char : ∀ d : HexDigit, isHex (.char d.char) = true := by
  rintro ⟨v, b⟩
  revert v b
  decide

theorem digitValue_char : ∀ d : HexDigit, digitValue (.char d.char) = d.value := by
  rintro ⟨v, b⟩
  revert v b
  decide

@[simp] theorem length_text (ds : List HexDigit) : (text ds).length = ds.length :=
  List.length_map _

theorem all_isHex_text (ds : List HexDigit) : (text ds).all isHex = true := by
  rw [text, List.all_map, List.all_eq_true]
  intro d _
  exact isHex_char d

/-- Whoever reads digits one by one reads their number. -/
theorem number_map (base : Nat) {f : HexDigit → Nat} (hf : ∀ d, f d = d.value.val)
    (ds : List HexDigit) :
    Digit.number base (ds.map f) = Nat.ofDigits base (ds.reverse.map fun d => d.value.val) := by
  rw [Digit.number_eq, ← List.map_reverse]
  congr 1
  exact List.map_congr_left fun d _ => hf d

/-- The text of digits is read as the number they write. -/
theorem number_text (ds : List HexDigit) : Escape.number 16 (text ds) = number ds := by
  rw [Escape.number, text, List.map_map]
  exact number_map 16 digitValue_char ds

end HexDigit

/-- The character of an octal digit. -/
def octalChar (v : Fin 8) : Char := Nat.digitChar v

theorem isOctal_octalChar : ∀ v : Fin 8, isOctal (.char (octalChar v)) = true := by decide

theorem digitValue_octalChar : ∀ v : Fin 8, digitValue (.char (octalChar v)) = v := by decide

/-! ## Spellings -/

/-- Letters and the characters that they stand for after a backslash. -/
def letters : List (Char × Char) :=
  [('n', '\n'), ('t', '\t'), ('r', '\r'), ('b', '\x08'), ('f', '\x0c'), ('v', '\x0b')]

/-- The characters that have a meaning of their own after a backslash. -/
def meaningful : List Char :=
  ['u', 'x', 'n', 't', 'r', 'b', 'f', 'v', '0', '1', '2', '3', '4', '5', '6', '7', '\n', '\r',
    Char.ofNat 0x2028, Char.ofNat 0x2029]

/-- The texts that continue a line after a backslash. -/
def lineEnds : List Text :=
  [[.char '\n'], [.char '\r'], [.char '\r', .char '\n'], [.char (Char.ofNat 0x2028)],
    [.char (Char.ofNat 0x2029)]]

/-- An escape of four hexadecimal digits. -/
def word (ds : List HexDigit) : Text := .char '\\' :: .char 'u' :: HexDigit.text ds

/-- Whether a text spells a character. -/
inductive Spelling (c : Char) : Text → Prop where
  | raw (h : c ≠ '\\') : Spelling c [.char c]
  | byte (ds : List HexDigit) (hlength : ds.length = 2) (h : HexDigit.number ds = c.toNat) :
    Spelling c (.char '\\' :: .char 'x' :: HexDigit.text ds)
  | word (ds : List HexDigit) (hlength : ds.length = 4) (h : HexDigit.number ds = c.toNat) :
    Spelling c (word ds)
  /-- Two surrogates, for a character beyond the numbers of four digits. -/
  | pair (high low : List HexDigit) (hlengths : high.length = 4 ∧ low.length = 4)
    (hbeyond : 0x10000 ≤ c.toNat)
    (hhigh : HexDigit.number high = 0xD800 + (c.toNat - 0x10000) / 0x400)
    (hlow : HexDigit.number low = 0xDC00 + (c.toNat - 0x10000) % 0x400) :
    Spelling c (Escape.word high ++ Escape.word low)
  /-- Any number of digits between braces, so any number of zeros at their start. -/
  | braced (ds : List HexDigit) (hne : ds ≠ []) (h : HexDigit.number ds = c.toNat) :
    Spelling c (.char '\\' :: bracedText (HexDigit.text ds))
  | letter (l : Char) (h : (l, c) ∈ letters) : Spelling c [.char '\\', .char l]
  | octal (i j k : Fin 8) (hi : i.val ≤ 3) (h : i.val * 64 + j.val * 8 + k.val = c.toNat) :
    Spelling c [.char '\\', .char (octalChar i), .char (octalChar j), .char (octalChar k)]
  | plain (h : c ∉ meaningful) : Spelling c [.char '\\', .char c]

/-- Whether a text spells a string: its characters one after another, with the line continued
anywhere between them. -/
inductive Spelled : List Char → Text → Prop where
  | nil : Spelled [] []
  | cons {c : Char} {s : List Char} {t rest : Text} (h : Spelling c t) (hrest : Spelled s rest) :
    Spelled (c :: s) (t ++ rest)
  /-- A carriage return would swallow a line feed right after it. -/
  | continued {s : List Char} {e rest : Text} (he : e ∈ lineEnds)
    (hcr : e = [.char '\r'] → rest.head? ≠ some (.char '\n')) (hrest : Spelled s rest) :
    Spelled s (.char '\\' :: (e ++ rest))

/-! ## Reading one escape

One lemma for each form of an escape: what it denotes, and how many characters it takes. -/

theorem codePoint_toNat (c : Char) : codePoint c.toNat = .ok (.char c) := by
  rw [codePoint, CodePoint.ofNat?_toNat]

theorem codePoint_surrogate (n : Fin 2048) : codePoint (0xD800 + n.val) = .ok (.surrogate n) := by
  rw [codePoint, CodePoint.ofNat?_surrogate]

/-- Digits of a fixed number are found, whatever follows them. -/
theorem fixed?_text_append (ds : List HexDigit) (rest : Text) :
    fixed? ds.length (HexDigit.text ds ++ rest) = some (HexDigit.text ds) := by
  have htake : (HexDigit.text ds ++ rest).take ds.length = HexDigit.text ds := by
    rw [← HexDigit.length_text, List.take_left]
  rw [fixed?, htake, HexDigit.length_text, HexDigit.all_isHex_text]
  simp

/-- Digits between braces are found up to the brace. -/
theorem braced?_text {ds : List HexDigit} (hne : ds ≠ []) (rest : Text) :
    braced? (.char '{' :: (HexDigit.text ds ++ .char '}' :: rest)) = some (HexDigit.text ds) := by
  have hrun : (HexDigit.text ds ++ .char '}' :: rest).takeWhile isHex = HexDigit.text ds := by
    rw [List.takeWhile_append_of_pos (List.all_eq_true.mp (HexDigit.all_isHex_text ds))]
    have hstop : (CodePoint.char '}' :: rest).takeWhile isHex = [] := rfl
    rw [hstop, List.append_nil]
  have hfull : (HexDigit.text ds).isEmpty = false := by
    cases ds with
    | nil => exact absurd rfl hne
    | cons d ds => rfl
  rw [braced?]
  simp only [hrun, List.drop_left, hfull]
  rfl

/-- Digits are not taken for braces. -/
theorem braced?_text_append {ds : List HexDigit} (hne : ds ≠ []) (rest : Text) :
    braced? (HexDigit.text ds ++ rest) = none := by
  cases ds with
  | nil => exact absurd rfl hne
  | cons d ds =>
    have hbrace : CodePoint.char d.char ≠ .char '{' := by
      intro h
      have hhex := HexDigit.isHex_char d
      rw [h] at hhex
      exact absurd hhex (by decide)
    show braced? (.char d.char :: (HexDigit.text ds ++ rest)) = none
    unfold braced?
    split
    next h => exact absurd (List.cons.inj h).1 hbrace
    next => rfl

/-- Four digits behind `u`. -/
theorem step_word {ds : List HexDigit} (hlength : ds.length = 4) {p : CodePoint}
    (hp : codePoint (HexDigit.number ds) = .ok p) (rest : Text) :
    step (.char 'u') (HexDigit.text ds ++ rest) = .ok ([p], 5) := by
  have hne : ds ≠ [] := by
    rintro rfl
    cases hlength
  have hfixed := fixed?_text_append ds rest
  rw [hlength] at hfixed
  simp only [step, braced?_text_append hne, hfixed, HexDigit.number_text, hp]
  rfl

/-- Two digits behind `x`. -/
theorem step_byte {ds : List HexDigit} (hlength : ds.length = 2) {p : CodePoint}
    (hp : codePoint (HexDigit.number ds) = .ok p) (rest : Text) :
    step (.char 'x') (HexDigit.text ds ++ rest) = .ok ([p], 3) := by
  have hfixed := fixed?_text_append ds rest
  rw [hlength] at hfixed
  simp only [step, hfixed, HexDigit.number_text, hp]
  rfl

/-- Any number of digits in braces behind `u`. -/
theorem step_braced {ds : List HexDigit} (hne : ds ≠ []) {p : CodePoint}
    (hp : codePoint (HexDigit.number ds) = .ok p) (rest : Text) :
    step (.char 'u') (.char '{' :: (HexDigit.text ds ++ .char '}' :: rest))
      = .ok ([p], ds.length + 3) := by
  simp only [step, braced?_text hne, HexDigit.number_text, hp, HexDigit.length_text]
  rfl

/-- Three octal digits are all that an escape takes, whatever follows. -/
theorem step_octal {i j k : Fin 8} {p : CodePoint}
    (hp : codePoint (i.val * 64 + j.val * 8 + k.val) = .ok p) (rest : Text) :
    step (.char (octalChar i)) (.char (octalChar j) :: .char (octalChar k) :: rest)
      = .ok ([p], 3) := by
  have hrun : ((CodePoint.char (octalChar j) :: .char (octalChar k) :: rest).take 2).takeWhile
      isOctal = [.char (octalChar j), .char (octalChar k)] := by
    show List.takeWhile isOctal [_, _] = _
    rw [List.takeWhile_cons_of_pos (isOctal_octalChar j),
      List.takeWhile_cons_of_pos (isOctal_octalChar k), List.takeWhile_nil]
  have hnumber : number 8 [.char (octalChar i), .char (octalChar j), .char (octalChar k)]
      = i.val * 64 + j.val * 8 + k.val := by
    simp only [number, Digit.number, List.map_cons, List.map_nil, List.foldl_cons, List.foldl_nil,
      digitValue_octalChar]
    omega
  rw [step_of_isOctal (isOctal_octalChar i), hrun, hnumber, hp]
  rfl

/-- A letter with a meaning stands for its character. -/
theorem step_letter {l c : Char} (h : (l, c) ∈ letters) (rest : Text) :
    step (.char l) rest = .ok ([.char c], 1) := by
  simp only [letters, List.mem_cons, Prod.mk.injEq, List.not_mem_nil, or_false] at h
  rcases h with ⟨rfl, rfl⟩ | ⟨rfl, rfl⟩ | ⟨rfl, rfl⟩ | ⟨rfl, rfl⟩ | ⟨rfl, rfl⟩ | ⟨rfl, rfl⟩
  all_goals rfl

theorem char_ne_of_plain {c : Char} (h : c ∉ meaningful) :
    ∀ m ∈ meaningful, CodePoint.char c ≠ .char m := by
  rintro m hm ⟨⟩
  exact h hm

/-- An octal digit is one of eight characters, which all have a meaning. -/
theorem isOctal_of_plain {c : Char} (h : c ∉ meaningful) : isOctal (.char c) = false := by
  rw [← Bool.not_eq_true]
  intro hrange
  have hle : '0' ≤ c ∧ c ≤ '7' := by
    simpa only [isOctal, CodePoint.is, Digit.isOctal, Bool.and_eq_true, decide_eq_true_eq]
      using hrange
  have hbounds : 48 ≤ c.toNat ∧ c.toNat ≤ 55 := hle
  have hc : c = Char.ofNat c.toNat := (Char.ofNat_toNat c).symm
  have hcases : c.toNat = 48 ∨ c.toNat = 49 ∨ c.toNat = 50 ∨ c.toNat = 51 ∨ c.toNat = 52
      ∨ c.toNat = 53 ∨ c.toNat = 54 ∨ c.toNat = 55 := by omega
  rcases hcases with hn | hn | hn | hn | hn | hn | hn | hn
  all_goals
    rw [hn] at hc
    exact h (hc ▸ by decide)

/-- A character without a meaning is left as it is. All characters with one are in the list of
those, line ends included. -/
theorem simple_of_plain {c : Char} (h : c ∉ meaningful) : simple (.char c) = [.char c] := by
  have hne := char_ne_of_plain h
  have hend : CodePoint.is isLineEnd (.char c) = false := by
    have hlf : c ≠ '\n' := fun heq => h (heq ▸ by decide)
    have hcr : c ≠ '\r' := fun heq => h (heq ▸ by decide)
    have hline : c ≠ Char.ofNat 0x2028 := fun heq => h (heq ▸ by decide)
    have hparagraph : c ≠ Char.ofNat 0x2029 := fun heq => h (heq ▸ by decide)
    simp [CodePoint.is, isLineEnd, hlf, hcr, hline, hparagraph]
  unfold simple
  split
  next heq => exact absurd heq (hne _ (by decide))
  next heq => exact absurd heq (hne _ (by decide))
  next heq => exact absurd heq (hne _ (by decide))
  next heq => exact absurd heq (hne _ (by decide))
  next heq => exact absurd heq (hne _ (by decide))
  next heq => exact absurd heq (hne _ (by decide))
  next => rw [hend, if_neg Bool.false_ne_true]

/-- A character without a meaning of its own stands for itself. -/
theorem step_plain {c : Char} (h : c ∉ meaningful) (rest : Text) :
    step (.char c) rest = .ok ([.char c], 1) := by
  have hne := char_ne_of_plain h
  unfold step
  split
  next heq => exact absurd heq (hne _ (by decide))
  next heq => exact absurd heq (hne _ (by decide))
  next heq => exact absurd heq (hne _ (by decide))
  next =>
    rw [isOctal_of_plain h, simple_of_plain h]
    rfl

/-- The end of a line stands for nothing. -/
theorem step_lineEnd {c : CodePoint} {more rest : Text} (he : c :: more ∈ lineEnds)
    (hcr : c :: more = [.char '\r'] → rest.head? ≠ some (.char '\n')) :
    step c (more ++ rest) = .ok ([], more.length + 1) := by
  simp only [lineEnds, List.mem_cons, List.cons.injEq, List.not_mem_nil, or_false] at he
  rcases he with ⟨rfl, rfl⟩ | ⟨rfl, rfl⟩ | ⟨rfl, rfl⟩ | ⟨rfl, rfl⟩ | ⟨rfl, rfl⟩
  · rfl
  · simp only [step, List.nil_append]
    split
    next => exact absurd rfl (hcr rfl)
    next => rfl
  · rfl
  · rfl
  · rfl

/-! ## Reading a spelled string -/

/-- What belongs to the escape read last is passed over. -/
theorem decodeFrom_append (taken rest : Text) :
    decodeFrom taken.length (taken ++ rest) = decodeFrom 0 rest := by
  induction taken with
  | nil => rfl
  | cons c taken ih => rw [List.length_cons, List.cons_append, decodeFrom, ih]

/-- A character that is no backslash stands for itself. -/
theorem decodeFrom_raw {c : Char} (hc : c ≠ '\\') {rest u : Text}
    (h : decodeFrom 0 rest = .ok u) : decodeFrom 0 (.char c :: rest) = .ok (.char c :: u) := by
  have hread : decodeFrom 0 (.char c :: rest)
      = (do return .char c :: (← decodeFrom 0 rest)) := by
    rw [decodeFrom]
    rintro d more heq -
    exact hc (CodePoint.char.inj heq)
  rw [hread, h]
  rfl

/-- An escape is read together with all that belongs to it. -/
theorem decodeFrom_escape {c : CodePoint} {more rest denoted u : Text}
    (hstep : step c (more ++ rest) = .ok (denoted, more.length + 1))
    (h : decodeFrom 0 rest = .ok u) :
    decodeFrom 0 (.char '\\' :: c :: (more ++ rest)) = .ok (denoted ++ u) := by
  have hrest := decodeFrom_append (c :: more) rest
  rw [List.length_cons, List.cons_append] at hrest
  rw [decodeFrom, hstep]
  show (decodeFrom (more.length + 1) (c :: (more ++ rest)) >>= fun x => .ok (denoted ++ x)) = _
  rw [hrest, h]
  rfl

/-- An escape of one character behind the backslash. -/
theorem decodeFrom_short {c : CodePoint} {rest denoted u : Text}
    (hstep : step c rest = .ok (denoted, 1)) (h : decodeFrom 0 rest = .ok u) :
    decodeFrom 0 (.char '\\' :: c :: rest) = .ok (denoted ++ u) := by
  rw [← List.nil_append rest]
  exact decodeFrom_escape hstep h

theorem decodeFrom_word {ds : List HexDigit} (hlength : ds.length = 4) {p : CodePoint}
    (hp : codePoint (HexDigit.number ds) = .ok p) {rest u : Text}
    (h : decodeFrom 0 rest = .ok u) : decodeFrom 0 (word ds ++ rest) = .ok (p :: u) := by
  have hstep : step (.char 'u') (HexDigit.text ds ++ rest)
      = .ok ([p], (HexDigit.text ds).length + 1) := by
    rw [step_word hlength hp, HexDigit.length_text, hlength]
  exact decodeFrom_escape hstep h

/-- Whether code points are what a character is before surrogates are paired. -/
def Denotes (u : Text) (c : Char) : Prop :=
  ∀ rest, pairSurrogates (u ++ rest) = .char c :: pairSurrogates rest

theorem denotes_self (c : Char) : Denotes [.char c] c := fun _ => rfl

/-- Two surrogates that pair up denote their character, whatever follows: pairs are formed from the
left, and the first of the two is no second half. -/
theorem denotes_pair {a b : Fin 2048} {c : Char} (h : pairOf? a b = some (.char c)) :
    Denotes [.surrogate a, .surrogate b] c := by
  intro rest
  show pairSurrogates (.surrogate a :: .surrogate b :: rest) = _
  rw [pairSurrogates, h]

/-- The two surrogates of a character beyond the numbers of four digits. -/
theorem exists_pair {c : Char} (hbeyond : 0x10000 ≤ c.toNat) :
    ∃ a b : Fin 2048, 0xD800 + a.val = 0xD800 + (c.toNat - 0x10000) / 0x400
      ∧ 0xD800 + b.val = 0xDC00 + (c.toNat - 0x10000) % 0x400
      ∧ pairOf? a b = some (.char c) := by
  have hlt : c.toNat < 0x110000 := by
    have hvalid : c.toNat.isValidChar := c.valid
    simp only [Nat.isValidChar] at hvalid
    omega
  let a : Fin 2048 := ⟨(c.toNat - 0x10000) / 0x400, by omega⟩
  let b : Fin 2048 := ⟨0x400 + (c.toNat - 0x10000) % 0x400, by omega⟩
  have ha : a.val = (c.toNat - 0x10000) / 0x400 := rfl
  have hb : b.val = 0x400 + (c.toNat - 0x10000) % 0x400 := rfl
  have hsum : 0x10000 + a.val * 0x400 + (b.val - 0x400) = c.toNat := by omega
  refine ⟨a, b, by omega, by omega, ?_⟩
  rw [pairOf?, if_pos (by omega), hsum, CodePoint.ofNat?_toNat]

/-- **One spelled character.** It is read as far as its spelling goes, and what is read becomes the
character when surrogates are paired. -/
theorem Spelling.decodes {c : Char} {t : Text} (h : Spelling c t) :
    ∃ denoted, Denotes denoted c ∧ ∀ rest u, decodeFrom 0 rest = .ok u →
      decodeFrom 0 (t ++ rest) = .ok (denoted ++ u) := by
  cases h with
  | raw hc => exact ⟨_, denotes_self c, fun rest u hu => decodeFrom_raw hc hu⟩
  | byte ds hlength hnumber =>
    refine ⟨_, denotes_self c, fun rest u hu => ?_⟩
    have hstep := step_byte hlength (hnumber ▸ codePoint_toNat c) rest
    refine decodeFrom_escape ?_ hu
    rw [hstep, HexDigit.length_text, hlength]
  | word ds hlength hnumber =>
    exact ⟨_, denotes_self c, fun rest u hu =>
      decodeFrom_word hlength (hnumber ▸ codePoint_toNat c) hu⟩
  | pair high low hlengths hbeyond hhigh hlow =>
    obtain ⟨a, b, ha, hb, hpair⟩ := exists_pair hbeyond
    have hhigh' : codePoint (HexDigit.number high) = .ok (.surrogate a) := by
      rw [hhigh, ← ha, codePoint_surrogate]
    have hlow' : codePoint (HexDigit.number low) = .ok (.surrogate b) := by
      rw [hlow, ← hb, codePoint_surrogate]
    refine ⟨_, denotes_pair hpair, fun rest u hu => ?_⟩
    rw [List.append_assoc]
    -- The two words are read one by one, into two surrogates that make one character.
    exact decodeFrom_word hlengths.1 hhigh' (decodeFrom_word hlengths.2 hlow' hu)
  | braced ds hne hnumber =>
    refine ⟨_, denotes_self c, fun rest u hu => ?_⟩
    have hstep := step_braced hne (hnumber ▸ codePoint_toNat c) rest
    have htext : .char '\\' :: bracedText (HexDigit.text ds) ++ rest
        = .char '\\' :: .char 'u'
          :: ((.char '{' :: (HexDigit.text ds ++ [.char '}'])) ++ rest) := by
      simp [bracedText]
    rw [htext]
    refine decodeFrom_escape ?_ hu
    simpa using hstep
  | letter l hl =>
    exact ⟨_, denotes_self c, fun rest u hu => decodeFrom_short (step_letter hl rest) hu⟩
  | octal i j k hi hnumber =>
    refine ⟨_, denotes_self c, fun rest u hu => ?_⟩
    have hstep := step_octal (hnumber ▸ codePoint_toNat c) rest
    have htaken : [CodePoint.char (octalChar j), .char (octalChar k)].length + 1 = 3 := rfl
    exact decodeFrom_escape (htaken ▸ hstep) hu
  | plain hc =>
    exact ⟨_, denotes_self c, fun rest u hu => decodeFrom_short (step_plain hc rest) hu⟩

/-- Induction on the spelling: the code points read so far pair up to the characters spelled. -/
theorem exists_of_spelled {s : List Char} {t : Text} (h : Spelled s t) :
    ∃ u, decodeFrom 0 t = .ok u ∧ pairSurrogates u = Text.ofChars s := by
  induction h with
  | nil => exact ⟨[], rfl, rfl⟩
  | cons hc _ ih =>
    obtain ⟨u, hu, hpairs⟩ := ih
    obtain ⟨denoted, hdenotes, hread⟩ := hc.decodes
    refine ⟨denoted ++ u, hread _ _ hu, ?_⟩
    rw [hdenotes, hpairs]
    rfl
  | @continued s e rest he hcr _ ih =>
    obtain ⟨u, hu, hpairs⟩ := ih
    cases e with
    | nil => exact absurd he (by decide)
    | cons c more => exact ⟨u, decodeFrom_escape (step_lineEnd he hcr) hu, hpairs⟩

/-- **Decoding undoes every spelling.**

A body spells characters one after the other, each as itself or by an escape, and a line may be
broken by a backslash before its end. Read from the left, it gives code points that pair up to the
characters (`exists_of_spelled`). No spelling runs into the next one: digits are of a fixed number
or between braces, three octal digits are all that an escape takes (`step_octal`), and a carriage
return that continues a line has no line feed behind it. -/
theorem decode_spelled {s : List Char} {t : Text} (h : Spelled s t) :
    decode t = .ok (Text.ofChars s) := by
  obtain ⟨u, hu, hpairs⟩ := exists_of_spelled h
  rw [decode, hu, ← hpairs]
  rfl

/-- A grinning face as a pair, a line that is continued before a line feed, a letter by its octal
digits before a raw digit, and a brace by many digits. -/
theorem decode_spelled_mixture :
    Spelled ['😀', '\n', 'A', '7', '{', '\'']
        "\\uD83d\\ude00\\\r\\n\\1017\\u\x7b0007B\x7d\\'"
      ∧ decode "\\uD83d\\ude00\\\r\\n\\1017\\u\x7b0007B\x7d\\'"
        = .ok (Text.ofChars ['😀', '\n', 'A', '7', '{', '\'']) := by
  have hpair : Spelling '😀' "\\uD83d\\ude00" :=
    .pair [⟨13, true⟩, ⟨8, false⟩, ⟨3, false⟩, ⟨13, false⟩]
      [⟨13, false⟩, ⟨14, false⟩, ⟨0, false⟩, ⟨0, false⟩] ⟨rfl, rfl⟩ (by decide) (by decide)
      (by decide)
  have hfeed : Spelling '\n' "\\n" := .letter 'n' (by decide)
  have hoctal : Spelling 'A' "\\101" := .octal 1 0 1 (by decide) (by decide)
  have hdigit : Spelling '7' "7" := .raw (by decide)
  have hbrace : Spelling '{' "\\u\x7b0007B\x7d" :=
    .braced [⟨0, false⟩, ⟨0, false⟩, ⟨0, false⟩, ⟨7, false⟩, ⟨11, true⟩] (by decide) (by decide)
  have hquote : Spelling '\'' "\\'" := .plain (by decide)
  have hrest := Spelled.cons hfeed (.cons hoctal (.cons hdigit (.cons hbrace (.cons hquote .nil))))
  have hall : Spelled ['😀', '\n', 'A', '7', '{', '\'']
      "\\uD83d\\ude00\\\r\\n\\1017\\u\x7b0007B\x7d\\'" :=
    .cons hpair (.continued (e := [.char '\r']) (by decide) (fun _ => by decide) hrest)
  exact ⟨hall, decode_spelled hall⟩

end Escape

end OptionTypes
