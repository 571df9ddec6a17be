import Mathlib.Tactic.Common
import OptionTypes.Proofs.Outcome
import OptionTypes.Text.Utf8

/-!
# Decoding undoes encoding, and encoding undoes decoding

The decoder reads one character off the bytes at a time and skips as many bytes as the character
has. So it is enough that it reads the right character off every encoding, whatever follows; and
that, whatever it reads a character off, starts with the encoding of that character.

* `Utf8.decodeOne_two`, `decodeOne_three` and `decodeOne_four`: which bytes are a character.
* `Utf8.decodeOne_encodeChar_append`: the first character of an encoding.
* `Utf8.decode_encode`: the characters of an encoding.
* `Utf8.encode_of_decode`: the encoding of what bytes are decoded to.
-/

namespace OptionTypes.Utf8

/-! ## Bytes as numbers -/

theorem toNat_toUInt8 {n : Nat} (h : n < 256) : n.toUInt8.toNat = n :=
  UInt8.toNat_ofNat_of_lt' h

theorem not_lt_of_le_toNat {a b : UInt8} {n : Nat} (hb : b.toNat = n) (h : n ≤ a.toNat) :
    ¬a < b := by
  rw [UInt8.lt_iff_toNat_lt, hb]
  omega

/-- A continuation byte begins with the bits `10`. -/
theorem isContinuation_iff {b : UInt8} :
    isContinuation b = true ↔ 0x80 ≤ b.toNat ∧ b.toNat < 0xC0 := by
  simp [isContinuation, UInt8.le_iff_toNat_le, UInt8.lt_iff_toNat_lt]

/-- The six low bits of a number make a continuation byte. -/
theorem isContinuation_low (n : Nat) : isContinuation (0x80 + n % 64).toUInt8 = true := by
  have hlow : n % 64 < 64 := Nat.mod_lt n (by decide)
  rw [isContinuation_iff, toNat_toUInt8 (by omega)]
  omega

/-! ## Which bytes are a character -/

theorem le_toNat_of_not_lt {a b : UInt8} (h : ¬a < b) : b.toNat ≤ a.toNat :=
  Nat.le_of_not_lt fun hlt => h (UInt8.lt_iff_toNat_lt.mpr hlt)

/-- Of two first bytes one allows large second bytes only and the other one small ones only. -/
theorem second_fits_iff {a b bound low high : UInt8} :
    (if b < bound then a == low else a == high) = false
      ↔ (a.toNat = low.toNat → bound.toNat ≤ b.toNat)
        ∧ (a.toNat = high.toNat → b.toNat < bound.toNat) := by
  by_cases hb : b < bound
  · rw [if_pos hb, beq_eq_false_iff_ne, Ne, ← UInt8.toNat_inj]
    rw [UInt8.lt_iff_toNat_lt] at hb
    constructor
    · intro hne
      exact ⟨fun heq => absurd heq hne, fun _ => hb⟩
    · rintro ⟨hlarge, -⟩ heq
      -- the two bounds on the second byte exclude each other
      have := hlarge heq
      omega
  · rw [if_neg hb, beq_eq_false_iff_ne, Ne, ← UInt8.toNat_inj]
    have hb := le_toNat_of_not_lt hb
    constructor
    · intro hne
      exact ⟨fun _ => hb, fun heq => absurd heq hne⟩
    · rintro ⟨-, hsmall⟩ heq
      have := hsmall heq
      omega

/-- A small byte is a character by itself. -/
theorem decodeOne_one {a : UInt8} {rest : Bytes} (ha : a.toNat < 0x80) :
    decodeOne (a :: rest) = .ok (charOf a.toNat, 1) := by
  have h : a < 0x80 := UInt8.lt_iff_toNat_lt.mpr ha
  simp only [decodeOne, if_pos h]

/-- A first byte for two bytes and a continuation byte are a character. -/
theorem decodeOne_two {a b : UInt8} {rest : Bytes} (hlow : 0xC2 ≤ a.toNat)
    (hhigh : a.toNat < 0xE0) (hb : isContinuation b = true) :
    decodeOne (a :: b :: rest)
      = .ok (charOf ((a.toNat - 0xC0) * 64 + (b.toNat - 0x80)), 2) := by
  have h₁ : ¬a < 0x80 := not_lt_of_le_toNat (n := 0x80) rfl (by omega)
  have h₂ : ¬a < 0xC2 := not_lt_of_le_toNat (n := 0xC2) rfl (by omega)
  have h₃ : a < 0xE0 := UInt8.lt_iff_toNat_lt.mpr hhigh
  simp only [decodeOne, if_neg h₁, if_neg h₂, if_pos h₃, hb, if_true]

/-- Three bytes are a character unless they spell it too long or are those of a surrogate. -/
theorem decodeOne_three {a b c : UInt8} {rest : Bytes} (hlow : 0xE0 ≤ a.toNat)
    (hhigh : a.toNat < 0xF0) (hb : isContinuation b = true) (hc : isContinuation c = true)
    (hshort : a.toNat = 0xE0 → 0xA0 ≤ b.toNat) (hscalar : a.toNat = 0xED → b.toNat < 0xA0) :
    decodeOne (a :: b :: c :: rest)
      = .ok (charOf ((a.toNat - 0xE0) * 4096 + (b.toNat - 0x80) * 64 + (c.toNat - 0x80)), 3) := by
  have h₁ : ¬a < 0x80 := not_lt_of_le_toNat (n := 0x80) rfl (by omega)
  have h₂ : ¬a < 0xC2 := not_lt_of_le_toNat (n := 0xC2) rfl (by omega)
  have h₃ : ¬a < 0xE0 := not_lt_of_le_toNat (n := 0xE0) rfl (by omega)
  have h₄ : a < 0xF0 := UInt8.lt_iff_toNat_lt.mpr hhigh
  have hfits : (if b < 0xA0 then a == 0xE0 else a == 0xED) = false :=
    second_fits_iff.mpr ⟨hshort, hscalar⟩
  simp only [decodeOne, if_neg h₁, if_neg h₂, if_neg h₃, if_pos h₄, hb, hc, hfits, Bool.not_true,
    Bool.or_false, Bool.false_eq_true, if_false, if_true]

/-- Four bytes are a character unless they spell it too long or lie beyond the last one. -/
theorem decodeOne_four {a b c d : UInt8} {rest : Bytes} (hlow : 0xF0 ≤ a.toNat)
    (hhigh : a.toNat < 0xF5) (hb : isContinuation b = true) (hc : isContinuation c = true)
    (hd : isContinuation d = true) (hshort : a.toNat = 0xF0 → 0x90 ≤ b.toNat)
    (hlast : a.toNat = 0xF4 → b.toNat < 0x90) :
    decodeOne (a :: b :: c :: d :: rest)
      = .ok (charOf ((a.toNat - 0xF0) * 262144 + (b.toNat - 0x80) * 4096
          + (c.toNat - 0x80) * 64 + (d.toNat - 0x80)), 4) := by
  have h₁ : ¬a < 0x80 := not_lt_of_le_toNat (n := 0x80) rfl (by omega)
  have h₂ : ¬a < 0xC2 := not_lt_of_le_toNat (n := 0xC2) rfl (by omega)
  have h₃ : ¬a < 0xE0 := not_lt_of_le_toNat (n := 0xE0) rfl (by omega)
  have h₄ : ¬a < 0xF0 := not_lt_of_le_toNat (n := 0xF0) rfl (by omega)
  have h₅ : a < 0xF5 := UInt8.lt_iff_toNat_lt.mpr hhigh
  have hfits : (if b < 0x90 then a == 0xF0 else a == 0xF4) = false :=
    second_fits_iff.mpr ⟨hshort, hlast⟩
  simp only [decodeOne, if_neg h₁, if_neg h₂, if_neg h₃, if_neg h₄, if_pos h₅, hb, hc, hd, hfits,
    Bool.not_true, Bool.or_false, Bool.false_eq_true, if_false, if_true]

/-! ## Encodings -/

theorem toNat_lt (c : Char) : c.toNat < 0xD800 ∨ 0xDFFF < c.toNat ∧ c.toNat < 0x110000 :=
  c.valid

theorem charOf_toNat (c : Char) : charOf c.toNat = c := Char.ofNat_toNat c

/-- A character takes up as many bytes as its size says. -/
theorem length_encodeChar (c : Char) : (encodeChar c).length = size c := by
  simp only [encodeChar, size]
  split
  · rfl
  · split
    · rfl
    · split
      · rfl
      · rfl

theorem le_toNat_toUInt8 {n : Nat} (hlow : 0x80 ≤ n) (hhigh : n < 256) :
    0x80 ≤ n.toUInt8.toNat := by
  rw [toNat_toUInt8 hhigh]
  exact hlow

/-- A byte of a character is the character itself or out of the range of short ones. -/
theorem toNat_of_mem_encodeChar {c : Char} {b : UInt8} (hb : b ∈ encodeChar c) :
    b.toNat = c.toNat ∨ 0x80 ≤ b.toNat := by
  have hvalid := toNat_lt c
  simp only [encodeChar] at hb
  split at hb
  next hone =>
    left
    rw [List.mem_singleton.mp hb, toNat_toUInt8 (by omega)]
  next =>
    -- from here on every byte has its highest bit set
    right
    split at hb
    · simp only [List.mem_cons, List.not_mem_nil, or_false] at hb
      rcases hb with rfl | rfl
      all_goals exact le_toNat_toUInt8 (by omega) (by omega)
    · split at hb
      · simp only [List.mem_cons, List.not_mem_nil, or_false] at hb
        rcases hb with rfl | rfl | rfl
        all_goals exact le_toNat_toUInt8 (by omega) (by omega)
      · simp only [List.mem_cons, List.not_mem_nil, or_false] at hb
        rcases hb with rfl | rfl | rfl | rfl
        all_goals exact le_toNat_toUInt8 (by omega) (by omega)

theorem size_pos (c : Char) : 0 < size c := by
  simp only [size]
  split
  · decide
  · split
    · decide
    · split
      · decide
      · decide

@[simp] theorem encode_nil : encode [] = [] := rfl

@[simp] theorem encode_cons (c : Char) (cs : List Char) :
    encode (c :: cs) = encodeChar c ++ encode cs := rfl

@[simp] theorem encode_append (cs ds : List Char) : encode (cs ++ ds) = encode cs ++ encode ds :=
  List.flatMap_append

/-- The decoder reads a character off its encoding, whatever follows. One case for every length of
an encoding; what is left of the rules of the format is arithmetic. -/
theorem decodeOne_encodeChar_append (c : Char) (rest : Bytes) :
    decodeOne (encodeChar c ++ rest) = .ok (c, size c) := by
  have hvalid := toNat_lt c
  have hchar := charOf_toNat c
  simp only [encodeChar, size]
  generalize c.toNat = n at hvalid hchar
  split
  next h₁ =>
    -- one byte, the character itself
    have ha : n.toUInt8.toNat = n := toNat_toUInt8 (by omega)
    rw [List.singleton_append, decodeOne_one (by omega), ha, hchar]
  next h₁ =>
    have hlow := isContinuation_low n
    have hlowVal : (0x80 + n % 64).toUInt8.toNat = 0x80 + n % 64 := toNat_toUInt8 (by omega)
    split
    next h₂ =>
      -- two bytes
      have ha : (0xC0 + n / 64).toUInt8.toNat = 0xC0 + n / 64 := toNat_toUInt8 (by omega)
      rw [List.cons_append, List.singleton_append, decodeOne_two (by omega) (by omega) hlow, ha,
        hlowVal]
      have hn : (0xC0 + n / 64 - 0xC0) * 64 + (0x80 + n % 64 - 0x80) = n := by omega
      rw [hn, hchar]
    next h₂ =>
      have hmid := isContinuation_low (n / 64)
      have hmidVal : (0x80 + n / 64 % 64).toUInt8.toNat = 0x80 + n / 64 % 64 :=
        toNat_toUInt8 (by omega)
      split
      next h₃ =>
        -- three bytes: not too short a number for them, and no surrogate
        have ha : (0xE0 + n / 4096).toUInt8.toNat = 0xE0 + n / 4096 := toNat_toUInt8 (by omega)
        rw [List.cons_append, List.cons_append, List.singleton_append,
          decodeOne_three (by omega) (by omega) hmid hlow (by omega) (by omega), ha, hmidVal,
          hlowVal]
        have hn : (0xE0 + n / 4096 - 0xE0) * 4096 + (0x80 + n / 64 % 64 - 0x80) * 64
            + (0x80 + n % 64 - 0x80) = n := by omega
        rw [hn, hchar]
      next h₃ =>
        -- four bytes: not too short a number for them, and none beyond the last character
        have hhigh := isContinuation_low (n / 4096)
        have hhighVal : (0x80 + n / 4096 % 64).toUInt8.toNat = 0x80 + n / 4096 % 64 :=
          toNat_toUInt8 (by omega)
        have ha : (0xF0 + n / 262144).toUInt8.toNat = 0xF0 + n / 262144 :=
          toNat_toUInt8 (by omega)
        rw [List.cons_append, List.cons_append, List.cons_append, List.singleton_append,
          decodeOne_four (by omega) (by omega) hhigh hmid hlow (by omega) (by omega), ha,
          hhighVal, hmidVal, hlowVal]
        have hn : (0xF0 + n / 262144 - 0xF0) * 262144 + (0x80 + n / 4096 % 64 - 0x80) * 4096
            + (0x80 + n / 64 % 64 - 0x80) * 64 + (0x80 + n % 64 - 0x80) = n := by omega
        rw [hn, hchar]

/-- The bytes that still belong to a character are skipped. -/
theorem decode_go_skip (position : Nat) (skipped rest : Bytes) :
    decode.go position skipped.length (skipped ++ rest)
      = decode.go (position + skipped.length) 0 rest := by
  induction skipped generalizing position with
  | nil => rfl
  | cons b skipped ih =>
    rw [List.length_cons, List.cons_append, decode.go, ih]
    congr 1
    omega

/-- Decoding an encoding gives the characters back. Induction on the characters: the first byte of
each tells how many bytes to skip, and these are the bytes that belong to it. -/
theorem decode_go_encode (position : Nat) (cs : List Char) :
    decode.go position 0 (encode cs) = .ok cs := by
  induction cs generalizing position with
  | nil => rfl
  | cons c cs ih =>
    have hone := decodeOne_encodeChar_append c (encode cs)
    have hlength := length_encodeChar c
    have hpos := size_pos c
    rw [encode_cons]
    -- one step reads the first byte of the character; the others are skipped
    cases hbytes : encodeChar c with
    | nil =>
      rw [hbytes, List.length_nil] at hlength
      omega
    | cons b bytes =>
      rw [hbytes, List.cons_append] at hone
      rw [hbytes, List.length_cons] at hlength
      have hskip : size c - 1 = bytes.length := by omega
      rw [List.cons_append, decode.go, hone]
      simp only
      rw [hskip, decode_go_skip, ih]
      rfl

/-- The bytes of characters encode these characters. -/
theorem decode_encode (cs : List Char) : decode (encode cs) = .ok cs := decode_go_encode 0 cs

/-- Both ways to decode give the same characters where all bytes encode some. -/
theorem decodeLossy_go_of_decode_go {position skip : Nat} {bytes : Bytes} {cs : List Char}
    (h : decode.go position skip bytes = .ok cs) : decodeLossy.go skip bytes = cs := by
  induction bytes generalizing position skip cs with
  | nil =>
    cases h
    rw [decodeLossy.go]
  | cons b bytes ih =>
    cases skip with
    | succ skip => exact ih h
    | zero =>
      rw [decode.go] at h
      split at h
      next c n hone =>
        obtain ⟨cs', hrest, h⟩ := Outcome.bind_eq_ok_iff.mp h
        cases h
        rw [decodeLossy.go, hone]
        exact congrArg (c :: ·) (ih hrest)
      -- where the strict decoding refuses, nothing was decoded
      next => cases h

/-- What can be decoded loses nothing. -/
theorem decodeLossy_encode (cs : List Char) : decodeLossy (encode cs) = cs :=
  decodeLossy_go_of_decode_go (decode_go_encode 0 cs)

/-- A text of characters has them as its characters. -/
theorem charsOfText_ofChars (cs : List Char) : charsOfText (Text.ofChars cs) = .ok cs := by
  have hgo : ∀ position, charsOfText.go position (Text.ofChars cs) = .ok cs := by
    induction cs with
    | nil =>
      intro position
      rfl
    | cons c cs ih =>
      intro position
      show (do return c :: (← charsOfText.go (position + 1) (Text.ofChars cs))) = _
      rw [ih]
      rfl
  exact hgo 0

/-- A text whose code points are all characters consists of them. -/
theorem eq_ofChars_of_charsOfText_go {text : Text} {position : Nat} {cs : List Char}
    (h : charsOfText.go position text = .ok cs) : text = Text.ofChars cs := by
  induction text generalizing position cs with
  | nil =>
    cases h
    rfl
  | cons point rest ih =>
    cases point with
    | surrogate n => cases h
    | char c =>
      obtain ⟨cs', hrest, h⟩ := Outcome.bind_eq_ok_iff.mp h
      cases h
      rw [ih hrest]
      rfl

/-- A text that has characters consists of them. -/
theorem eq_ofChars_of_charsOfText {text : Text} {cs : List Char} (h : charsOfText text = .ok cs) :
    text = Text.ofChars cs :=
  eq_ofChars_of_charsOfText_go h

/-- A text that can be encoded has characters, and their encoding. -/
theorem eq_encode_of_encodeText {text : Text} {bytes : Bytes} (h : encodeText text = .ok bytes) :
    ∃ cs, text = Text.ofChars cs ∧ bytes = encode cs := by
  unfold encodeText at h
  cases hcs : charsOfText text with
  | error e =>
    rw [hcs] at h
    cases h
  | ok cs =>
    rw [hcs] at h
    cases h
    exact ⟨cs, eq_ofChars_of_charsOfText hcs, rfl⟩

/-! ## Encoding undoes decoding

Each form of a character is encoded with the bytes it was decoded from. The conditions on the second
byte keep a character from being spelled with more bytes than it needs. -/

theorem toNat_charOf {n : Nat} (h : n < 0xD800 ∨ 0xDFFF < n ∧ n < 0x110000) :
    (charOf n).toNat = n := by
  have hvalid : n.isValidChar := h
  rw [charOf, Char.ofNat, dif_pos hvalid]
  rfl

theorem toUInt8_eq {n : Nat} {b : UInt8} (h : n = b.toNat) : n.toUInt8 = b := by
  rw [h]
  exact UInt8.ofNat_toNat

/-- Two bytes are what their character is encoded with. -/
theorem encodeChar_two {a b : UInt8} (hlow : 0xC2 ≤ a.toNat) (hhigh : a.toNat < 0xE0)
    (hb : isContinuation b = true) :
    encodeChar (charOf ((a.toNat - 0xC0) * 64 + (b.toNat - 0x80))) = [a, b] := by
  rw [isContinuation_iff] at hb
  have hfirst : (0xC0 + ((a.toNat - 0xC0) * 64 + (b.toNat - 0x80)) / 64).toUInt8 = a :=
    toUInt8_eq (by omega)
  have hsecond : (0x80 + ((a.toNat - 0xC0) * 64 + (b.toNat - 0x80)) % 64).toUInt8 = b :=
    toUInt8_eq (by omega)
  unfold encodeChar
  rw [toNat_charOf (by omega)]
  simp only
  rw [if_neg (by omega), if_pos (by omega), hfirst, hsecond]

/-- Three bytes are what their character is encoded with. A second byte of at least `A0` behind `E0`
means that two bytes would not do. -/
theorem encodeChar_three {a b c : UInt8} (hlow : 0xE0 ≤ a.toNat) (hhigh : a.toNat < 0xF0)
    (hb : isContinuation b = true) (hc : isContinuation c = true)
    (hshort : a.toNat = 0xE0 → 0xA0 ≤ b.toNat) (hscalar : a.toNat = 0xED → b.toNat < 0xA0) :
    encodeChar (charOf ((a.toNat - 0xE0) * 4096 + (b.toNat - 0x80) * 64 + (c.toNat - 0x80)))
      = [a, b, c] := by
  rw [isContinuation_iff] at hb hc
  generalize hn : (a.toNat - 0xE0) * 4096 + (b.toNat - 0x80) * 64 + (c.toNat - 0x80) = n
  have hfirst : (0xE0 + n / 4096).toUInt8 = a := toUInt8_eq (by omega)
  have hsecond : (0x80 + n / 64 % 64).toUInt8 = b := toUInt8_eq (by omega)
  have hthird : (0x80 + n % 64).toUInt8 = c := toUInt8_eq (by omega)
  unfold encodeChar
  rw [toNat_charOf (by omega)]
  simp only
  rw [if_neg (by omega), if_neg (by omega), if_pos (by omega), hfirst, hsecond, hthird]

/-- Four bytes are what their character is encoded with, if they stay within the range of
characters. -/
theorem encodeChar_four {a b c d : UInt8} (hlow : 0xF0 ≤ a.toNat) (hhigh : a.toNat < 0xF5)
    (hb : isContinuation b = true) (hc : isContinuation c = true) (hd : isContinuation d = true)
    (hshort : a.toNat = 0xF0 → 0x90 ≤ b.toNat) (hlast : a.toNat = 0xF4 → b.toNat < 0x90) :
    encodeChar (charOf ((a.toNat - 0xF0) * 262144 + (b.toNat - 0x80) * 4096
        + (c.toNat - 0x80) * 64 + (d.toNat - 0x80))) = [a, b, c, d] := by
  rw [isContinuation_iff] at hb hc hd
  generalize hn : (a.toNat - 0xF0) * 262144 + (b.toNat - 0x80) * 4096
    + (c.toNat - 0x80) * 64 + (d.toNat - 0x80) = n
  have hfirst : (0xF0 + n / 262144).toUInt8 = a := toUInt8_eq (by omega)
  have hsecond : (0x80 + n / 4096 % 64).toUInt8 = b := toUInt8_eq (by omega)
  have hthird : (0x80 + n / 64 % 64).toUInt8 = c := toUInt8_eq (by omega)
  have hfourth : (0x80 + n % 64).toUInt8 = d := toUInt8_eq (by omega)
  unfold encodeChar
  rw [toNat_charOf (by omega)]
  simp only
  rw [if_neg (by omega), if_neg (by omega), if_neg (by omega), hfirst, hsecond, hthird, hfourth]

/-- Bytes start with the encoding of a character, which has `n` bytes. -/
def StartsWith (bytes : Bytes) (c : Char) (n : Nat) : Prop :=
  ∃ rest, bytes = encodeChar c ++ rest ∧ n = (encodeChar c).length

/-- What has been decoded is the character whose bytes have been read. -/
theorem startsWith_of_eq_ok {read rest : Bytes} {c c' : Char} {n n' : Nat}
    (h : (.ok (c', n') : Except (Nat × Violation) (Char × Nat)) = .ok (c, n))
    (hread : encodeChar c' = read) (hlength : n' = read.length) :
    StartsWith (read ++ rest) c n := by
  obtain ⟨rfl, rfl⟩ := Prod.mk.inj (Except.ok.inj h)
  exact ⟨rest, by rw [hread], by rw [hread, hlength]⟩

section Reading

variable {a : UInt8} {rest : Bytes} {c : Char} {n : Nat}

theorem startsWith_one (h₁ : a < 0x80) (h : decodeOne (a :: rest) = .ok (c, n)) :
    StartsWith (a :: rest) c n := by
  simp only [decodeOne.eq_def, if_pos h₁] at h
  have ha : a.toNat < 0x80 := UInt8.lt_iff_toNat_lt.mp h₁
  have hchar : encodeChar (charOf a.toNat) = [a] := by
    unfold encodeChar
    rw [toNat_charOf (by omega), if_pos ha, toUInt8_eq rfl]
  exact startsWith_of_eq_ok h hchar rfl

/-- A first byte below `C2` would be a continuation, or spell a character that needs one byte
only. -/
theorem startsWith_two (h₁ : ¬a < 0x80) (h₂ : ¬a < 0xC2) (h₃ : a < 0xE0)
    (h : decodeOne (a :: rest) = .ok (c, n)) : StartsWith (a :: rest) c n := by
  simp only [decodeOne.eq_def, if_neg h₁, if_neg h₂, if_pos h₃] at h
  split at h
  next => cases h
  next b rest =>
    split at h
    next hb =>
      have hchar := encodeChar_two (le_toNat_of_not_lt h₂) (UInt8.lt_iff_toNat_lt.mp h₃) hb
      exact startsWith_of_eq_ok h hchar rfl
    next => cases h

/-- The second byte shows that three bytes are neither too many nor those of a surrogate. -/
theorem startsWith_three (h₁ : ¬a < 0x80) (h₂ : ¬a < 0xC2) (h₃ : ¬a < 0xE0) (h₄ : a < 0xF0)
    (h : decodeOne (a :: rest) = .ok (c, n)) : StartsWith (a :: rest) c n := by
  simp only [decodeOne.eq_def, if_neg h₁, if_neg h₂, if_neg h₃, if_pos h₄] at h
  split at h
  next => cases h
  next b rest =>
    generalize hfits : (!isContinuation b || if b < 0xA0 then a == 0xE0 else a == 0xED) = bad at h
    cases bad with
    | true => cases h
    | false =>
      rw [Bool.or_eq_false_iff, Bool.not_eq_false'] at hfits
      rw [if_neg Bool.false_ne_true] at h
      obtain ⟨hshort, hscalar⟩ := second_fits_iff.mp hfits.2
      split at h
      next => cases h
      next d rest =>
        split at h
        next hd =>
          have hchar := encodeChar_three (le_toNat_of_not_lt h₃) (UInt8.lt_iff_toNat_lt.mp h₄)
            hfits.1 hd hshort hscalar
          exact startsWith_of_eq_ok h hchar rfl
        next => cases h

/-- The second byte shows that four bytes are not too many, and the character not beyond the last
one. -/
theorem startsWith_four (h₁ : ¬a < 0x80) (h₂ : ¬a < 0xC2) (h₃ : ¬a < 0xE0) (h₄ : ¬a < 0xF0)
    (h₅ : a < 0xF5) (h : decodeOne (a :: rest) = .ok (c, n)) : StartsWith (a :: rest) c n := by
  simp only [decodeOne.eq_def, if_neg h₁, if_neg h₂, if_neg h₃, if_neg h₄, if_pos h₅] at h
  split at h
  next => cases h
  next b rest =>
    -- the second byte is a continuation, and within what the first one leaves to it
    generalize hfits : (!isContinuation b || if b < 0x90 then a == 0xF0 else a == 0xF4) = bad at h
    cases bad with
    | true => cases h
    | false =>
      rw [Bool.or_eq_false_iff, Bool.not_eq_false'] at hfits
      rw [if_neg Bool.false_ne_true] at h
      obtain ⟨hshort, hlast⟩ := second_fits_iff.mp hfits.2
      split at h
      next => cases h
      next d rest =>
        split at h
        next => cases h
        next hd =>
          rw [Bool.not_eq_true, Bool.not_eq_false'] at hd
          split at h
          next => cases h
          next e rest =>
            split at h
            next he =>
              have hchar := encodeChar_four (le_toNat_of_not_lt h₄)
                (UInt8.lt_iff_toNat_lt.mp h₅) hfits.1 hd he hshort hlast
              exact startsWith_of_eq_ok h hchar rfl
            next => cases h

end Reading

/-- What the decoder reads off the start of bytes is a character whose encoding they start with. One
case for each range of the first byte. -/
theorem startsWith_of_decodeOne {bytes : Bytes} {c : Char} {n : Nat}
    (h : decodeOne bytes = .ok (c, n)) : StartsWith bytes c n := by
  cases bytes with
  | nil => cases h
  | cons a rest =>
    by_cases h₁ : a < 0x80
    · exact startsWith_one h₁ h
    by_cases h₂ : a < 0xC2
    · -- no character starts with such a byte
      simp only [decodeOne.eq_def, if_neg h₁, if_pos h₂] at h
      cases h
    by_cases h₃ : a < 0xE0
    · exact startsWith_two h₁ h₂ h₃ h
    by_cases h₄ : a < 0xF0
    · exact startsWith_three h₁ h₂ h₃ h₄ h
    by_cases h₅ : a < 0xF5
    · exact startsWith_four h₁ h₂ h₃ h₄ h₅ h
    -- nor with one of these
    simp only [decodeOne.eq_def, if_neg h₁, if_neg h₂, if_neg h₃, if_neg h₄, if_neg h₅] at h
    cases h

/-- Whatever is skipped first, the characters that are decoded encode the bytes after it. -/
theorem encode_of_decode_go {position skip : Nat} {bytes : Bytes} {cs : List Char}
    (h : decode.go position skip bytes = .ok cs) : encode cs = bytes.drop skip := by
  induction bytes generalizing position skip cs with
  | nil =>
    cases h
    rw [List.drop_nil]
    rfl
  | cons b bytes ih =>
    cases skip with
    | succ skip =>
      rw [List.drop_succ_cons]
      exact ih h
    | zero =>
      rw [decode.go] at h
      split at h
      next c n hone =>
        obtain ⟨cs', hrest, h⟩ := Outcome.bind_eq_ok_iff.mp h
        cases h
        -- the bytes of a character are those read, and decoding skips the rest of them
        obtain ⟨rest, hbytes, rfl⟩ := startsWith_of_decodeOne hone
        have hpos := size_pos c
        rw [← length_encodeChar] at hpos
        have hdrop : bytes.drop ((encodeChar c).length - 1) = rest := by
          rw [← List.drop_succ_cons (a := b), Nat.sub_add_cancel hpos, hbytes, List.drop_left]
        rw [encode_cons, ih hrest, hdrop, List.drop_zero, hbytes]
      next => cases h

/-- Bytes are the encoding of the characters that they are decoded to. -/
theorem encode_of_decode {bytes : Bytes} {cs : List Char} (h : decode bytes = .ok cs) :
    encode cs = bytes := encode_of_decode_go h

end OptionTypes.Utf8
