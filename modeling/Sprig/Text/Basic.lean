/-!
# Texts

A text is a list of 16-bit code units. All positions and lengths of the library count code
units: a character beyond the basic plane takes two of them, a surrogate pair, and a text may
hold half of such a pair alone.

`Text.scalars` reads a text as the characters it spells, and `CodeUnit.ofScalar` spells one.
-/

namespace Sprig

/-- One 16-bit unit of a text. -/
abbrev CodeUnit := UInt16

/-- A sequence of code units. -/
abbrev Text := List CodeUnit

namespace CodeUnit

/-! ### Classes -/

/-- The ASCII digits. -/
def isDigit (u : CodeUnit) : Bool := 0x30 ≤ u && u ≤ 0x39

/-- The ASCII letters of both cases. -/
def isLetter (u : CodeUnit) : Bool := (0x61 ≤ u && u ≤ 0x7A) || (0x41 ≤ u && u ≤ 0x5A)

/-- The ASCII letters and digits. -/
def isAlphanumeric (u : CodeUnit) : Bool := u.isLetter || u.isDigit

/-- The first half of a surrogate pair. -/
def isHighSurrogate (u : CodeUnit) : Bool := 0xD800 ≤ u && u ≤ 0xDBFF

abbrev lineFeed : CodeUnit := 0x0A
abbrev carriageReturn : CodeUnit := 0x0D
abbrev space : CodeUnit := 0x20
abbrev hash : CodeUnit := 0x23
abbrev percent : CodeUnit := 0x25
abbrev openParen : CodeUnit := 0x28
abbrev closeParen : CodeUnit := 0x29
abbrev plus : CodeUnit := 0x2B
abbrev minus : CodeUnit := 0x2D
abbrev point : CodeUnit := 0x2E
abbrev slash : CodeUnit := 0x2F
abbrev colon : CodeUnit := 0x3A
abbrev semicolon : CodeUnit := 0x3B
abbrev questionMark : CodeUnit := 0x3F
abbrev atSign : CodeUnit := 0x40
abbrev openBracket : CodeUnit := 0x5B
abbrev backslash : CodeUnit := 0x5C
abbrev closeBracket : CodeUnit := 0x5D

/-! ### Case -/

/-- The lower-case form of an ASCII letter; every other unit is its own. -/
def lower (u : CodeUnit) : CodeUnit := if 0x41 ≤ u && u ≤ 0x5A then u + 0x20 else u

/-! ### Characters -/

/-- The code units of a code point: one in the basic plane, a surrogate pair beyond it. -/
def ofScalar (v : Nat) : Text :=
  if v < 0x10000 then [v.toUInt16]
  else [(0xD800 + (v - 0x10000) / 0x400).toUInt16, (0xDC00 + (v - 0x10000) % 0x400).toUInt16]

/-- The value of a digit; other units count from the digit zero as well. -/
def digitValue (u : CodeUnit) : Nat := u.toNat - 0x30

end CodeUnit

namespace Text

/-! ### Conversion -/

/-- The code units of a string. -/
def ofString (s : String) : Text := s.toList.flatMap fun c => CodeUnit.ofScalar c.toNat

instance : Coe String Text := ⟨ofString⟩

/-- A natural number in decimal digits. -/
def ofNat (n : Nat) : Text := (Nat.toDigits 10 n).flatMap fun c => CodeUnit.ofScalar c.toNat

/-- An integer in decimal digits, with a leading minus sign if it is negative. -/
def ofInt : Int → Text
  | .ofNat n => ofNat n
  | .negSucc n => CodeUnit.minus :: ofNat (n + 1)

/-- The number that a text of decimal digits writes. -/
def toNat (digits : Text) : Nat := digits.foldl (fun n u => 10 * n + u.digitValue) 0

/-! ### Code points -/

/-- Puts a unit before the code points of the text that follows it: the first half of a pair
joins the second half, all else stands for itself. -/
def consScalar (u : CodeUnit) : List Nat → List Nat
  | [] => [u.toNat]
  | v :: vs =>
    if u.isHighSurrogate && 0xDC00 ≤ v && v ≤ 0xDFFF then
      (0x10000 + (u.toNat - 0xD800) * 0x400 + (v - 0xDC00)) :: vs
    else u.toNat :: v :: vs

/-- The code points of a text. Half of a surrogate pair that stands alone is a code point of its
own, between `0xD800` and `0xDFFF`. -/
def scalars (t : Text) : List Nat := t.foldr consScalar []

/-- A code point that is half of a surrogate pair. -/
def isSurrogate (v : Nat) : Bool := 0xD800 ≤ v && v ≤ 0xDFFF

/-! ### Case -/

/-- A text with its ASCII letters in lower case. -/
def lower (t : Text) : Text := t.map CodeUnit.lower

/-! ### Quoting -/

/-- A text between single quotes, nothing escaped. -/
def quoted (t : Text) : Text := ("'" : Text) ++ t ++ ("'" : Text)

@[simp] theorem scalars_nil : scalars [] = [] := rfl

@[simp] theorem scalars_cons (u : CodeUnit) (t : Text) :
    scalars (u :: t) = consScalar u (scalars t) := rfl

@[simp] theorem ofString_empty : ofString "" = [] := rfl

end Text

end Sprig
