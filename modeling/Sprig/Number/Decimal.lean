import Sprig.Text.Basic

/-!
# Decimal numbers

A decimal number as it is written: a sign and a natural number times a power of ten, nothing
rounded. The sign is kept where the number is zero, since zero has one as a double-precision number.
The parts of a numeral that two grammars share are read here: leading digits, a sign, and an
exponent.
-/

namespace Sprig

/-- The number `mantissa * 10 ^ exponent`, or its negative. -/
structure Decimal where
  negative : Bool
  mantissa : Nat
  exponent : Int
  deriving DecidableEq, Repr

namespace Decimal

/-- An integer as a decimal number. -/
def ofInt (n : Int) : Decimal := ⟨n < 0, n.natAbs, 0⟩

/-- The number that a sign, the digits before and after the point, and an exponent write. -/
def ofParts (negative : Bool) (whole fraction : Text) (exponent : Int) : Decimal :=
  ⟨negative, Text.toNat (whole ++ fraction), exponent - fraction.length⟩

/-- The mantissa with its sign. -/
def significand (d : Decimal) : Int := if d.negative then -(d.mantissa : Int) else d.mantissa

/-- The exact value. -/
def toRat (d : Decimal) : Rat :=
  if 0 ≤ d.exponent then d.significand * (Nat.pow 10 d.exponent.toNat : Nat)
  else mkRat d.significand (Nat.pow 10 (-d.exponent).toNat)

/-- The minus sign, if the number has one. -/
def signText (d : Decimal) : Text := if d.negative then [CodeUnit.minus] else []

/-- The exponent after `e`, unless it is zero. -/
def exponentText (d : Decimal) : Text :=
  if d.exponent = 0 then [] else 0x65 :: Text.ofInt d.exponent

/-- The number as it is written: its sign, its digits and its exponent. -/
def toText (d : Decimal) : Text := d.signText ++ Text.ofNat d.mantissa ++ d.exponentText

end Decimal

namespace Text

/-! ### Parts of a numeral -/

/-- The digits that a text starts with. -/
def leadingDigits (t : Text) : Text := t.takeWhile CodeUnit.isDigit

/-- What follows the digits that a text starts with. -/
def afterDigits (t : Text) : Text := t.dropWhile CodeUnit.isDigit

/-- Reads an optional sign: whether it is a minus sign, and what follows. -/
def takeSign : Text → Bool × Text
  | [] => (false, [])
  | u :: rest =>
    if u = CodeUnit.minus then (true, rest)
    else if u = CodeUnit.plus then (false, rest)
    else (false, u :: rest)

/-- Reads an optional exponent: its value, zero if there is none, and what follows. The letter
needs digits after it. -/
def takeExponent? : Text → Option (Int × Text)
  | [] => some (0, [])
  | u :: rest =>
    if u = 0x65 ∨ u = 0x45 then
      let (negative, rest) := takeSign rest
      let digits := rest.leadingDigits
      if digits.isEmpty then none
      else some (if negative then -(digits.toNat : Int) else digits.toNat, rest.afterDigits)
    else some (0, u :: rest)

end Text

end Sprig
