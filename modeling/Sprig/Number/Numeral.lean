import Sprig.Number.Binary64
import Sprig.Text.Blank

/-!
# Numerals

The number that a text writes, as options and environment variables are read: blanks at either
end are dropped, nothing at all is zero, `0x`, `0o` and `0b` start an unsigned integer in base
16, 8 and 2, and otherwise a sign may stand before `Infinity` or a decimal numeral, which needs a
digit before or after its point. A minus sign before zero makes the negative zero. Every other text
is not a number.
-/

namespace Sprig

/-- The value of a digit in a base up to 16. -/
def CodeUnit.digitIn? (base : Nat) (u : CodeUnit) : Option Nat :=
  let v :=
    if u.isDigit then u.toNat - 0x30
    else if 0x61 ≤ u && u ≤ 0x66 then u.toNat - 0x57
    else if 0x41 ≤ u && u ≤ 0x46 then u.toNat - 0x37
    else base
  if v < base then some v else none

namespace Text

/-- The number that digits of a base write; there has to be one. -/
def natIn? (base : Nat) (t : Text) : Option Nat :=
  if t.isEmpty then none
  else (t.mapM (CodeUnit.digitIn? base)).map fun digits => digits.foldl (base * · + ·) 0

/-- The base that a letter after a leading zero announces. -/
def base? (u : CodeUnit) : Option Nat :=
  if u = 0x78 ∨ u = 0x58 then some 16
  else if u = 0x6F ∨ u = 0x4F then some 8
  else if u = 0x62 ∨ u = 0x42 then some 2
  else none

/-- An integer with the mark of its base. -/
def markedInteger? : Text → Option Nat
  | zero :: mark :: digits =>
    if zero = 0x30 then (base? mark).bind fun base => natIn? base digits else none
  | _ => none

/-- Reads the digits after a point, if there is one. -/
def takeFraction : Text → Text × Text
  | [] => ([], [])
  | u :: rest =>
    if u = CodeUnit.point then (leadingDigits rest, afterDigits rest) else ([], u :: rest)

/-- A decimal numeral without its sign. -/
def decimal? (negative : Bool) (t : Text) : Option Decimal := do
  let whole := t.leadingDigits
  let (fraction, rest) := takeFraction t.afterDigits
  if whole.isEmpty && fraction.isEmpty then none
  else
    let (exponent, rest) ← takeExponent? rest
    if rest.isEmpty then some (Decimal.ofParts negative whole fraction exponent) else none

/-- The number that a text without outer blanks writes after its sign. -/
def toUnsigned (negative : Bool) (t : Text) : Binary64 :=
  if t = ("Infinity" : Text) then .infinite negative
  else ((t.decimal? negative).map Binary64.ofDecimal).getD .nan

/-- The number that a text writes. -/
def toNumber (t : Text) : Binary64 :=
  let t := t.trim
  if t.isEmpty then .finite 0
  else
    match t.markedInteger? with
    | some n => .ofInt n
    | none => let (negative, rest) := t.takeSign; rest.toUnsigned negative

end Text

end Sprig
