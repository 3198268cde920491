import Sprig.Number.Decimal

/-!
# Double-precision numbers

The values of the binary64 format: a finite value is kept as the rational number it is, and the zero
with a minus sign is a value of its own. `Binary64.round` takes any rational to the nearest value of
the format, a tie to the one with the even significand; what rounds beyond the greatest finite value
becomes infinite, and below the normal range the spacing stays that of the least normal values, so
that a number may round to zero. It keeps its sign then.
-/

namespace Sprig

/-- A value of the binary64 format. The rational number zero is the zero without a sign. -/
inductive Binary64 where
  | nan
  | infinite (negative : Bool)
  | negativeZero
  | finite (value : Rat)
  deriving DecidableEq, Repr

namespace Binary64

/-! ### Rounding -/

/-- The nearest integer, the even one if two are equally near. -/
def nearestEven (q : Rat) : Int :=
  let low := q.floor
  let excess := q - low
  if excess < 1 / 2 then low
  else if 1 / 2 < excess then low + 1
  else if low % 2 = 0 then low else low + 1

/-- A power of two. -/
def powerOfTwo (e : Int) : Rat :=
  if 0 ≤ e then (Nat.pow 2 e.toNat : Nat) else mkRat 1 (Nat.pow 2 (-e).toNat)

/-- The absolute value. -/
def magnitude (q : Rat) : Rat := if q < 0 then -q else q

/-- The greatest `e` such that a nonzero number is at least `2 ^ e` in magnitude. -/
def binade (q : Rat) : Int :=
  let e : Int := (q.num.natAbs.log2 : Int) - q.den.log2
  if powerOfTwo e ≤ magnitude q then e else e - 1

/-- The distance between neighbouring values of the format around a nonzero number. -/
def spacing (q : Rat) : Rat := powerOfTwo (max (binade q - 52) (-1074))

/-- The zero of a sign. -/
def zero (negative : Bool) : Binary64 := if negative then negativeZero else finite 0

/-- The value nearest to a rational number. -/
def round (q : Rat) : Binary64 :=
  if q = 0 then finite 0
  else
    let r := nearestEven (q / spacing q) * spacing q
    if r = 0 then zero (q < 0)
    else if magnitude r < powerOfTwo 1024 then finite r
    else infinite (q < 0)

/-- The value nearest to a decimal number. Far outside the range of the format the exponent alone
decides, so that no huge power of ten is computed. -/
def ofDecimal (d : Decimal) : Binary64 :=
  if d.mantissa = 0 then zero d.negative
  else if 400 < d.exponent then infinite d.negative
  else if d.exponent < -(400 + d.mantissa.log2 : Int) then zero d.negative
  else round d.toRat

/-- The value nearest to an integer. -/
def ofInt (n : Int) : Binary64 := round n

/-! ### Questions -/

/-- A finite value without a fraction. -/
def isInteger : Binary64 → Bool
  | finite q => q.den = 1
  | negativeZero => true
  | _ => false

/-- Greater than zero. -/
def isPositive : Binary64 → Bool
  | nan | negativeZero => false
  | infinite negative => !negative
  | finite q => 0 < q

/-- At most the given integer. -/
def isAtMost (bound : Int) : Binary64 → Bool
  | nan => false
  | infinite negative => negative
  | negativeZero => 0 ≤ bound
  | finite q => q ≤ bound

/-- At least the given integer. -/
def isAtLeast (bound : Int) : Binary64 → Bool
  | nan => false
  | infinite negative => !negative
  | negativeZero => bound ≤ 0
  | finite q => bound ≤ q

/-- The value without its fraction, zero if it is not finite. -/
def truncate : Binary64 → Int
  | finite q => q.num.tdiv q.den
  | _ => 0

/-- The integer that a value is. The zero with a minus sign is none. -/
def integer? : Binary64 → Option Int
  | finite q => if q.den = 1 then some q.num else none
  | _ => none

/-- How many of `available` things are taken when they are counted up from zero and a count is
taken as long as it is less than the value. -/
def countBelow (available : Nat) : Binary64 → Nat
  | nan | negativeZero => 0
  | infinite negative => if negative then 0 else available
  | finite q => min available q.ceil.toNat

@[simp] theorem countBelow_zero (x : Binary64) : x.countBelow 0 = 0 := by
  cases x with
  | nan | negativeZero => rfl
  | infinite negative => cases negative <;> rfl
  | finite q => simp [countBelow]

/-- What is taken is taken again. -/
theorem countBelow_countBelow (x : Binary64) (n : Nat) :
    x.countBelow (x.countBelow n) = x.countBelow n := by
  cases x with
  | nan | negativeZero => rfl
  | infinite negative => cases negative <;> rfl
  | finite q => simp [countBelow]

theorem countBelow_natCast (n m : Nat) : (finite m).countBelow n = min n m := by
  have hceil : (m : Rat).ceil = (m : Int) := Rat.ceil_intCast m
  rw [countBelow, hceil, Int.toNat_natCast]

/-! ### Addition -/

/-- The sum, rounded. The zero with a minus sign changes no number, and numbers that cancel give
the zero without a sign. -/
def add : Binary64 → Binary64 → Binary64
  | nan, _ | _, nan => nan
  | infinite s, infinite t => if s = t then infinite s else nan
  | infinite s, _ | _, infinite s => infinite s
  | negativeZero, x | x, negativeZero => x
  | finite p, finite q => round (p + q)

instance : Add Binary64 := ⟨add⟩

end Binary64

end Sprig
