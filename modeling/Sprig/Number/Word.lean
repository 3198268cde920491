import Sprig.Number.Numeral

/-!
# Signed 32-bit words

Integers between `-2 ^ 31` and `2 ^ 31 - 1`. `Word.wrap` takes an integer to the word that it is
congruent to modulo `2 ^ 32`; sums and products of words are wrapped. A literal outside the range is
refused. Wrapping moves no literal within it, but it takes the sign from a zero, so that the number
of every literal is an integer.
-/

namespace Sprig.Word

/-- The least word. -/
def least : Int := -2147483648

/-- The greatest word. -/
def greatest : Int := 2147483647

/-- The word that an integer is congruent to modulo `2 ^ 32`. -/
def wrap (n : Int) : Int := n.bmod 0x100000000

/-- The wrapped sum. -/
def add (a b : Int) : Int := wrap (a + b)

/-- The wrapped product. -/
def mul (a b : Int) : Int := wrap (a * b)

/-- The word of a number: its fraction is dropped, the rest wrapped, and a number that is not
finite becomes zero. -/
def ofNumber (x : Binary64) : Int := wrap x.truncate

/-- The word of the sum of two numbers, which is rounded before it is wrapped. -/
def ofSum (x y : Binary64) : Int := ofNumber (x + y)

/-- The wrapped product of the words of two numbers. -/
def ofProduct (x y : Binary64) : Int := mul (ofNumber x) (ofNumber y)

/-- An integer within the range of words; a zero may have a sign. -/
def fits (x : Binary64) : Bool := x.isInteger && x.isAtLeast least && x.isAtMost greatest

/-- The number that a literal stands for, if it writes an integer within the range: the number of
its word, without a sign on the zero. -/
def number? (t : Text) : Option Binary64 :=
  let x := t.toNumber
  if fits x then some (.ofInt (ofNumber x)) else none

/-- The word that a text writes. -/
def ofText? (t : Text) : Option Int := (number? t).bind Binary64.integer?

theorem least_le_wrap (n : Int) : least ≤ wrap n := by
  have := Int.le_bmod (x := n) (m := 0x100000000) (by decide)
  simp only [wrap, least]
  omega

theorem wrap_le_greatest (n : Int) : wrap n ≤ greatest := by
  have := Int.bmod_lt (x := n) (m := 0x100000000) (by decide)
  simp only [wrap, greatest]
  omega

end Sprig.Word
