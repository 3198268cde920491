import Sprig.Text.Basic

/-!
# Punycode

Code points beyond ASCII spelled with ASCII letters and digits. The ASCII part comes first; then,
in ascending order of the other code points, one number for each tells how many places to go on
from the one before. A number is written with the lowest digit first, in base 36; a digit below a
threshold ends it, and the thresholds follow a bias that adapts to the numbers seen so far.
-/

namespace Sprig.Punycode

/-! ### Numbers -/

/-- The least code point beyond ASCII. -/
def firstPoint : Nat := 0x80

/-- The bias before the first number. -/
def firstBias : Nat := 72

/-- The threshold of the digit at a position, counted in steps of 36 from 36 on. -/
def threshold (bias position : Nat) : Nat := min 26 (max 1 (position - bias))

theorem threshold_pos (bias position : Nat) : 0 < threshold bias position := by
  simp only [threshold]; omega

/-- Divides by 35 until little is left, and counts the divisions in steps of 36. -/
def scaleDown (delta count : Nat) : Nat × Nat :=
  if 455 < delta then scaleDown (delta / 35) (count + 36) else (delta, count)
termination_by delta
decreasing_by omega

/-- The bias after a number: `points` code points are in place then. -/
def adapt (delta points : Nat) (isFirst : Bool) : Nat :=
  let delta := if isFirst then delta / 700 else delta / 2
  let (delta, count) := scaleDown (delta + delta / points) 0
  count + 36 * delta / (delta + 38)

/-- A digit: the letters, then the decimal digits. -/
def digit (n : Nat) : CodeUnit := if n < 26 then (0x61 + n).toUInt16 else (0x16 + n).toUInt16

/-- The value of a digit, in either case. -/
def digitValue? (u : CodeUnit) : Option Nat :=
  if u.isDigit then some (u.toNat - 0x16)
  else if u.isLetter then some (u.lower.toNat - 0x61)
  else none

/-- The digits of a number, from a position on. -/
def digits (bias position q : Nat) : Text :=
  let t := threshold bias position
  if q < t then [digit q]
  else digit (t + (q - t) % (36 - t)) :: digits bias (position + 36) ((q - t) / (36 - t))
termination_by q
decreasing_by
  have := threshold_pos bias position
  exact Nat.lt_of_le_of_lt (Nat.div_le_self _ _) (by omega)

/-! ### Encoding -/

/-- The state of the encoder: the places gone on since the last number, the bias, the number of
code points in place, and the digits written. -/
structure Encoder where
  delta : Nat
  bias : Nat
  placed : Nat
  written : Text

/-- Passes a place of the text while the occurrences of a code point are being written; `basic`
places hold ASCII. -/
def Encoder.pass (basic point : Nat) (e : Encoder) (v : Nat) : Encoder :=
  if v < point then { e with delta := e.delta + 1 }
  else if v = point then
    { delta := 0, bias := adapt e.delta (e.placed + 1) (e.placed = basic),
      placed := e.placed + 1, written := e.written ++ digits e.bias 36 e.delta }
  else e

/-- Writes the occurrences of a code point, after all those below `next`. -/
def Encoder.write (basic : Nat) (points : List Nat) : Encoder × Nat → Nat → Encoder × Nat
  | (e, next), point =>
    let e := { e with delta := e.delta + (point - next) * (e.placed + 1) }
    let e := points.foldl (Encoder.pass basic point) e
    ({ e with delta := e.delta + 1 }, point + 1)

/-- The spelling of code points. -/
def encode (points : List Nat) : Text :=
  let basic := points.filter (· < firstPoint)
  let others := ((points.filter (firstPoint ≤ ·)).mergeSort (· ≤ ·)).eraseDups
  let start : Encoder := ⟨0, firstBias, basic.length, []⟩
  let (e, _) := others.foldl (Encoder.write basic.length points) (start, firstPoint)
  basic.flatMap CodeUnit.ofScalar ++
    (if basic.isEmpty then [] else [CodeUnit.minus]) ++ e.written

/-! ### Decoding -/

/-- The state of the decoder: the code points in place, the last of them by value, the bias, and
the number being read, with the place it started from and the position and weight of its next
digit. -/
structure Decoder where
  points : List Nat
  point : Nat
  bias : Nat
  start : Nat
  index : Nat
  position : Nat
  weight : Nat

namespace Decoder

/-- Puts the code point in place that a complete number tells of. -/
def place? (d : Decoder) : Option Decoder :=
  let count := d.points.length + 1
  let point := d.point + d.index / count
  let place := d.index % count
  if 0x10FFFF < point ∨ Text.isSurrogate point then none
  else
    some ⟨d.points.insertIdx place point, point, adapt (d.index - d.start) count (d.start = 0),
      place + 1, place + 1, 36, 1⟩

/-- Reads one digit. -/
def feed? (d : Decoder) (u : CodeUnit) : Option Decoder := do
  let digit ← digitValue? u
  let t := threshold d.bias d.position
  let d := { d with index := d.index + digit * d.weight }
  if digit < t then d.place?
  else some { d with position := d.position + 36, weight := d.weight * (36 - t) }

end Decoder

/-- The code points of a spelling. -/
def decode? (t : Text) : Option (List Nat) := do
  let digits := (t.reverse.takeWhile (· ≠ CodeUnit.minus)).reverse
  let basic := t.take (t.length - digits.length - 1)
  if basic.any (0x80 ≤ ·) then none
  else
    let start : Decoder := ⟨basic.map UInt16.toNat, firstPoint, firstBias, 0, 0, 36, 1⟩
    let d ← digits.foldlM Decoder.feed? start
    if d.position = 36 then some d.points else none

end Sprig.Punycode
