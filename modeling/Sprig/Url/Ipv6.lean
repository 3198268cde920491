import Sprig.Number.Numeral
import Sprig.Text.Split

/-!
# Addresses of 128 bits

Eight pieces of 16 bits, in hexadecimal between colons. Two colons in a row stand for one or more
pieces of zero, and the last two pieces may be written as four decimal numbers. The written form
puts two colons for the longest run of at least two zeros, the first of several.
-/

namespace Sprig.Ipv6

/-! ### Reading -/

/-- A piece: up to four hexadecimal digits. -/
def piece? (t : Text) : Option Nat := if t.length ≤ 4 then Text.natIn? 16 t else none

/-- A byte in decimal, without leading zeros. -/
def byte? (t : Text) : Option Nat := do
  let n ← Text.natIn? 10 t
  if n < 256 ∧ Text.ofNat n = t then some n else none

/-- The two pieces that four decimal numbers between points write. -/
def dotted? (t : Text) : Option (List Nat) := do
  match ← (t.split CodeUnit.point).mapM byte? with
  | [a, b, c, d] => some [256 * a + b, 256 * c + d]
  | _ => none

/-- Pieces of which the last may be dotted. -/
def pieces? : List Text → Option (List Nat)
  | [] => some []
  | [last] => if last.contains CodeUnit.point then dotted? last else (piece? last).map ([·])
  | part :: parts => do return (← piece? part) :: (← pieces? parts)

/-- What stands before the first two colons in a row, and what follows them if there are any. -/
def atGap : Text → Text × Option Text
  | [] => ([], none)
  | u :: rest =>
    if u = CodeUnit.colon ∧ rest.head? = some CodeUnit.colon then ([], some rest.tail)
    else
      let parts := atGap rest
      (u :: parts.1, parts.2)

/-- The parts of a text between colons, none if the text is empty. -/
def parts (t : Text) : List Text := if t.isEmpty then [] else t.split CodeUnit.colon

/-- The pieces of the address that a text writes. -/
def ofText? (t : Text) : Option (List Nat) := do
  match atGap t with
  | (whole, none) =>
    let pieces ← pieces? (parts whole)
    if pieces.length = 8 then some pieces else none
  | (left, some right) =>
    let left ← (parts left).mapM piece?
    let right ← pieces? (parts right)
    if left.length + right.length ≤ 7 then
      some (left ++ List.replicate (8 - left.length - right.length) 0 ++ right)
    else none

/-! ### Writing -/

/-- The number of zeros in a row from a piece on. -/
def zerosFrom (pieces : List Nat) (i : Nat) : Nat := ((pieces.drop i).takeWhile (· == 0)).length

/-- The start of the longest run of zeros, the first of several, if it has two or more. -/
def longestGap? (pieces : List Nat) : Option Nat :=
  let starts := List.range pieces.length
  let longest := (starts.map (zerosFrom pieces)).foldl max 0
  if 2 ≤ longest then starts.find? fun i => zerosFrom pieces i == longest else none

/-- A piece in hexadecimal, in lower case and without leading zeros. -/
def pieceText (n : Nat) : Text := (Nat.toDigits 16 n).flatMap fun c => CodeUnit.ofScalar c.toNat

/-- Pieces between colons. -/
def joined (pieces : List Nat) : Text :=
  List.intercalate [CodeUnit.colon] (pieces.map pieceText)

/-- An address in its written form. -/
def toText (pieces : List Nat) : Text :=
  match longestGap? pieces with
  | none => joined pieces
  | some i =>
    joined (pieces.take i) ++ ("::" : Text) ++ joined (pieces.drop (i + zerosFrom pieces i))

end Sprig.Ipv6
