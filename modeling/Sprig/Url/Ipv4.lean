import Sprig.Number.Numeral
import Sprig.Text.Split

/-!
# Addresses of 32 bits

Up to four numbers between points, in decimal, after `0x` in hexadecimal and after a zero in
octal. Each but the last is one byte; the last fills the bytes that are left. The written form
has four decimal numbers.
-/

namespace Sprig.Ipv4

/-- A number of an address. The mark of a base alone is zero. -/
def number? : Text → Option Nat
  | [] => none
  | [u] => Text.natIn? 10 [u]
  | u :: mark :: rest =>
    if u = 0x30 then
      if mark.lower = 0x78 then if rest.isEmpty then some 0 else Text.natIn? 16 rest
      else Text.natIn? 8 (mark :: rest)
    else Text.natIn? 10 (u :: mark :: rest)

/-- The parts of a text between points; an empty part at the end is left out unless it is the
only one. -/
def parts (t : Text) : List Text :=
  let all := t.split CodeUnit.point
  if 1 < all.length ∧ all.getLast? = some [] then all.dropLast else all

/-- A text that has to be read as an address, since its last part is a number or has digits
only. -/
def isNumeric (t : Text) : Bool :=
  (parts t).getLast?.any fun last =>
    (number? last).isSome || (!last.isEmpty && last.all CodeUnit.isDigit)

/-- The value of the numbers of an address: `rank` bytes are still to be filled. -/
def value? : (rank : Nat) → List Nat → Option Nat
  | _, [] => none
  | rank, [last] => if last < 256 ^ rank then some last else none
  | rank, n :: rest =>
    if n < 256 then (value? (rank - 1) rest).map (n * 256 ^ (rank - 1) + ·) else none

/-- The address that a text writes. -/
def ofText? (t : Text) : Option Nat := do
  let parts := parts t
  if 4 < parts.length then none else value? 4 (← parts.mapM number?)

/-- An address as four decimal numbers between points. -/
def toText (address : Nat) : Text :=
  List.intercalate [CodeUnit.point]
    ([0x1000000, 0x10000, 0x100, 1].map fun unit => Text.ofNat (address / unit % 256))

end Sprig.Ipv4
