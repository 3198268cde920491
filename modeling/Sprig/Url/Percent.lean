import Sprig.Number.Numeral
import Sprig.Text.Utf8

/-!
# Percent escapes

In an address, a code point that may not stand for itself is written as the bytes of its UTF-8
form, each a percent sign and two hexadecimal digits. Which code points these are depends on the
part of the address; a percent sign is never one of them, so an escape stays as it is.
-/

namespace Sprig.Percent

/-! ### Classes -/

/-- A class of code points to be escaped. -/
abbrev Class := Nat → Bool

/-- A class and some more code points. -/
def Class.adding (c : Class) (more : Text) : Class := fun v =>
  c v || more.any fun u => u.toNat = v

/-- Controls, and everything beyond ASCII. -/
def control : Class := fun v => v < 0x20 || 0x7E < v

/-- What is escaped in a fragment. -/
def fragment : Class := control.adding " \"<>`"

/-- What is escaped in a query. -/
def query : Class := control.adding " \"#<>"

/-- What is escaped in the query of a special address. -/
def specialQuery : Class := query.adding "'"

/-- What is escaped in a segment of a path. -/
def path : Class := query.adding "?`\x7b\x7d"

/-- What is escaped in a user name or a password. -/
def userinfo : Class := path.adding "/:;=@[\\]^|"

/-! ### Encoding -/

/-- A hexadecimal digit, in upper case. -/
def hexDigit (n : Nat) : CodeUnit :=
  if n < 10 then (0x30 + n).toUInt16 else (0x37 + n).toUInt16

/-- The escape of a byte. -/
def escape (b : UInt8) : Text :=
  [CodeUnit.percent, hexDigit (b.toNat / 16), hexDigit (b.toNat % 16)]

/-- A code point, escaped if it is of a class. -/
def encodeScalar (c : Class) (v : Nat) : Text :=
  if c v then (Utf8.encodeScalar v).flatMap escape else CodeUnit.ofScalar v

/-- A text with the code points of a class escaped. -/
def encode (c : Class) (t : Text) : Text := t.scalars.flatMap (encodeScalar c)

/-! ### Decoding -/

/-- The byte that two hexadecimal digits name. -/
def byte? (high low : UInt8) : Option UInt8 := do
  let high ← CodeUnit.digitIn? 16 high.toUInt16
  let low ← CodeUnit.digitIn? 16 low.toUInt16
  return (16 * high + low).toUInt8

/-- Bytes with their escapes resolved. A percent sign that starts no escape stands for itself. -/
def decodeBytes : List UInt8 → List UInt8
  | [] => []
  | [b] => [b]
  | [b, c] => [b, c]
  | b :: high :: low :: rest =>
    if b = 0x25 then
      match byte? high low with
      | some escaped => escaped :: decodeBytes rest
      | none => b :: decodeBytes (high :: low :: rest)
    else b :: decodeBytes (high :: low :: rest)

/-- The text that a text with escapes spells. -/
def decode (t : Text) : Text := Utf8.decode (decodeBytes (Utf8.encode t))

end Sprig.Percent
