import Sprig.Text.Blank
import Sprig.Text.Split
import Sprig.Url.Punycode

/-!
# Domain names

A domain name in ASCII: labels between points, in lower case. A label with other code points is
spelled in Punycode after `xn--`. Upper-case letters of the Latin, Greek and Cyrillic alphabets
become lower case first, full-width forms become ASCII, and marks without a width vanish; white
space, controls and private code points are not allowed.
-/

namespace Sprig.Domain

/-- Code points that no domain name holds. -/
def isRefused (v : Nat) : Bool :=
  (0x80 ≤ v && v ≤ 0xA0) || Text.isSurrogate v || (0xE000 ≤ v && v ≤ 0xF8FF) ||
    (0xFFF9 ≤ v && v ≤ 0xFFFF) || 0xE0000 ≤ v ||
    (0x80 ≤ v && v ≤ 0xFEFE && CodeUnit.isBlank v.toUInt16)

/-- Code points without a width. -/
def isIgnored (v : Nat) : Bool :=
  v == 0xAD || v == 0x200B || v == 0x2060 || v == 0xFEFF || (0xFE00 ≤ v && v ≤ 0xFE0F)

/-- The lower-case form of a letter of the Latin, Greek and Cyrillic alphabets; every other code
point is its own. -/
def lowerScalar (v : Nat) : Nat :=
  if 0x41 ≤ v ∧ v ≤ 0x5A then v + 0x20
  else if 0xC0 ≤ v ∧ v ≤ 0xDE ∧ v ≠ 0xD7 then v + 0x20
  else if (0x100 ≤ v ∧ v ≤ 0x12F) ∨ (0x132 ≤ v ∧ v ≤ 0x137) ∨ (0x14A ≤ v ∧ v ≤ 0x177) then
    v + (1 - v % 2)
  else if (0x139 ≤ v ∧ v ≤ 0x148) ∨ (0x179 ≤ v ∧ v ≤ 0x17E) then v + v % 2
  else if v = 0x178 then 0xFF
  else if v = 0x386 then 0x3AC
  else if 0x388 ≤ v ∧ v ≤ 0x38A then v + 0x25
  else if v = 0x38C then 0x3CC
  else if v = 0x38E ∨ v = 0x38F then v + 0x3F
  else if 0x391 ≤ v ∧ v ≤ 0x3AB ∧ v ≠ 0x3A2 then v + 0x20
  else if 0x400 ≤ v ∧ v ≤ 0x40F then v + 0x50
  else if 0x410 ≤ v ∧ v ≤ 0x42F then v + 0x20
  else v

/-- A code point as it stands in a domain name. Every kind of full stop is a point. -/
def foldScalar (v : Nat) : Nat :=
  if v = 0x3002 ∨ v = 0xFF61 then 0x2E
  else if 0xFF01 ≤ v ∧ v ≤ 0xFF5E then lowerScalar (v - 0xFEE0)
  else lowerScalar v

/-- The mark of a label in Punycode. -/
def spelledMark : Text := "xn--"

/-- A label in ASCII. One that already has the mark has to be the spelling of a label that needs
it. -/
def label? (t : Text) : Option Text :=
  if t.any (0x80 ≤ ·) then some (spelledMark ++ Punycode.encode t.scalars)
  else if spelledMark.isPrefixOf t then do
    let points ← Punycode.decode? (t.drop spelledMark.length)
    let isNeeded := points.any (0x80 ≤ ·)
    let isFolded := points.all fun v => foldScalar v == v && !isRefused v && !isIgnored v
    if isNeeded && isFolded then some t else none
  else some t

/-- A domain name in ASCII, which must not be empty. -/
def toAscii? (t : Text) : Option Text := do
  let points := t.scalars.filter fun v => !isIgnored v
  if points.any isRefused then none
  else
    let folded : Text := points.flatMap fun v => CodeUnit.ofScalar (foldScalar v)
    let labels ← (folded.split CodeUnit.point).mapM label?
    let name := List.intercalate [CodeUnit.point] labels
    if name.isEmpty then none else some name

end Sprig.Domain
