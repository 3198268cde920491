import Sprig.Text.Basic

/-!
# UTF-8

Texts as bytes. Encoding writes the replacement character U+FFFD for half of a surrogate pair.
Decoding accepts any bytes: each maximal part of a well-formed sequence that is cut short, and
each byte that starts none, becomes one U+FFFD. A byte order mark is a character like any other.

The decoder reads one byte at a time. Between characters it is `ready`; within one it knows how
many bytes are missing and the range that the next one must lie in, so that overlong forms,
surrogates and values beyond U+10FFFF are refused at their second byte.
-/

namespace Sprig.Utf8

/-- The code point that stands for what cannot be read or written. -/
def replacement : Nat := 0xFFFD

/-! ### Encoding -/

/-- A continuation byte, from the six lowest bits of a value. -/
def continuation (v : Nat) : UInt8 := (0x80 + v % 0x40).toUInt8

/-- The bytes of a code point. -/
def encodeScalar (v : Nat) : List UInt8 :=
  if Text.isSurrogate v then [0xEF, 0xBF, 0xBD]
  else if v < 0x80 then [v.toUInt8]
  else if v < 0x800 then [(0xC0 + v / 0x40).toUInt8, continuation v]
  else if v < 0x10000 then
    [(0xE0 + v / 0x1000).toUInt8, continuation (v / 0x40), continuation v]
  else
    [(0xF0 + v / 0x40000).toUInt8, continuation (v / 0x1000), continuation (v / 0x40),
      continuation v]

/-- The bytes of a text. -/
def encode (t : Text) : List UInt8 := t.scalars.flatMap encodeScalar

/-! ### Decoding -/

/-- Where the decoder stands between two bytes. -/
inductive Decoder where
  /-- Between characters. -/
  | ready
  /-- Within a character: the number of bytes missing, the range of the next byte, and the value
  of the bytes read. -/
  | within (missing : Nat) (low high : UInt8) (value : Nat)
  deriving DecidableEq, Repr

namespace Decoder

/-- Reads the first byte of a character. -/
def start (b : UInt8) : Text × Decoder :=
  if b ≤ 0x7F then (CodeUnit.ofScalar b.toNat, ready)
  else if 0xC2 ≤ b && b ≤ 0xDF then ([], within 1 0x80 0xBF (b.toNat - 0xC0))
  else if 0xE0 ≤ b && b ≤ 0xEF then
    ([], within 2 (if b = 0xE0 then 0xA0 else 0x80) (if b = 0xED then 0x9F else 0xBF)
      (b.toNat - 0xE0))
  else if 0xF0 ≤ b && b ≤ 0xF4 then
    ([], within 3 (if b = 0xF0 then 0x90 else 0x80) (if b = 0xF4 then 0x8F else 0xBF)
      (b.toNat - 0xF0))
  else (CodeUnit.ofScalar replacement, ready)

/-- Reads one byte: the text that is complete with it, and where the decoder stands then. A byte
that cannot continue a character ends it and starts the next. -/
def feed : Decoder → UInt8 → Text × Decoder
  | ready, b => start b
  | within missing low high value, b =>
    if low ≤ b && b ≤ high then
      let value := value * 0x40 + b.toNat % 0x40
      if missing ≤ 1 then (CodeUnit.ofScalar value, ready)
      else ([], within (missing - 1) 0x80 0xBF value)
    else
      let (text, next) := start b
      (CodeUnit.ofScalar replacement ++ text, next)

/-- The text that is owed when the bytes end. -/
def finish : Decoder → Text
  | ready => []
  | within .. => CodeUnit.ofScalar replacement

end Decoder

/-- Decodes bytes from a state of the decoder, after the units that it has written so far, which
are held in reverse. -/
def decodeFrom : Decoder → Text → List UInt8 → Text
  | d, written, [] => (d.finish.reverse ++ written).reverse
  | d, written, b :: bytes =>
    decodeFrom (d.feed b).2 ((d.feed b).1.reverse ++ written) bytes

/-- The text that bytes encode. -/
def decode (bytes : List UInt8) : Text := decodeFrom .ready [] bytes

/-- What was written before stays in front. -/
theorem decodeFrom_eq (d : Decoder) (written : Text) (bytes : List UInt8) :
    decodeFrom d written bytes = written.reverse ++ decodeFrom d [] bytes := by
  induction bytes generalizing d written with
  | nil => simp [decodeFrom]
  | cons b bytes ih =>
    rw [decodeFrom, ih, decodeFrom, ih (d.feed b).2 ((d.feed b).1.reverse ++ [])]
    simp

end Sprig.Utf8
