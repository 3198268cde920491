import Sprig.Json.Basic

/-!
# Writing JSON

Documents with two spaces of indentation: every item and every field has a line of its own, and an
empty array or object is closed where it opens. Quotes, backslashes and control characters are
escaped, and so is half of a surrogate pair that stands alone; everything else stands for itself.
-/

namespace Sprig.Json

/-! ### Strings -/

/-- A hexadecimal digit, in lower case. -/
def hexDigit (n : Nat) : CodeUnit :=
  if n < 10 then (0x30 + n).toUInt16 else (0x57 + n).toUInt16

/-- A unit as an escape of four hexadecimal digits. -/
def escapeUnit (v : Nat) : Text :=
  [0x5C, 0x75, hexDigit (v / 0x1000 % 16), hexDigit (v / 0x100 % 16), hexDigit (v / 0x10 % 16),
    hexDigit (v % 16)]

/-- A code point as it stands in a string. -/
def escapeScalar (v : Nat) : Text :=
  if v = 0x22 then "\\\""
  else if v = 0x5C then "\\\\"
  else if v = 0x08 then "\\b"
  else if v = 0x0C then "\\f"
  else if v = 0x0A then "\\n"
  else if v = 0x0D then "\\r"
  else if v = 0x09 then "\\t"
  else if v < 0x20 || Text.isSurrogate v then escapeUnit v
  else CodeUnit.ofScalar v

/-- A text as a string of a document. -/
def renderString (t : Text) : Text := [0x22] ++ t.scalars.flatMap escapeScalar ++ [0x22]

/-! ### Values -/

/-- The start of a line at a depth. -/
def newLine (depth : Nat) : Text := CodeUnit.lineFeed :: List.replicate (2 * depth) CodeUnit.space

mutual

/-- A value inside `depth` arrays and objects. -/
def renderAt (depth : Nat) : Json → Text
  | null => "null"
  | bool true => "true"
  | bool false => "false"
  | number value => value.toText
  | string t => renderString t
  | array [] => "[]"
  | array (item :: items) =>
    [0x5B] ++ newLine (depth + 1) ++ renderAt (depth + 1) item ++ renderItems (depth + 1) items ++
      newLine depth ++ [0x5D]
  | object [] => [0x7B, 0x7D]
  | object ((key, value) :: fields) =>
    [0x7B] ++ newLine (depth + 1) ++ renderString key ++ (": " : Text) ++
      renderAt (depth + 1) value ++ renderFields (depth + 1) fields ++ newLine depth ++ [0x7D]

/-- The items of an array after the first. -/
def renderItems (depth : Nat) : List Json → Text
  | [] => []
  | item :: items =>
    [0x2C] ++ newLine depth ++ renderAt depth item ++ renderItems depth items

/-- The fields of an object after the first. -/
def renderFields (depth : Nat) : List (Text × Json) → Text
  | [] => []
  | (key, value) :: fields =>
    [0x2C] ++ newLine depth ++ renderString key ++ (": " : Text) ++ renderAt depth value ++
      renderFields depth fields

end

/-- The document of a value. -/
def render (value : Json) : Text := renderAt 0 value

end Sprig.Json
