import Sprig.Json.Basic

/-!
# Reading JSON

The grammar is strict: white space is space, tab, line feed and carriage return, nothing may
follow the value, and a control character in a string must be escaped. Half of a surrogate pair
may be written as an escape.

The functions for values carry an allowance that each call lessens by one. A call either reads at
least one unit or hands the text on once, so twice the length of the text is enough.
-/

namespace Sprig.Json

/-- The white space between the tokens of a document. -/
def isSpace (u : CodeUnit) : Bool := u == 0x20 || u == 0x09 || u == 0x0A || u == 0x0D

/-- What follows the white space that a text starts with. -/
def skipSpace (t : Text) : Text := t.dropWhile isSpace

/-! ### Strings -/

/-- The value of a hexadecimal digit. -/
def hexDigit? (u : CodeUnit) : Option Nat :=
  if 0x30 ≤ u && u ≤ 0x39 then some (u.toNat - 0x30)
  else if 0x61 ≤ u && u ≤ 0x66 then some (u.toNat - 0x57)
  else if 0x41 ≤ u && u ≤ 0x46 then some (u.toNat - 0x37)
  else none

/-- The unit that four hexadecimal digits name. -/
def hexUnit? (a b c d : CodeUnit) : Option CodeUnit := do
  let a ← hexDigit? a
  let b ← hexDigit? b
  let c ← hexDigit? c
  let d ← hexDigit? d
  return (((a * 16 + b) * 16 + c) * 16 + d).toUInt16

/-- The unit that a letter after a backslash stands for. -/
def escaped? (u : CodeUnit) : Option CodeUnit :=
  if u = quote ∨ u = CodeUnit.backslash ∨ u = CodeUnit.slash then some u
  else if u = 0x62 then some 0x08
  else if u = 0x66 then some 0x0C
  else if u = 0x6E then some 0x0A
  else if u = 0x72 then some 0x0D
  else if u = 0x74 then some 0x09
  else none

/-- Reads the rest of a string after the units that have been read so far, which are held in
reverse: the whole string, and what follows it. -/
def readString? : (read : Text) → Text → Option (Text × Text)
  | _, [] => none
  | read, u :: rest =>
    if u = quote then some (read.reverse, rest)
    else if u = CodeUnit.backslash then
      match rest with
      | [] => none
      | e :: rest =>
        if e = 0x75 then
          match rest with
          | a :: b :: c :: d :: rest =>
            match hexUnit? a b c d with
            | some v => readString? (v :: read) rest
            | none => none
          | _ => none
        else
          match escaped? e with
          | some v => readString? (v :: read) rest
          | none => none
    else if u < 0x20 then none
    else readString? (u :: read) rest

/-! ### Numbers -/

/-- Reads the digits after a point, of which there has to be one. -/
def readFraction? : Text → Option (Text × Text)
  | [] => some ([], [])
  | u :: rest =>
    if u = CodeUnit.point then
      let digits := Text.leadingDigits rest
      if digits.isEmpty then none else some (digits, Text.afterDigits rest)
    else some ([], u :: rest)

/-- Reads a number after its sign: no leading zeros, and no other sign. -/
def readUnsigned? (negative : Bool) (t : Text) : Option (Decimal × Text) := do
  let whole := Text.leadingDigits t
  if whole.isEmpty || (whole.head? = some 0x30 && 1 < whole.length) then none
  else
    let (fraction, rest) ← readFraction? (Text.afterDigits t)
    let (exponent, rest) ← Text.takeExponent? rest
    return (.ofParts negative whole fraction exponent, rest)

/-- Reads a number, the only sign of which is a minus. -/
def readNumber? : Text → Option (Decimal × Text)
  | [] => none
  | u :: rest =>
    if u = CodeUnit.minus then readUnsigned? true rest else readUnsigned? false (u :: rest)

/-! ### Values -/

/-- What follows a word, if the text starts with it. -/
def afterWord? (word t : Text) : Option Text :=
  if word.isPrefixOf t then some (t.drop word.length) else none

mutual

/-- Reads a value at the start of a text: the value, and what follows it. -/
def readValue? : (allowance : Nat) → Text → Option (Json × Text)
  | 0, _ | _, [] => none
  | allowance + 1, u :: rest =>
    if u = quote then (readString? [] rest).map fun (t, rest) => (.string t, rest)
    else if u = openBrace then
      match skipSpace rest with
      | [] => none
      | v :: rest =>
        if v = closeBrace then some (.object [], rest)
        else (readFields? allowance [] (v :: rest)).map fun (fields, rest) => (.object fields, rest)
    else if u = CodeUnit.openBracket then
      match skipSpace rest with
      | [] => none
      | v :: rest =>
        if v = CodeUnit.closeBracket then some (.array [], rest)
        else (readItems? allowance [] (v :: rest)).map fun (items, rest) => (.array items, rest)
    else if u = 0x74 then (afterWord? "rue" rest).map fun rest => (.bool true, rest)
    else if u = 0x66 then (afterWord? "alse" rest).map fun rest => (.bool false, rest)
    else if u = 0x6E then (afterWord? "ull" rest).map fun rest => (.null, rest)
    else (readNumber? (u :: rest)).map fun (value, rest) => (.number value, rest)

/-- Reads the items of an array to its end, after those read so far, which are held in reverse. -/
def readItems? : (allowance : Nat) → (read : List Json) → Text → Option (List Json × Text)
  | 0, _, _ => none
  | allowance + 1, read, t =>
    match readValue? allowance t with
    | none => none
    | some (value, rest) =>
      match skipSpace rest with
      | [] => none
      | u :: rest =>
        if u = comma then readItems? allowance (value :: read) (skipSpace rest)
        else if u = CodeUnit.closeBracket then some ((value :: read).reverse, rest)
        else none

/-- Reads the fields of an object to its end, after those read so far. -/
def readFields? : (allowance : Nat) → (read : List (Text × Json)) → Text →
    Option (List (Text × Json) × Text)
  | 0, _, _ | _, _, [] => none
  | allowance + 1, read, q :: t =>
    if q = quote then
      match readString? [] t with
      | none => none
      | some (key, rest) =>
        match skipSpace rest with
        | [] => none
        | u :: rest =>
          if u = CodeUnit.colon then
            match readValue? allowance (skipSpace rest) with
            | none => none
            | some (value, rest) =>
              match skipSpace rest with
              | [] => none
              | u :: rest =>
                if u = comma then
                  readFields? allowance (setField key value read) (skipSpace rest)
                else if u = closeBrace then some (setField key value read, rest)
                else none
          else none
    else none

end

/-- The value that a document holds. -/
def ofText? (t : Text) : Option Json :=
  match readValue? (2 * t.length + 1) (skipSpace t) with
  | some (value, rest) => if (skipSpace rest).isEmpty then some value else none
  | none => none

end Sprig.Json
