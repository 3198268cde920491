import Sprig.Number.Decimal

/-!
# JSON values

Numbers are kept as they are written. The fields of an object stand in the order in which their
keys first appeared; a key that appears again replaces the value.
-/

namespace Sprig

/-- A JSON value. -/
inductive Json where
  | null
  | bool (value : Bool)
  | number (value : Decimal)
  | string (value : Text)
  | array (items : List Json)
  | object (fields : List (Text × Json))
  deriving Repr, Inhabited

namespace Json

abbrev quote : CodeUnit := 0x22
abbrev comma : CodeUnit := 0x2C
abbrev openBrace : CodeUnit := 0x7B
abbrev closeBrace : CodeUnit := 0x7D

/-- An integer. -/
def int (n : Int) : Json := number (.ofInt n)

/-- A text of a string literal. -/
def text (s : String) : Json := string s

instance : Coe Text Json := ⟨string⟩

/-- Sets a field, in its old place if there is one. -/
def setField (key : Text) (value : Json) : List (Text × Json) → List (Text × Json)
  | [] => [(key, value)]
  | field :: fields =>
    if field.1 = key then (key, value) :: fields else field :: setField key value fields

/-- The value of a field of an object. -/
def field? (key : Text) : Json → Option Json
  | object fields => fields.lookup key
  | _ => none

/-- The text of a string. -/
def asText? : Json → Option Text
  | string t => some t
  | _ => none

/-- The items of an array. -/
def asArray? : Json → Option (List Json)
  | array items => some items
  | _ => none

/-- The fields of an object. -/
def asObject? : Json → Option (List (Text × Json))
  | object fields => some fields
  | _ => none

/-! ### The order of keys -/

/-- The number that a key is the plain decimal form of, if it is at most `2 ^ 32 - 2`. -/
def indexOf? (key : Text) : Option Nat :=
  let n := Text.toNat key
  if key.all CodeUnit.isDigit && key = Text.ofNat n && n ≤ 4294967294 then some n else none

/-- Keys in the order in which an object lists them: first those that are numbers, ascending, then
the others as they appeared. The validator of options goes through the keys in this order. -/
def orderKeys (keys : List Text) : List Text :=
  ((keys.filterMap indexOf?).mergeSort (· ≤ ·)).map Text.ofNat ++
    keys.filter fun key => (indexOf? key).isNone

end Json

end Sprig
