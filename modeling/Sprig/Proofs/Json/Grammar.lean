import Sprig.Json.Basic
import Sprig.Token.Lexeme

/-!
# The grammar of JSON

Which texts are documents, and the value that each of them writes, rule by rule and without regard
to how a document is read. White space may stand around every value and every key. A number has no
leading zero and no plus sign before it, a control character in a string has to be escaped, and no
comma may stand after the last item or field.

A key may stand in an object more than once. It counts where it stands first, with the value that
stands last.
-/

namespace Sprig.Json

/-- White space: spaces, tabs, line feeds and carriage returns. -/
def IsSpace (t : Text) : Prop := ∀ u ∈ t, u = 0x20 ∨ u = 0x09 ∨ u = 0x0A ∨ u = 0x0D

/-! ### Strings -/

/-- A hexadecimal digit of a value, in either case. -/
def IsHexDigit (u : CodeUnit) (n : Nat) : Prop :=
  (n < 10 ∧ u.toNat = 0x30 + n) ∨
    (10 ≤ n ∧ n < 16 ∧ (u.toNat = 0x41 + (n - 10) ∨ u.toNat = 0x61 + (n - 10)))

/-- The letters that stand after a backslash for a unit, with the unit. -/
def escapes : List (CodeUnit × CodeUnit) :=
  [(0x22, 0x22), (0x5C, 0x5C), (0x2F, 0x2F), (0x62, 0x08), (0x66, 0x0C), (0x6E, 0x0A), (0x72, 0x0D),
    (0x74, 0x09)]

/-- How a unit is written in a string. -/
inductive WritesUnit : Text → CodeUnit → Prop
  | plain {u : CodeUnit} (hcontrol : 0x20 ≤ u) (hquote : u ≠ quote)
      (hbackslash : u ≠ CodeUnit.backslash) : WritesUnit [u] u
  | escape {e u : CodeUnit} (h : (e, u) ∈ escapes) : WritesUnit [CodeUnit.backslash, e] u
  | code {a b c d : CodeUnit} {i j k l : Nat} (ha : IsHexDigit a i) (hb : IsHexDigit b j)
      (hc : IsHexDigit c k) (hd : IsHexDigit d l) :
      WritesUnit [CodeUnit.backslash, 0x75, a, b, c, d]
        (i * 0x1000 + j * 0x100 + k * 0x10 + l).toUInt16

/-- How the units of a text are written one after the other. -/
inductive WritesUnits : Text → Text → Prop
  | nil : WritesUnits [] []
  | cons {w ws t : Text} {u : CodeUnit} (hu : WritesUnit w u) (ht : WritesUnits ws t) :
      WritesUnits (w ++ ws) (u :: t)

/-- A string, with its quotes. -/
inductive WritesString : Text → Text → Prop
  | quoted {w t : Text} (h : WritesUnits w t) : WritesString (quote :: (w ++ [quote])) t

/-! ### Numbers -/

/-- The digits before a point. -/
def IsWhole (t : Text) : Prop := t.isDigits ∧ (t.head? = some 0x30 → t = [0x30])

/-- A point and the digits after it, or nothing. -/
inductive WritesFraction : Text → Text → Prop
  | none : WritesFraction [] []
  | point {digits : Text} (h : digits.isDigits) : WritesFraction (CodeUnit.point :: digits) digits

/-- A sign, or nothing. -/
inductive WritesSign : Text → Bool → Prop
  | none : WritesSign [] false
  | plus : WritesSign [CodeUnit.plus] false
  | minus : WritesSign [CodeUnit.minus] true

/-- An exponent, or nothing. -/
inductive WritesExponent : Text → Int → Prop
  | none : WritesExponent [] 0
  | mark {e : CodeUnit} {sign digits : Text} {negative : Bool} (he : e = 0x65 ∨ e = 0x45)
      (hsign : WritesSign sign negative) (h : digits.isDigits) :
      WritesExponent (e :: (sign ++ digits)) (if negative then -digits.toNat else digits.toNat)

/-- A number without its sign: the digits of its mantissa, and its exponent. -/
inductive WritesUnsigned (negative : Bool) : Text → Decimal → Prop
  | mk {whole f fraction x : Text} {exponent : Int} (hwhole : IsWhole whole)
      (hfraction : WritesFraction f fraction) (hexponent : WritesExponent x exponent) :
      WritesUnsigned negative (whole ++ (f ++ x))
        ⟨negative, Text.toNat (whole ++ fraction), exponent - fraction.length⟩

/-- A number. -/
inductive WritesNumber : Text → Decimal → Prop
  | unsigned {t : Text} {d : Decimal} (h : WritesUnsigned false t d) : WritesNumber t d
  | minus {t : Text} {d : Decimal} (h : WritesUnsigned true t d) :
      WritesNumber (CodeUnit.minus :: t) d

/-! ### Values -/

/-- Every key once, in the order in which they first stand, with the value that stands last. -/
def latest (fields : List (Text × Json)) : List (Text × Json) :=
  (fields.map Prod.fst).eraseDups.map fun key => (key, (fields.reverse.lookup key).getD null)

mutual

/-- A value. -/
inductive WritesValue : Text → Json → Prop
  | null : WritesValue "null" null
  | bool (b : Bool) : WritesValue (if b then "true" else "false" : String) (bool b)
  | number {t : Text} {d : Decimal} (h : WritesNumber t d) : WritesValue t (number d)
  | string {w t : Text} (h : WritesString w t) : WritesValue w (string t)
  | emptyArray {s : Text} (hs : IsSpace s) :
      WritesValue (CodeUnit.openBracket :: (s ++ [CodeUnit.closeBracket])) (array [])
  | array {t : Text} {items : List Json} (h : WritesItems t items) :
      WritesValue (CodeUnit.openBracket :: (t ++ [CodeUnit.closeBracket])) (array items)
  | emptyObject {s : Text} (hs : IsSpace s) :
      WritesValue (openBrace :: (s ++ [closeBrace])) (object [])
  | object {t : Text} {fields : List (Text × Json)} (h : WritesFields t fields) :
      WritesValue (openBrace :: (t ++ [closeBrace])) (object (latest fields))

/-- A value with white space around it. -/
inductive WritesElement : Text → Json → Prop
  | mk {s t s' : Text} {v : Json} (hs : IsSpace s) (h : WritesValue t v) (hs' : IsSpace s') :
      WritesElement (s ++ (t ++ s')) v

/-- The items of an array. -/
inductive WritesItems : Text → List Json → Prop
  | last {t : Text} {v : Json} (h : WritesElement t v) : WritesItems t [v]
  | cons {t ts : Text} {v : Json} {items : List Json} (h : WritesElement t v)
      (hitems : WritesItems ts items) : WritesItems (t ++ comma :: ts) (v :: items)

/-- A key with white space around it, and its value. -/
inductive WritesField : Text → Text × Json → Prop
  | mk {s w s' t key : Text} {v : Json} (hs : IsSpace s) (hkey : WritesString w key)
      (hs' : IsSpace s') (h : WritesElement t v) :
      WritesField (s ++ (w ++ (s' ++ CodeUnit.colon :: t))) (key, v)

/-- The fields of an object. -/
inductive WritesFields : Text → List (Text × Json) → Prop
  | last {t : Text} {field : Text × Json} (h : WritesField t field) : WritesFields t [field]
  | cons {t ts : Text} {field : Text × Json} {fields : List (Text × Json)} (h : WritesField t field)
      (hfields : WritesFields ts fields) : WritesFields (t ++ comma :: ts) (field :: fields)

end

/-- The text is a document, and the value is what it holds. -/
def IsDocument (t : Text) (v : Json) : Prop := WritesElement t v

end Sprig.Json
