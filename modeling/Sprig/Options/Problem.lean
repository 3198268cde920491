import Sprig.Json.Basic
import Sprig.Number.Binary64

/-!
# Problems with values

What can be wrong with a value that a user supplies, and the check of a nesting limit, which has
to be a positive integer up to `2000`.

Values are checked by a validator of another library. What is here follows what that library
documents: which checks there are, that all of them are made except where the type is wrong, the
order of the problems, and the texts of their messages.
-/

namespace Sprig

/-- The types that problems speak of. -/
inductive ValueType where
  | string
  | number
  | nan
  | boolean
  | null
  | array
  | object
  deriving DecidableEq, Repr

/-- The name of a type. -/
def ValueType.name : ValueType → Text
  | string => "string"
  | number => "number"
  | nan => "nan"
  | boolean => "boolean"
  | null => "null"
  | array => "array"
  | object => "object"

/-- The type of a value. -/
def Json.valueType : Json → ValueType
  | null => .null
  | bool _ => .boolean
  | number _ => .number
  | string _ => .string
  | array _ => .array
  | object _ => .object

/-- What is wrong with a value. -/
inductive Problem where
  | required
  | wrongType (expected received : ValueType)
  | notInteger
  | notPositive
  | greaterThan (bound : Int)
  | unknownKeys (keys : List Text)
  | notJson (reason : Text)
  deriving DecidableEq, Repr

namespace Problem

/-- A problem as messages show it: in the words of the validator, but for a text that is no
document, where the parser gives its reason. -/
def describe : Problem → Text
  | required => "Required"
  | wrongType expected received =>
    ("Expected " : Text) ++ expected.name ++ (", received " : Text) ++ received.name
  | notInteger => "Expected integer, received float"
  | notPositive => "Number must be greater than 0"
  | greaterThan bound => ("Number must be less than or equal to " : Text) ++ Text.ofInt bound
  | unknownKeys keys =>
    ("Unrecognized key(s) in object: " : Text) ++
      List.intercalate (", " : Text) (keys.map Text.quoted)
  | notJson reason => ("not valid JSON (" : Text) ++ reason ++ (")" : Text)

end Problem

/-- The greatest nesting limit. -/
def maxDepthLimit : Nat := 2000

/-- What is wrong with a number as a nesting limit. The validator makes the three checks of a number
in this order, and tells of each that fails. -/
def Binary64.depthProblems (x : Binary64) : List Problem :=
  if x = .nan then [.wrongType .number .nan]
  else
    (if x.isInteger then [] else [.notInteger]) ++
      (if x.isPositive then [] else [.notPositive]) ++
      (if x.isAtMost maxDepthLimit then [] else [.greaterThan maxDepthLimit])

/-- What is wrong with a value as a nesting limit. The validator checks nothing else of a value of
another type. -/
def Json.depthProblems : Json → List Problem
  | number value => (Binary64.ofDecimal value).depthProblems
  | value => [.wrongType .number value.valueType]

/-- The nesting limit of a number without problems. -/
def Binary64.toDepth (x : Binary64) : Nat := x.truncate.toNat

/-- The nesting limit of a value without problems. -/
def Json.toDepth : Json → Nat
  | number value => (Binary64.ofDecimal value).toDepth
  | _ => 0

end Sprig
