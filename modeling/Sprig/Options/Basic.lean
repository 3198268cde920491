import Sprig.Error
import Sprig.Options.Problem

/-!
# Options

The options of an interpreter. Overrides are an object whose only field, if any, is `maxDepth`;
what they leave open has its default. The issues of overrides are those that the validator of
another library documents, in its order.
-/

namespace Sprig

/-- The options of an interpreter. -/
structure Options where
  /-- The deepest nesting of expressions that is evaluated. -/
  maxDepth : Nat := 1000
  deriving DecidableEq, Repr

/-- The key of the nesting limit. -/
def maxDepthKey : Text := "maxDepth"

/-- A problem with the value of a field, or with a whole object. -/
structure Issue where
  field : Option Text
  problem : Problem
  deriving DecidableEq, Repr

/-- An issue as a configuration error shows it. -/
def Issue.describe (i : Issue) : Text :=
  i.field.getD "(root)" ++ (": " : Text) ++ i.problem.describe

/-- An error with the options of a source. -/
def Error.ofIssues (source : Text) (issues : List Issue) : Error :=
  .configuration source (issues.map Issue.describe)

namespace Options

/-- The issues of a value as overrides. As the validator documents it, a value that is no object has
no other issue; the fields that are known are checked first, and then all keys that are not known
make one issue. -/
def issues : Json → List Issue
  | .object fields =>
    let ofLimit :=
      ((fields.lookup maxDepthKey).elim [] Json.depthProblems).map fun p => ⟨some maxDepthKey, p⟩
    let unknown := Json.orderKeys ((fields.map Prod.fst).filter fun key => key ≠ maxDepthKey)
    ofLimit ++ if unknown.isEmpty then [] else [⟨none, .unknownKeys unknown⟩]
  | value => [⟨none, .wrongType .object value.valueType⟩]

/-- The nesting limit in overrides, if they have one. -/
def depthOverride? (overrides : Json) : Except (List Issue) (Option Nat) :=
  let found := issues overrides
  if found.isEmpty then .ok ((overrides.field? maxDepthKey).map Json.toDepth) else .error found

/-- The options with overrides from a source. -/
def override (source : Text) (overrides : Json) (defaults : Options) : Except Error Options :=
  match depthOverride? overrides with
  | .error found => .error (.ofIssues source found)
  | .ok limit => .ok { defaults with maxDepth := limit.getD defaults.maxDepth }

/-- The options of a caller's overrides; `null` stands for none. -/
def ofOverrides (overrides : Json) : Except Error Options :=
  match overrides with
  | .null => .ok {}
  | overrides => override "interpreter options" overrides {}

/-- Options as overrides. -/
def toJson (o : Options) : Json := .object [(maxDepthKey, .int o.maxDepth)]

end Options

end Sprig
