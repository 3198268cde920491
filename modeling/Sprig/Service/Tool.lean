import Sprig.Evaluation.Expression
import Sprig.Format.Basic
import Sprig.Json.Printer
import Sprig.Options.Basic

/-!
# Tools

Evaluation, formatting and lexing of one expression for other programs. An answer is a JSON
document: an object with `success` and either the result, or the kind and the message of the
error.
-/

namespace Sprig

/-- A token as a value. -/
def Token.toJson (t : Token) : Json :=
  .object [("kind", .string t.kind.name), ("text", .string t.text), ("position", .int t.position)]

namespace Service

/-- The answer of a tool. -/
structure ToolAnswer where
  isError : Bool
  document : Json

namespace ToolAnswer

/-- The text of an answer. -/
def text (a : ToolAnswer) : Text := a.document.render

/-- The answer with a result. -/
def success (key : Text) (value : Json) : ToolAnswer :=
  ⟨false, .object [("success", .bool true), (key, value)]⟩

/-- The answer with an error. -/
def failure (e : Error) : ToolAnswer :=
  ⟨true, .object [("success", .bool false), ("errorKind", .string e.kind.label),
    ("error", .string e.message)]⟩

/-- The answer of an outcome. -/
def ofOutcome {α : Type} (key : Text) (value : α → Json) : Except Error α → ToolAnswer
  | .ok a => success key (value a)
  | .error e => failure e

end ToolAnswer

/-- The overrides that a given nesting limit makes. -/
def limitOverrides (maxDepth : Option Json) : Json :=
  .object (maxDepth.elim [] fun value => [(maxDepthKey, value)])

/-- Evaluates an expression, with a nesting limit or the default one. -/
def evaluateTool (expression : Text) (maxDepth : Option Json) : ToolAnswer :=
  .ofOutcome "value" Json.int <|
    (Options.ofOverrides (limitOverrides maxDepth)).bind fun o => evaluate o.maxDepth expression

/-- Formats an expression. -/
def formatTool (expression : Text) : ToolAnswer :=
  .ofOutcome "formatted" Json.string ((Format.expression expression).mapError .malformed)

/-- Lists the tokens of an expression. -/
def tokenizeTool (expression : Text) : ToolAnswer :=
  .ofOutcome "tokens" (fun tokens => .array (tokens.map Token.toJson))
    (expression.tokens.mapError .malformed)

end Service

end Sprig
