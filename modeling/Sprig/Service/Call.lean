import Sprig.Service.Tool

/-!
# Calls of tools

The tools that are offered, what they take, and the results of calls. The arguments of a call are
checked before the tool sees them; keys that a tool does not know are ignored, and a call without
arguments is one without fields.
-/

namespace Sprig.Service

/-! ### Tools -/

/-- The tools that are offered. -/
inductive Tool where
  | evaluate
  | format
  | tokenize
  deriving DecidableEq, Repr

/-- The key of the expression among the arguments. -/
def expressionKey : Text := "expression"

namespace Tool

/-- All tools, in the order in which they are listed. -/
def all : List Tool := [evaluate, format, tokenize]

/-- The name of a tool. -/
def name : Tool → Text
  | evaluate => "sprig_evaluate"
  | format => "sprig_format"
  | tokenize => "sprig_tokenize"

/-- The tool of a name. -/
def ofName? (t : Text) : Option Tool := all.find? fun tool => tool.name == t

/-- What a tool does. -/
def description : Tool → Text
  | evaluate =>
    ("Evaluate a Sprig expression to a 32-bit integer. Forms: (add a b), (mult a b), " : Text) ++
      ("(let name value ... body). Sub-expressions are separated by exactly one space." : Text)
  | format =>
    "Rewrite a Sprig expression's whitespace into the canonical single-space form."
  | tokenize => "List the tokens of a Sprig expression with their kinds and positions."

/-- The description of a tool's expression. -/
def expressionDescription : Tool → Text
  | evaluate => "A single Sprig expression, e.g. (let x 2 (add x 1))"
  | format | tokenize => "A single Sprig expression"

/-- The description of the nesting limit. -/
def limitDescription : Text :=
  ("Maximum expression nesting (default 1000, at most " : Text) ++ Text.ofNat maxDepthLimit ++
    (")" : Text)

/-- The arguments that a tool takes. -/
def properties (tool : Tool) : List (Text × Json) :=
  (expressionKey, .object [("type", .text "string"),
      ("description", .string tool.expressionDescription)]) ::
    if tool = evaluate then
      [(maxDepthKey, .object [("type", .text "integer"), ("exclusiveMinimum", .int 0),
        ("maximum", .int maxDepthLimit), ("description", .string limitDescription)])]
    else []

/-- A tool as it is listed. -/
def toJson (tool : Tool) : Json :=
  .object [("name", .string tool.name), ("description", .string tool.description),
    ("properties", .object tool.properties), ("required", .array [.string expressionKey])]

/-- What is wrong with the arguments of a call. -/
def issues (tool : Tool) (arguments : Json) : List Issue :=
  let expression : List Problem :=
    match arguments.field? expressionKey with
    | none => [.required]
    | some (.string _) => []
    | some value => [.wrongType .string value.valueType]
  let limit : List Problem :=
    if tool = evaluate then (arguments.field? maxDepthKey).elim [] Json.depthProblems else []
  (expression.map fun p => ⟨some expressionKey, p⟩) ++ limit.map fun p => ⟨some maxDepthKey, p⟩

/-- The answer to a call with checked arguments. -/
def run (tool : Tool) (arguments : Json) : ToolAnswer :=
  let expression := ((arguments.field? expressionKey).bind Json.asText?).getD []
  match tool with
  | evaluate => evaluateTool expression (arguments.field? maxDepthKey)
  | format => formatTool expression
  | tokenize => tokenizeTool expression

end Tool

/-! ### Results -/

/-- Names that are taken without being offered: a call of one is told that its tool is disabled. -/
def reservedNames : List Text :=
  ["__defineGetter__", "__defineSetter__", "__lookupGetter__", "__lookupSetter__", "__proto__",
    "constructor", "hasOwnProperty", "isPrototypeOf", "propertyIsEnumerable", "toLocaleString",
    "toString", "valueOf"]

/-- The ways in which a call fails before a tool sees it. -/
inductive CallError where
  | unknownTool (name : Text)
  | disabledTool (name : Text)
  | invalidArguments (tool : Tool) (issues : List Issue)

/-- An issue as the answer to a call shows it. -/
def describeIssue (i : Issue) : Text :=
  i.problem.describe ++ i.field.elim [] fun field => (" at " : Text) ++ field

/-- The message of a failed call. -/
def CallError.message : CallError → Text
  | unknownTool name => ("MCP error -32602: Tool " : Text) ++ name ++ (" not found" : Text)
  | disabledTool name => ("MCP error -32602: Tool " : Text) ++ name ++ (" disabled" : Text)
  | invalidArguments tool issues =>
    ("MCP error -32602: Input validation error: Invalid arguments for tool " : Text) ++
      tool.name ++ (": " : Text) ++
      List.intercalate [CodeUnit.lineFeed] (issues.map describeIssue)

/-- The answer of the tool of a name. -/
def callTool (name : Text) (arguments : Json) : Except CallError ToolAnswer :=
  match Tool.ofName? name with
  | some tool =>
    let issues := tool.issues arguments
    if issues.isEmpty then .ok (tool.run arguments) else .error (.invalidArguments tool issues)
  | none => .error (if name ∈ reservedNames then .disabledTool name else .unknownTool name)

/-- The result of a call: a text, and a mark if it tells of an error. -/
def callResult (isError : Bool) (text : Text) : Json :=
  .object <|
    ("content", .array [.object [("type", .text "text"), ("text", .string text)]]) ::
      if isError then [("isError", .bool true)] else []

/-- The result of a call of the tool of a name. -/
def call (name : Text) (arguments : Json) : Json :=
  match callTool name arguments with
  | .ok answer => callResult answer.isError answer.text
  | .error e => callResult true e.message

end Sprig.Service
