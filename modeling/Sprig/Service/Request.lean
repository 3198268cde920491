import Sprig.Json.Printer
import Sprig.Options.Problem

/-!
# Requests

The methods that are served, and the check of their parameters: a method that needs a parameter
needs an object of parameters, and every parameter has a type. Any request may ask to be run as a
task in the background; such a request is refused.
-/

namespace Sprig.Service

/-! ### Errors -/

/-- An error that is answered instead of a result. -/
structure RequestError where
  code : Int
  message : Text
  deriving DecidableEq, Repr

namespace RequestError

/-- A request that cannot be carried out. -/
def internal (message : Text) : RequestError := ⟨-32603, message⟩

/-- A request for something that is not there. -/
def invalidParameters (message : Text) : RequestError :=
  ⟨-32602, ("MCP error -32602: " : Text) ++ message⟩

/-- A request of a method that is not served. -/
def unknownMethod : RequestError := ⟨-32601, "Method not found"⟩

/-- A request of a method to be run as a task. -/
def taskRefused (method : Text) : RequestError :=
  .internal <|
    ("Server does not support task creation (required for " : Text) ++ method ++ (")" : Text)

end RequestError

/-! ### Methods -/

/-- The methods that are served. -/
inductive Method where
  | ping
  | listTools
  | callTool
  | listResources
  | listTemplates
  | readResource
  deriving DecidableEq, Repr

/-- The types of parameters. -/
inductive ParameterType where
  | text
  | number
  | fields
  deriving DecidableEq, Repr

/-- A parameter of a method. -/
structure Parameter where
  key : Text
  type : ParameterType
  isRequired : Bool
  deriving DecidableEq, Repr

/-- The key of a tool's name. -/
def nameKey : Text := "name"

/-- The key of a tool's arguments. -/
def argumentsKey : Text := "arguments"

/-- The key of an address. -/
def addressKey : Text := "uri"

/-- The key of a task. -/
def taskKey : Text := "task"

/-- The time that a task is kept for. -/
def lifetime : Parameter := ⟨"ttl", .number, false⟩

namespace Method

/-- All methods. -/
def all : List Method :=
  [ping, listTools, callTool, listResources, listTemplates, readResource]

/-- The name of a method. -/
def name : Method → Text
  | ping => "ping"
  | listTools => "tools/list"
  | callTool => "tools/call"
  | listResources => "resources/list"
  | listTemplates => "resources/templates/list"
  | readResource => "resources/read"

/-- The method of a name. -/
def ofName? (t : Text) : Option Method := all.find? fun method => method.name == t

/-- The parameters of a method. -/
def parameters : Method → List Parameter
  | ping => []
  | listTools | listResources | listTemplates => [⟨"cursor", .text, false⟩]
  | callTool => [⟨nameKey, .text, true⟩, ⟨argumentsKey, .fields, false⟩]
  | readResource => [⟨addressKey, .text, true⟩]

end Method

/-! ### Parameters -/

/-- A value that is missing or of a wrong type: the keys that lead to it, the type that is
expected, and the one that was seen. -/
structure ParameterFault where
  keys : List Text
  expected : Text
  received : Option ValueType
  deriving DecidableEq, Repr

/-- The key of the parameters in a request. -/
def parametersKey : Text := "params"

namespace ParameterType

/-- The name of a type. -/
def name : ParameterType → Text
  | text => "string"
  | number => "number"
  | fields => "record"

/-- Whether a value is of a type. -/
def accepts : ParameterType → Json → Bool
  | text, .string _ => true
  | number, .number _ => true
  | fields, .object _ => true
  | _, _ => false

end ParameterType

namespace ParameterFault

/-- A fault as messages show it. -/
def toJson (fault : ParameterFault) : Json :=
  .object [("expected", .string fault.expected), ("code", .text "invalid_type"),
    ("path", .array (fault.keys.map .string)),
    ("message", .string (("Invalid input: expected " : Text) ++ fault.expected ++
      (", received " : Text) ++ fault.received.elim ("undefined" : Text) ValueType.name))]

end ParameterFault

/-- What is wrong with a parameter among the values that keys lead to. -/
def Parameter.faults (parameter : Parameter) (keys : List Text) (values : Json) :
    List ParameterFault :=
  let keys := keys ++ [parameter.key]
  match values.field? parameter.key with
  | none => if parameter.isRequired then [⟨keys, parameter.type.name, none⟩] else []
  | some value =>
    if parameter.type.accepts value then []
    else [⟨keys, parameter.type.name, some value.valueType⟩]

/-- What is wrong with the task that parameters tell of. -/
def taskFaults (values : Json) : List ParameterFault :=
  let keys := [parametersKey, taskKey]
  match values.field? taskKey with
  | none => []
  | some (.object fields) => lifetime.faults keys (.object fields)
  | some value => [⟨keys, "object", some value.valueType⟩]

/-- Whether parameters ask for a task, and rightly so. -/
def asksForTask (values : Json) : Bool :=
  (values.field? taskKey).isSome && (taskFaults values).isEmpty

/-- What is wrong with the parameters of a request, which may be missing. Only calls of tools look
at a task. -/
def Method.faults (method : Method) : Option Json → List ParameterFault
  | some (.object values) =>
    (if method = callTool then taskFaults (.object values) else []) ++
      method.parameters.flatMap fun p => p.faults [parametersKey] (.object values)
  | some value => [⟨[parametersKey], "object", some value.valueType⟩]
  | none =>
    if method.parameters.any Parameter.isRequired then [⟨[parametersKey], "object", none⟩] else []

/-- The error of a request with faults. -/
def RequestError.ofFaults (faults : List ParameterFault) : RequestError :=
  .internal (Json.array (faults.map ParameterFault.toJson)).render

end Sprig.Service
