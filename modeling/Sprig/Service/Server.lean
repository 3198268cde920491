import Sprig.Service.Call
import Sprig.Service.Resource

/-!
# The tool server

The answers to the requests of the Model Context Protocol: the tools and their calls, and the
grammar reference as the only resource.
-/

namespace Sprig.Service

/-- The text of a parameter, empty if there is none. -/
def textParameter (parameters : Json) (key : Text) : Text :=
  ((parameters.field? key).bind Json.asText?).getD []

/-- The answer to a request whose parameters are checked, with the grammar reference if it can be
read. -/
def Method.answer (method : Method) (grammar : Option Text) (parameters : Json) :
    Except RequestError Json :=
  match method with
  | ping => .ok (.object [])
  | listTools => .ok (.object [("tools", .array (Tool.all.map Tool.toJson))])
  | callTool =>
    .ok <| call (textParameter parameters nameKey)
      ((parameters.field? argumentsKey).getD (.object []))
  | listResources => .ok (.object [("resources", resources)])
  | listTemplates => .ok (.object [("resourceTemplates", .array [])])
  | readResource => Service.readResource grammar (textParameter parameters addressKey)

/-- The answer to a request, with the grammar reference if it can be read. -/
def answer (grammar : Option Text) (method : Text) (parameters : Option Json) :
    Except RequestError Json :=
  match Method.ofName? method with
  | none => .error .unknownMethod
  | some method =>
    let faults := method.faults parameters
    if parameters.any asksForTask then .error (.taskRefused method.name)
    else if faults.isEmpty then method.answer grammar (parameters.getD (.object []))
    else .error (.ofFaults faults)

end Sprig.Service
