import Sprig.Service.Grammar
import Sprig.Service.Request
import Sprig.Url.Reader

/-!
# Resources

The grammar reference is the only resource. An address is brought to its written form before it is
compared, and it is shown in that form.
-/

namespace Sprig.Service

/-- The address of the grammar reference. -/
def grammarAddress : Text := "sprig://grammar"

/-- What stands for the grammar reference where it cannot be read. -/
def missingGrammar : Text := "(grammar reference not found -- expected at grammar/sprig.ebnf)"

/-- The resources as they are listed. -/
def resources : Json :=
  .array [.object [("uri", .string grammarAddress), ("name", .text "grammar-reference"),
    ("description", .text "EBNF grammar of the Sprig expression language."),
    ("mimeType", .text "text/plain")]]

/-- The resource of an address, with the grammar reference if it can be read. -/
def readResource (grammar : Option Text) (address : Text) : Except RequestError Json :=
  match Url.ofText? address with
  | none => .error (.internal "Invalid URL")
  | some url =>
    if url.toText = grammarAddress then
      .ok <| .object [("contents", .array [.object [("uri", .string grammarAddress),
        ("text", .string (grammar.getD missingGrammar)), ("mimeType", .text "text/plain")]])]
    else
      .error <| .invalidParameters <|
        ("Resource " : Text) ++ url.toText ++ (" not found" : Text)

end Sprig.Service
