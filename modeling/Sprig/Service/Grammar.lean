import Sprig.Text.Lines

/-!
# The grammar reference

The grammar of expressions as a text for readers.
-/

namespace Sprig.Service

/-- The lines of the grammar reference. -/
def grammarLines : List Text :=
  ["(* Sprig expression grammar.",
    "   Every separator is exactly one space character. Tabs and newlines are",
    "   not valid inside an expression. *)",
    "",
    "program     = [ \" \" ] , expression ;",
    "",
    "expression  = integer",
    "            | identifier",
    "            | add_form",
    "            | mult_form",
    "            | let_form ;",
    "",
    "add_form    = \"(\" , \"add\" , \" \" , expression , \" \" , expression , \")\" ;",
    "mult_form   = \"(\" , \"mult\" , \" \" , expression , \" \" , expression , \")\" ;",
    "",
    "(* Each value sees the bindings before it. An identifier directly followed",
    "   by \")\" is the body. *)",
    "let_form    = \"(\" , \"let\" , \" \" , \x7b identifier , \" \" , expression , \" \" \x7d ,",
    "              expression , \")\" ;",
    "",
    "integer     = [ \"-\" ] , digit , \x7b digit \x7d ;       (* signed 32-bit *)",
    "identifier  = letter , \x7b letter | digit \x7d ;",
    "",
    "letter      = \"a\" | ... | \"z\" | \"A\" | ... | \"Z\" ;",
    "digit       = \"0\" | ... | \"9\" ;"]

/-- The grammar reference. -/
def grammarReference : Text := Text.unlines grammarLines

end Sprig.Service
