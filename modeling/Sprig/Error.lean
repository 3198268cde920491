import Sprig.Operator
import Sprig.Token.Basic

/-!
# Errors

What can go wrong, as causes. The wording is in `SyntaxError.description` and `Error.message`;
the place, the token that was required and the token that was seen instead are read off the cause
by `SyntaxError.position?`, `SyntaxError.expected?` and `SyntaxError.found?`.
-/

namespace Sprig

/-! ### Syntax errors -/

/-- A place in an expression where one kind of token is required. -/
inductive Place where
  | afterOperator (op : Operator)
  | betweenOperands (op : Operator)
  | afterSecondOperand (op : Operator)
  | afterLet
  | afterValue (name : Text)
  | endOfLet
  deriving DecidableEq, Repr

/-- A place as messages show it. -/
def Place.describe : Place → Text
  | afterOperator op => ("after " : Text) ++ op.name.quoted
  | betweenOperands op => ("between the operands of " : Text) ++ op.name.quoted
  | afterSecondOperand op => ("after the second operand of " : Text) ++ op.name.quoted
  | afterLet => ("after " : Text) ++ letName.quoted
  | afterValue name => ("after the value of " : Text) ++ name.quoted
  | endOfLet => ("to close " : Text) ++ letName.quoted

/-- The ways in which a text fails to be an expression. -/
inductive SyntaxError where
  /-- A unit that no token starts with. -/
  | unexpectedUnit (unit : CodeUnit) (position : Nat)
  /-- An integer that is no 32-bit word. -/
  | literalOutOfRange (literal : Token)
  /-- The input ends where an expression should start. -/
  | unexpectedEnd (found : Token)
  /-- A token that no expression starts with stands where one should start. -/
  | unexpectedToken (found : Token)
  /-- A token other than the required one. -/
  | missing (expected : TokenKind) (place : Place) (found : Token)
  /-- No word follows an opening parenthesis. -/
  | noHead (found : Token)
  /-- No space, and so no value, follows the name that a `let` binds. -/
  | noValue (name : Text) (found : Token)
  /-- A `let` closes before its body. -/
  | noBody (found : Token)
  /-- Something follows the expression. -/
  | trailing (found : Token)
  /-- A report in words of its own, with as much of its place as is known. -/
  | reported (description : Text) (position : Option Int) (expected : Option TokenKind)
      (found : Option Token)
  deriving DecidableEq, Repr

namespace SyntaxError

/-- Where the error is, in units from the start of the text. -/
def position? : SyntaxError → Option Int
  | unexpectedUnit _ position => some position
  | literalOutOfRange token | unexpectedEnd token | unexpectedToken token | missing _ _ token
  | noHead token | noValue _ token | noBody token | trailing token => some token.position
  | reported _ position _ _ => position

/-- The kind of token that was required. -/
def expected? : SyntaxError → Option TokenKind
  | missing kind _ _ => some kind
  | noHead _ => some .identifier
  | noValue _ _ => some .space
  | trailing _ => some .endOfFile
  | reported _ _ expected _ => expected
  | unexpectedUnit .. | literalOutOfRange _ | unexpectedEnd _ | unexpectedToken _ | noBody _ => none

/-- The token that was seen. -/
def found? : SyntaxError → Option Token
  | unexpectedUnit .. | literalOutOfRange _ => none
  | unexpectedEnd token | unexpectedToken token | missing _ _ token | noHead token
  | noValue _ token | noBody token | trailing token => some token
  | reported _ _ _ found => found

/-- What is wrong, without the place. -/
def description : SyntaxError → Text
  | unexpectedUnit unit _ => ("unexpected character " : Text) ++ Text.quoted [unit]
  | literalOutOfRange token =>
    ("integer literal " : Text) ++ token.text.quoted ++ (" does not fit in 32 bits" : Text)
  | unexpectedEnd _ => "unexpected end of input"
  | unexpectedToken found => ("unexpected token " : Text) ++ found.describe
  | missing kind place found =>
    ("expected " : Text) ++ kind.name ++ (" " : Text) ++ place.describe ++ (", found " : Text) ++
      found.describe
  | noHead found =>
    ("expected an operator or keyword after '(', found " : Text) ++ found.describe
  | noValue name found =>
    ("malformed let binding: expected a value expression after " : Text) ++ name.quoted ++
      (", found " : Text) ++ found.describe
  | noBody _ => "let form has no body expression"
  | trailing _ => "extra characters at end of input"
  | reported description _ _ _ => description

/-- The whole message. -/
def message (e : SyntaxError) : Text :=
  let place : Text :=
    match e.position? with
    | some position => (" [position " : Text) ++ Text.ofInt position ++ ("]" : Text)
    | none => []
  ("SyntaxError" : Text) ++ place ++ (": " : Text) ++ e.description

end SyntaxError

/-! ### All errors -/

/-- The errors of the library. -/
inductive Error where
  /-- An error that belongs to no other group. -/
  | general (message : Text)
  /-- The text is no expression. -/
  | malformed (cause : SyntaxError)
  /-- An evaluation that cannot go on, described in words. -/
  | evaluation (description : Text)
  /-- A name without a value. -/
  | unboundName (name : Text)
  /-- A word at the head of a form that is neither an operator nor `let`. -/
  | unknownOperator (name : Text)
  /-- Expressions are nested deeper than the limit. -/
  | tooDeep (limit : Int)
  /-- Options that are not accepted, with their source and what is wrong with each. -/
  | configuration (source : Text) (problems : List Text)
  /-- A line of a script that cannot be formatted. -/
  | unformattable (line : Int) (cause : Error)
  deriving DecidableEq, Repr

/-- The groups of errors that the tools tell apart. -/
inductive ErrorKind where
  | malformed
  | evaluation
  | resource
  | unknown
  deriving DecidableEq, Repr

/-- The label of a group. -/
def ErrorKind.label : ErrorKind → Text
  | malformed => "syntax"
  | evaluation => "evaluation"
  | resource => "resource"
  | unknown => "unknown"

namespace Error

/-- The message of an error. -/
def message : Error → Text
  | general message => message
  | malformed cause => cause.message
  | evaluation description => ("EvaluationError: " : Text) ++ description
  | unboundName name => ("EvaluationError: undefined variable " : Text) ++ name.quoted
  | unknownOperator name =>
    ("EvaluationError: unknown operator or keyword " : Text) ++ name.quoted
  | tooDeep limit =>
    ("ResourceError: expression nesting exceeds the limit of " : Text) ++ Text.ofInt limit
  | configuration source problems =>
    ("ConfigError: invalid configuration in " : Text) ++ source ++ (": " : Text) ++
      List.intercalate ("; " : Text) problems
  | unformattable line cause =>
    ("FormatError [line " : Text) ++ Text.ofInt line ++ ("]: " : Text) ++ cause.message

/-- The group of an error. -/
def kind : Error → ErrorKind
  | malformed _ => .malformed
  | evaluation _ | unboundName _ | unknownOperator _ => .evaluation
  | tooDeep _ => .resource
  | general _ | configuration .. | unformattable .. => .unknown

end Error

end Sprig
