import TemplateMessages.Expression.Quoted
import TemplateMessages.Number.Decimal
import TemplateMessages.Text.Word

set_option autoImplicit false

/-!
# Values of Fluent expressions

A value is a constant, or code that computes it when the template renders. Constants side by side
are joined at once, so code is only made of what is not constant.
-/

namespace TemplateMessages.Fluent

open TemplateMessages.Expression (quoted)
open TemplateMessages.Number (Binary64)

inductive Value where
  | text (value : String)
  | number (value : Binary64)
  | code (code : String)
  /-- Code that formats a number; a selector looks at the number itself. -/
  | formatted (code : String) (argument : Value) (options : String)
  deriving DecidableEq, Repr, Inhabited

/-- The characters of names and numbers, which need no parentheses. -/
def isPlainChar (c : Char) : Bool :=
  Text.isAlphanumeric c || c == '_' || c == '$' || c == '.'

def parenthesize (code : String) : String :=
  if code.toList.all isPlainChar then code else "(" ++ code ++ ")"

namespace Value

def constantText? : Value → Option String
  | text value => some value
  | number value => some value.text
  | code _ => none
  | formatted .. => none

/-- The value as an operand of a sum or the result of a function. -/
def operandCode : Value → String
  | text value => quoted value
  | number value => quoted value.text
  | code source => parenthesize source
  | formatted source _ _ => source

def argumentCode : Value → String
  | number value => value.text
  | value => value.operandCode

def expressionCode : Value → String
  | code source => source
  | value => value.operandCode

def countable? : Value → Option Binary64
  | number value => some value
  | formatted _ (number value) _ => some value
  | _ => none

def joinConstants : List Value → List Value
  | [] => []
  | value :: values =>
    match value.constantText?, joinConstants values with
    | none, joined => value :: joined
    | some front, .text back :: joined => .text (front ++ back) :: joined
    | some front, joined => .text front :: joined

def isEmptyText : Value → Bool
  | text value => value == ""
  | _ => false

def sumCode : List Value → String
  | .text value :: values => " + ".intercalate ((Value.text value :: values).map operandCode)
  | values => " + ".intercalate ("''" :: values.map operandCode)

def concat (parts : List Value) : Value :=
  match (joinConstants parts).filter (!·.isEmptyText) with
  | [] => .text ""
  | [value] => value
  | values => .code (sumCode values)

end Value

end TemplateMessages.Fluent
