import TemplateMessages.Number.Decimal
import TemplateMessages.Table

set_option autoImplicit false

/-!
# Constant values

The values that a constant expression of the host language can have.
-/

namespace TemplateMessages.Expression

open TemplateMessages.Number (Binary64)

inductive Literal where
  | undefined
  | null
  | bool (value : Bool)
  | number (value : Binary64)
  | string (value : String)
  | array (items : List Literal)
  | object (entries : List (String × Literal))
  deriving Repr, Inhabited

namespace Literal

def primitiveText? : Literal → Option String
  | undefined => some "undefined"
  | null => some "null"
  | bool value => some (if value then "true" else "false")
  | number value => some value.text
  | string value => some value
  | array _ => none
  | object _ => none

mutual

/-- The text that the host language makes of a value. -/
def text : Literal → String
  | undefined => "undefined"
  | null => "null"
  | bool value => if value then "true" else "false"
  | number value => value.text
  | string value => value
  | array items => String.intercalate "," (texts items)
  | object _ => "[object Object]"

def texts : List Literal → List String
  | [] => []
  | item :: items => item.text :: texts items

end

def asNumber? : Literal → Option Binary64
  | number value => some value
  | _ => none

def get? (literal : Literal) (key : String) : Option Literal :=
  match literal with
  | object entries => Table.get? entries key
  | _ => none

def add? (a b : Literal) : Option Literal :=
  match a, b with
  | number x, number y => some (number (x.add y))
  | string x, _ => b.primitiveText?.map fun y => string (x ++ y)
  | _, string y => a.primitiveText?.map fun x => string (x ++ y)
  | _, _ => none

end Literal

end TemplateMessages.Expression
