import TemplateMessages.Fluent.Syntax
import TemplateMessages.Fluent.Value
import TemplateMessages.Plural.Rules

set_option autoImplicit false

/-!
# Selecting a variant

A constant selector picks the variant at once. Any other selector becomes code that picks it when
the template renders: a list of functions, one for each variant, and the index of the one to call.
-/

namespace TemplateMessages.Fluent

open TemplateMessages.Expression (quoted)
open TemplateMessages.Number (Binary64)

def VariantKey.number? : VariantKey → Option Binary64
  | number text => Binary64.ofText? text.toList
  | name _ => none

def VariantKey.matchesNumber (value : Binary64) (category : Plural.Category) (key : VariantKey) :
    Bool :=
  match key with
  | number text => (Binary64.ofText? text.toList).any (·.equals value)
  | name id => id == category.name

def VariantKey.matchesText (value : String) (key : VariantKey) : Bool :=
  match key with
  | number _ => false
  | name id => id == value

def chosenIndex (variants : List Variant) (default : Nat) (matching : VariantKey → Bool) : Nat :=
  (variants.findIdx? fun variant => matching variant.key).getD default

def VariantKey.conditionCode : VariantKey → String
  | number text =>
    "s === " ++ (match Binary64.ofText? text.toList with
      | some value => value.text
      | none => text)
  | name id => "s === " ++ quoted id ++ " || c === " ++ quoted id

def indexCode (default : Nat) : (index : Nat) → List Variant → String
  | _, [] => toString default
  | index, variant :: variants =>
    let rest := indexCode default (index + 1) variants
    if index = default then rest
    else variant.key.conditionCode ++ " ? " ++ toString index ++ " : " ++ rest

/-- The code of a selection. The functions of the variants take no parameters and stand outside the
function that finds the index, so its names cannot hide theirs. -/
def selectionCode (locale : String) (selector : Value) (variants : List Variant) (default : Nat)
    (arms : List Value) : String :=
  let (subject, options) :=
    match selector with
    | .formatted _ argument options => (argument.argumentCode, options)
    | other => (other.argumentCode, "\x7b\x7d")
  "[" ++ ", ".intercalate (arms.map fun arm => "() => " ++ arm.operandCode)
    ++ "][(function(s)\x7bvar c = typeof s === 'number' ? new Intl.PluralRules(["
    ++ quoted locale ++ "], " ++ options ++ ").select(s) : null; return "
    ++ indexCode default 0 variants ++ ";\x7d)(" ++ subject ++ ")]()"

end TemplateMessages.Fluent
