import TemplateMessages.Call.Arguments

set_option autoImplicit false

/-!
# Why a call cannot be translated
-/

namespace TemplateMessages.Translation

open TemplateMessages.Call (CallError)

inductive TranslationError where
  | call (error : CallError)
  | unknownKey (key locale : String)
  | unknownMessage (id : String)
  | unknownTerm (id : String)
  | unknownAttribute (name : String)
  | noValue (id : String)
  | unknownVariable (name : String)
  | missingVariable (name key : String)
  | unknownFunction (name : String)
  | noDefaultVariant (key : String)
  | tooManyPlaceables (count max : Nat)
  | cyclicReference (name : String)
  | invalidLocale (locale : String)
  | missingArgument (function : String)
  deriving DecidableEq, Repr, Inhabited

namespace TranslationError

def message : TranslationError → String
  | call error => error.message
  | unknownKey key locale => "no translation for key `" ++ key ++ "` in locale `" ++ locale ++ "`"
  | unknownMessage id => "unknown message `" ++ id ++ "`"
  | unknownTerm id => "unknown term `-" ++ id ++ "`"
  | unknownAttribute name => "unknown attribute `" ++ name ++ "`"
  | noValue id => "message `" ++ id ++ "` has no value"
  | unknownVariable name => "unknown variable `$" ++ name ++ "`"
  | missingVariable name key =>
    "missing value for `\x7b" ++ name ++ "\x7d` in `" ++ key ++ "`"
  | unknownFunction name => "unknown function `" ++ name ++ "()`"
  | noDefaultVariant key => "select expression in `" ++ key ++ "` has no default variant"
  | tooManyPlaceables count max =>
    "too many placeables expanded: " ++ toString count ++ ", max allowed is " ++ toString max
  | cyclicReference name => "cyclic reference to `" ++ name ++ "`"
  | invalidLocale locale => "invalid locale `" ++ locale ++ "`"
  | missingArgument function => function ++ "() expects an argument"

/-- There is no translation at all. -/
def isMissing : TranslationError → Bool
  | unknownKey .. => true
  | unknownMessage _ => true
  | _ => false

end TranslationError

end TemplateMessages.Translation
