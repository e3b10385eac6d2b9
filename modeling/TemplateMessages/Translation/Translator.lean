import TemplateMessages.Catalog.Translation
import TemplateMessages.Fluent.Translation

set_option autoImplicit false

/-!
# Translators

A translator has messages of one of the two kinds, and knows the names of the functions that it
translates.
-/

namespace TemplateMessages.Translation

open TemplateMessages.Call (Candidate FunctionNames)
open TemplateMessages.Catalog (LocaleMessages)
open TemplateMessages.Fluent (LocaleCatalogs)

inductive Source where
  | catalog (messages : LocaleMessages)
  | fluent (catalogs : LocaleCatalogs) (isolating : Bool)
  deriving Repr, Inhabited

structure Translator where
  source : Source
  functions : FunctionNames
  deriving Repr, Inhabited

/-- The replacement of a candidate. -/
def Translator.translate (translator : Translator) (context : Context) (candidate : Candidate) :
    Except TranslationError Replacement :=
  match translator.source with
  | .catalog messages => Catalog.translate messages context candidate
  | .fluent catalogs isolating => Fluent.translate catalogs isolating context candidate

end TemplateMessages.Translation
