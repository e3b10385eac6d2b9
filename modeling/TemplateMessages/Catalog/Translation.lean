import TemplateMessages.Call.Candidate
import TemplateMessages.Catalog.Template
import TemplateMessages.Expression.Reader
import TemplateMessages.Translation.Context

set_option autoImplicit false

/-!
# Translation by message catalogs

A message is looked up by key along the locale chain. In each locale the messages of the file itself
come before those of the catalogs.
-/

namespace TemplateMessages.Catalog

open TemplateMessages.Call (Candidate Arguments CallError)
open TemplateMessages.Expression (Literal quoted)
open TemplateMessages.Translation

/-- The first message of a key along the locale chain. -/
def lookup? (messages : LocaleMessages) (context : Context) (key : String)
    (asked : Option String) : Option String :=
  (context.localeChain asked).findSome? fun locale =>
    ((context.overlay.get? locale).bind (·.get? key)).or
      ((messages.get? locale).bind (·.get? key))

def replacement (message key : String) (params : Option String) :
    Except TranslationError Replacement :=
  let parts := parts message.toList
  match params with
  | none =>
    match firstPlaceholder? parts with
    | some name => .error (.missingVariable name key)
    | none => .ok ⟨quoted message, true⟩
  | some params =>
    match Call.splitParams params.toList with
    | .error error => .error (.call error)
    | .ok (object, trailing) =>
      if trailing ≠ "" then .error (.call (.unexpectedAfterParams trailing))
      else if (firstPlaceholder? parts).isNone then .ok ⟨quoted message, true⟩
      else
        match Expression.evaluate object with
        | .ok (.object entries) =>
          (substitute parts key (.object entries)).map fun text => ⟨quoted text, true⟩
        | .ok _ => .error (.call .paramsNotObject)
        | .error _ => .ok ⟨runtimeCode parts object, false⟩

def translate (messages : LocaleMessages) (context : Context) (candidate : Candidate) :
    Except TranslationError Replacement := do
  let arguments ← (Arguments.parse candidate.arguments).mapError TranslationError.call
  let message := lookup? messages context arguments.key arguments.locale
  match candidate.function with
  | .exists? => return ⟨toString message.isSome, true⟩
  | .translate =>
    match message with
    | none => throw (.unknownKey arguments.key (arguments.locale.getD context.locale))
    | some message => replacement message arguments.key arguments.params

end TemplateMessages.Catalog
