import TemplateMessages.Call.Candidate
import TemplateMessages.Expression.Entries
import TemplateMessages.Expression.Reader
import TemplateMessages.Fluent.Expansion
import TemplateMessages.Translation.Context

set_option autoImplicit false

/-!
# Translation by Fluent catalogs

A message is looked up along the locale chain, and expanded in the catalog where it is found.
-/

namespace TemplateMessages.Fluent

open TemplateMessages.Call (Candidate)
open TemplateMessages.Expression (objectEntries evaluate quoted)
open TemplateMessages.Translation (TranslationError Context Replacement)

abbrev LocaleCatalogs := Table Catalog

/-- A key is the name of a message, and behind a point that of its attribute. -/
def splitKey (key : String) : String × Option String :=
  let chars := key.toList
  match chars.dropWhile (· ≠ '.') with
  | [] => (key, none)
  | _ :: attr => (String.ofList (chars.takeWhile (· ≠ '.')), some (String.ofList attr))

/-- The first locale of the chain whose catalog has the message. -/
def find? (catalogs : LocaleCatalogs) (context : Context) (id : String) (asked : Option String) :
    Option (String × Catalog) :=
  (context.localeChain asked).findSome? fun locale =>
    match catalogs.get? locale with
    | none => none
    | some catalog => if (catalog.messages.get? id).isSome then some (locale, catalog) else none

def paramValue (source : String) : Value :=
  match evaluate source with
  | .ok (.string text) => .text text
  | .ok (.number number) => .number number
  | _ => .code source

def paramValues (params : Option String) : Except TranslationError (Table Value) :=
  match params with
  | none => .ok []
  | some params =>
    match objectEntries params with
    | none => .error (.call .paramsNotObject)
    | some entries => .ok (Table.ofList (entries.map fun (name, raw) => (name, paramValue raw)))

def resultCode (value : Value) : String :=
  match value.constantText? with
  | some text => quoted text
  | none => value.expressionCode

def translationCode (catalogs : LocaleCatalogs) (isolating : Bool) (context : Context)
    (arguments : Call.Arguments) : Except TranslationError String := do
  let (id, attr) := splitKey arguments.key
  match find? catalogs context id arguments.locale with
  | none => throw (.unknownMessage arguments.key)
  | some (locale, catalog) =>
    let reference := Reference.message id attr
    let _ ← catalog.pattern reference
    let params ← paramValues arguments.params
    let value ← expand ⟨catalog, locale, arguments.key, params, isolating⟩ reference
    return resultCode value

def hasTranslation (catalogs : LocaleCatalogs) (context : Context) (arguments : Call.Arguments) :
    Bool :=
  let (id, attr) := splitKey arguments.key
  match find? catalogs context id arguments.locale with
  | none => false
  | some (_, catalog) => (catalog.pattern (.message id attr)).toBool

def translate (catalogs : LocaleCatalogs) (isolating : Bool) (context : Context)
    (candidate : Candidate) : Except TranslationError Replacement := do
  let arguments ← (Call.Arguments.parse candidate.arguments).mapError TranslationError.call
  match candidate.function with
  | .exists? => return ⟨toString (hasTranslation catalogs context arguments), true⟩
  | .translate =>
    return ⟨← translationCode catalogs isolating context arguments, candidate.sole⟩

end TemplateMessages.Fluent
