import TemplateMessages.Json.Reader
import TemplateMessages.Text.Blank

set_option autoImplicit false

/-!
# Messages of a JSON catalog

A catalog of one locale is an object whose strings are the messages. The key of a message is the
path to it, joined by points. Other values are no messages and are warned about.
-/

namespace TemplateMessages.Catalog

abbrev Messages := Table String

/-- The messages of each locale. -/
abbrev LocaleMessages := Table Messages

inductive LoadError where
  | invalidJson (error : Json.Error)
  | notObject
  | notKeyedByLocale
  deriving DecidableEq, Repr, Inhabited

def LoadError.message : LoadError → String
  | invalidJson error => "Invalid JSON: " ++ error.message
  | notObject => "expected a JSON object at the top level"
  | notKeyedByLocale => "expected an object keyed by locale"

inductive Skipped where
  | notString (key : String) (value : Json)
  | localeNotObject (locale : String)
  deriving Repr, Inhabited

def Skipped.message : Skipped → String
  | notString key value => "skipped non-string value at `" ++ key ++ "`: " ++ value.compact
  | localeNotObject locale => "locale `" ++ locale ++ "` is not an object"

def memberKey (path name : String) : String :=
  if path.isEmpty then name else path ++ "." ++ name

mutual

def flatten (path : String) (value : Json) (found : Messages × List Skipped) :
    Messages × List Skipped :=
  match value with
  | .object members => flattenMembers path members found
  | .string text => (found.1.put path text, found.2)
  | other => (found.1, found.2 ++ [.notString path other])

def flattenMembers (path : String) (members : List (String × Json))
    (found : Messages × List Skipped) : Messages × List Skipped :=
  match members with
  | [] => found
  | (name, value) :: members =>
    flattenMembers path members (flatten (memberKey path name) value found)

end

/-- The messages of a catalog text and what was skipped. -/
def parseMessages (text : List Char) : Except LoadError (Messages × List Skipped) :=
  match Json.parse text with
  | .error error => .error (.invalidJson error)
  | .ok value => if value.isObject then .ok (flatten "" value ([], [])) else .error .notObject

def addLocale (found : LocaleMessages × List Skipped) (entry : String × Json) :
    LocaleMessages × List Skipped :=
  let (locale, value) := entry
  if value.isObject then
    let (messages, skipped) := flatten "" value ([], found.2)
    (found.1.put locale messages, skipped)
  else (found.1, found.2 ++ [.localeNotObject locale])

/-- The messages of a block text, which is an object with a catalog for each locale, and what was
skipped. A blank text has none. -/
def parseBlockMessages (text : List Char) : Except LoadError (LocaleMessages × List Skipped) :=
  if Text.isBlankText text then .ok ([], [])
  else
    match Json.parse text with
    | .error error => .error (.invalidJson error)
    | .ok (.object locales) => .ok (locales.foldl addLocale ([], []))
    | .ok _ => .error .notKeyedByLocale

def merge (messages other : LocaleMessages) : LocaleMessages :=
  other.foldl
    (fun merged (locale, entries) =>
      merged.put locale (((merged.get? locale).getD []).putAll entries))
    messages

end TemplateMessages.Catalog
