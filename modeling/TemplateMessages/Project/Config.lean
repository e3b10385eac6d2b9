import TemplateMessages.Call.Candidate
import TemplateMessages.Files.Pattern
import TemplateMessages.Json.Expected
import TemplateMessages.Template.Transform

set_option autoImplicit false

/-!
# Configuration of a project

A configuration is written in JSON, where every field may be left out. `parse` reads one,
`validate` refuses values that cannot work, and `toJson` writes one with all its fields.
-/

namespace TemplateMessages.Project

open TemplateMessages.Call (Function FunctionNames)
open TemplateMessages.Files
open TemplateMessages.Json (Expecting FormError)
open TemplateMessages.Template (OnMissing)

inductive MessageFormat where
  | catalog
  | fluent
  deriving DecidableEq, Repr, Inhabited

def MessageFormat.name : MessageFormat → String
  | catalog => "catalog"
  | fluent => "fluent"

def MessageFormat.extension : MessageFormat → String
  | catalog => "json"
  | fluent => "ftl"

structure Config where
  format : MessageFormat
  locale : String
  fallback : String
  functions : FunctionNames
  messagesRoot : String
  blockName : String
  removeBlock : Bool
  onMissing : OnMissing
  isolating : Bool
  includes : List String
  ignores : List String
  deriving DecidableEq, Repr, Inhabited

namespace Config

def default : Config where
  format := .catalog
  locale := "en"
  fallback := "en"
  functions := FunctionNames.default
  messagesRoot := "./locales"
  blockName := "i18n"
  removeBlock := true
  onMissing := .skip
  isolating := false
  includes := ["src"]
  ignores := []

def formatChoices : Table MessageFormat :=
  [("catalog", .catalog), ("fluent", .fluent)]

def functionChoices : Table Function :=
  [("t", .translate), ("te", .exists?)]

def onMissingChoices : Table OnMissing :=
  [("skip", .skip), ("error", .error)]

/-- The name of the choice that stands for a value. -/
def choiceName {α : Type} [DecidableEq α] (choices : Table α) (value : α) : String :=
  match choices.find? (·.2 = value) with
  | some choice => choice.1
  | none => ""

/-- A field that is put into a configuration once it is read. -/
def field {α : Type} (name : String) (expect : (text : List Char) → Expecting α text)
    (put : Config → α → Config) : Json.Field Config where
  name := name
  read config text := (expect text).map fun (value, rest) => (put config value, rest)

def fields : List (Json.Field Config) := [
  field "translator" (Json.expectChoice formatChoices) fun config value =>
    { config with format := value },
  field "locale" Json.expectText fun config value => { config with locale := value },
  field "fallback" Json.expectText fun config value => { config with fallback := value },
  field "functionNames" (Json.expectChoiceTable functionChoices) fun config value =>
    { config with functions := value.mergeSort fun a b => a.1 ≤ b.1 },
  field "messagesRoot" Json.expectText fun config value => { config with messagesRoot := value },
  field "blockName" Json.expectText fun config value => { config with blockName := value },
  field "removeBlock" Json.expectBool fun config value => { config with removeBlock := value },
  field "onMissing" (Json.expectChoice onMissingChoices) fun config value =>
    { config with onMissing := value },
  field "useIsolating" Json.expectBool fun config value => { config with isolating := value },
  field "includes" Json.expectTexts fun config value => { config with includes := value },
  field "ignores" Json.expectTexts fun config value => { config with ignores := value }]

/-- Read a configuration. -/
def parse (text : List Char) : Except FormError Config :=
  Json.readWhole (Json.expectRecord "struct Config" default fields) text

def textList (texts : List String) : Json :=
  .array (texts.map .string)

def toJson (config : Config) : Json :=
  .object [
    ("translator", .string config.format.name),
    ("locale", .string config.locale),
    ("fallback", .string config.fallback),
    ("functionNames", .object (config.functions.map fun (name, function) =>
      (name, .string (choiceName functionChoices function)))),
    ("messagesRoot", .string config.messagesRoot),
    ("blockName", .string config.blockName),
    ("removeBlock", .bool config.removeBlock),
    ("onMissing", .string (choiceName onMissingChoices config.onMissing)),
    ("useIsolating", .bool config.isolating),
    ("includes", textList config.includes),
    ("ignores", textList config.ignores)]

def defaultText : String :=
  default.toJson.pretty

end Config

inductive ConfigError where
  | invalidIgnore (entry : String) (error : PatternError)
  | invalidInclude (entry : String) (error : PatternError)
  | noFunctionNames
  | blankLocale
  deriving DecidableEq, Repr, Inhabited

def ConfigError.message : ConfigError → String
  | invalidIgnore entry error =>
    "Invalid glob pattern in 'ignores': \x22" ++ entry ++ "\x22: " ++ error.message
  | invalidInclude entry error =>
    "Invalid glob pattern in 'includes': \x22" ++ entry ++ "\x22: " ++ error.message
  | noFunctionNames => "'functionNames' must map at least one function name"
  | blankLocale => "'locale' must not be empty"

def firstInvalid? (entries : List String) : Option (String × PatternError) :=
  entries.findSome? fun entry =>
    match Pattern.parse entry with
    | .ok _ => none
    | .error error => some (entry, error)

/-- Refuse a configuration that cannot work. An include without wildcards is no pattern. -/
def Config.validate (config : Config) : Except ConfigError Unit :=
  match firstInvalid? config.ignores with
  | some (entry, error) => .error (.invalidIgnore entry error)
  | none =>
    match firstInvalid? (config.includes.filter Pattern.isWild) with
    | some (entry, error) => .error (.invalidInclude entry error)
    | none =>
      if config.functions.isEmpty then .error .noFunctionNames
      else if Text.isBlankText config.locale.toList then .error .blankLocale
      else .ok ()

end TemplateMessages.Project
