import TemplateMessages.Fluent.Escape
import TemplateMessages.Fluent.Selection
import TemplateMessages.Plural.Languages
import TemplateMessages.Translation.Error

set_option autoImplicit false

/-!
# Expanding Fluent patterns

Expanding a pattern gives its value. References are followed inside one catalog; a reference to a
pattern that is already being expanded is an error, and so are too many placeables. A term sees only
the arguments that its reference gives it.
-/

namespace TemplateMessages.Fluent

open TemplateMessages.Expression (quoted)
open TemplateMessages.Number (Binary64)
open TemplateMessages.Translation (TranslationError)

def maxPlaceables : Nat := 100

def isolateStart : String := "\u2068"

def isolateEnd : String := "\u2069"

inductive Reference where
  | message (id : String) (attr : Option String)
  | term (id : String) (attr : Option String)
  deriving DecidableEq, Repr, Inhabited

/-- Names are different for different patterns: identifiers hold no points, and those of messages do
not start with a hyphen. -/
def Reference.name : Reference → String
  | message id none => id
  | message id (some attr) => id ++ "." ++ attr
  | term id none => "-" ++ id
  | term id (some attr) => "-" ++ id ++ "." ++ attr

def Catalog.pattern (catalog : Catalog) (reference : Reference) :
    Except TranslationError Pattern :=
  match reference with
  | .message id attr =>
    match catalog.messages.get? id with
    | none => .error (.unknownMessage id)
    | some message =>
      match attr with
      | some attr =>
        match attribute? message.attributes attr with
        | some pattern => .ok pattern
        | none => .error (.unknownAttribute reference.name)
      | none =>
        match message.value with
        | some pattern => .ok pattern
        | none => .error (.noValue id)
  | .term id attr =>
    match catalog.terms.get? id with
    | none => .error (.unknownTerm id)
    | some term =>
      match attr with
      | some attr =>
        match attribute? term.attributes attr with
        | some pattern => .ok pattern
        | none => .error (.unknownAttribute reference.name)
      | none => .ok term.value

/-- What stays the same while a message is expanded. -/
structure Scope where
  catalog : Catalog
  locale : String
  key : String
  params : Table Value
  isolating : Bool
  deriving Repr, Inhabited

abbrev Expanding (α : Type) := StateT Nat (Except TranslationError) α

def countPlaceable : Expanding Unit := fun count =>
  if maxPlaceables < count + 1 then .error (.tooManyPlaceables (count + 1) maxPlaceables)
  else .ok ((), count + 1)

def formatter? (name : String) : Option String :=
  if name = "NUMBER" then some "NumberFormat"
  else if name = "DATETIME" then some "DateTimeFormat"
  else none

def optionsCode (options : List (String × Value)) : String :=
  match options with
  | [] => "\x7b\x7d"
  | options =>
    let codes := options.map fun (name, value) => name ++ ": " ++ value.argumentCode
    "\x7b " ++ ", ".intercalate codes ++ " \x7d"

def formattedValue (name formatter locale : String) (argument : Value)
    (options : List (String × Value)) : Value :=
  let options := optionsCode options
  let code := "new Intl." ++ formatter ++ "([" ++ quoted locale ++ "], " ++ options ++ ").format("
    ++ argument.argumentCode ++ ")"
  if name = "NUMBER" then .formatted code argument options else .code code

def numberValue (text : String) : Value :=
  match Binary64.ofText? text.toList with
  | some value => .number value
  | none => .text text

/-- The value of a variable. Inside a term, whose arguments are given, a missing one is printed as
its reference. -/
def variableValue (scope : Scope) (arguments : Option (Table Value)) (name : String) :
    Except TranslationError Value :=
  match arguments with
  | some arguments => .ok ((arguments.get? name).getD (.text ("\x7b$" ++ name ++ "\x7d")))
  | none =>
    match scope.params.get? name with
    | some value => .ok value
    | none => .error (.unknownVariable name)

def Scope.category (scope : Scope) (number : Binary64) :
    Except TranslationError Plural.Category :=
  match Plural.cardinalRules? scope.locale with
  | some rules => .ok (Plural.Rules.category rules number)
  | none => .error (.invalidLocale scope.locale)

def Scope.chosen? (scope : Scope) (selector : Value) (variants : List Variant) (default : Nat) :
    Except TranslationError (Option Nat) :=
  match selector.countable? with
  | some number =>
    (scope.category number).map fun category =>
      some (chosenIndex variants default (·.matchesNumber number category))
  | none =>
    match selector with
    | .text text => .ok (some (chosenIndex variants default (·.matchesText text)))
    | _ => .ok none

section Expand

variable (scope : Scope) (follow : Reference → Option (Table Value) → Expanding Value)

mutual

/-- The value of an inline expression. The arguments are those of the term around it; references
are left to `follow`. -/
def expandInline (arguments : Option (Table Value)) : Inline → Expanding Value
  | .string raw => pure (.text (String.ofList (unescape raw.toList)))
  | .number text => pure (numberValue text)
  | .variable name => liftM (variableValue scope arguments name)
  | .message id attr => follow (.message id attr) none
  | .term id attr none => do
    if (scope.catalog.terms.get? id).isNone then throw (.unknownTerm id)
    follow (.term id attr) (some [])
  | .term id attr (some (.mk _ named)) => do
    if (scope.catalog.terms.get? id).isNone then throw (.unknownTerm id)
    let named ← expandNamed arguments named
    follow (.term id attr) (some (Table.ofList named))
  | .function name (.mk positional named) =>
    match formatter? name with
    | none => throw (.unknownFunction name)
    | some formatter =>
      match positional with
      | [] => throw (.missingArgument name)
      | first :: _ => do
        let argument ← expandInline arguments first
        let options ← expandNamed arguments named
        return formattedValue name formatter scope.locale argument options
  | .placeable expression => expandExpression arguments expression

def expandNamed (arguments : Option (Table Value)) :
    List (String × Inline) → Expanding (List (String × Value))
  | [] => pure []
  | (name, value) :: named => do
    let value ← expandInline arguments value
    let named ← expandNamed arguments named
    return (name, value) :: named

def expandExpression (arguments : Option (Table Value)) : Expression → Expanding Value
  | .inline value => expandInline arguments value
  | .select selector variants => do
    let selector ← expandInline arguments selector
    match variants.findIdx? (·.isDefault) with
    | none => throw (.noDefaultVariant scope.key)
    | some default =>
      match ← liftM (scope.chosen? selector variants default) with
      | some index => expandVariant arguments index variants
      | none =>
        let arms ← expandVariants arguments variants
        return .code (selectionCode scope.locale selector variants default arms)

def expandVariant (arguments : Option (Table Value)) : Nat → List Variant → Expanding Value
  | _, [] => pure (.text "")
  | 0, .mk _ _ value :: _ => do
    return Value.concat (← expandElements arguments (scope.isolating && 1 < value.length) value)
  | index + 1, _ :: variants => expandVariant arguments index variants

def expandVariants (arguments : Option (Table Value)) : List Variant → Expanding (List Value)
  | [] => pure []
  | .mk _ _ value :: variants => do
    let parts ← expandElements arguments (scope.isolating && 1 < value.length) value
    let values ← expandVariants arguments variants
    return Value.concat parts :: values

def expandElements (arguments : Option (Table Value)) (isolate : Bool) :
    List Element → Expanding (List Value)
  | [] => pure []
  | .text value :: elements => do
    let parts ← expandElements arguments isolate elements
    return .text value :: parts
  | .placeable expression :: elements => do
    countPlaceable
    let value ← expandExpression arguments expression
    let parts ← expandElements arguments isolate elements
    if isolate then return .text isolateStart :: value :: .text isolateEnd :: parts
    else return value :: parts

end

end Expand

/-- The value of a pattern of the catalog, the patterns of these names being expanded around it.
Each of them but the outermost is inside a placeable of its own, so `depth` does not run out before
the placeables do. -/
def expandReference (scope : Scope) (around : List String) : (depth : Nat) → Reference →
    Option (Table Value) → Expanding Value
  | 0, _, _ => throw (.tooManyPlaceables (maxPlaceables + 1) maxPlaceables)
  | depth + 1, reference, arguments => do
    let pattern ← liftM (scope.catalog.pattern reference)
    if around.contains reference.name then throw (.cyclicReference reference.name)
    let parts ← expandElements scope (expandReference scope (reference.name :: around) depth)
      arguments (scope.isolating && 1 < pattern.length) pattern
    return Value.concat parts

def expand (scope : Scope) (reference : Reference) : Except TranslationError Value :=
  (expandReference scope [] (maxPlaceables + 1) reference none).run' 0

end TemplateMessages.Fluent
