import TemplateMessages.Proofs.Expression.Phrase
import TemplateMessages.Proofs.Script.StringValue

set_option autoImplicit false

/-!
# Constants of a script

The value that a script gives a phrase without numbers: its strings are strings of code units, and
its sums join the texts of their operands.
-/

namespace TemplateMessages.Script

open TemplateMessages.Expression
open TemplateMessages.Number (Binary64)

inductive Constant where
  | undefined
  | null
  | bool (value : Bool)
  | number (value : Binary64)
  | string (value : List Nat)
  | array (items : List Constant)
  | object (properties : List (List Nat × Constant))

namespace Constant

/-- The code units of the text of a value. Those of a number are left out, and so are objects and
arrays, which are converted by their methods. -/
def textUnits? : Constant → Option (List Nat)
  | undefined => some (units "undefined".toList)
  | null => some (units "null".toList)
  | bool value => some (units (if value then "true".toList else "false".toList))
  | string value => some value
  | number _ => none
  | array _ => none
  | object _ => none

def add? (a b : Constant) : Option Constant :=
  match a, b with
  | string x, _ => b.textUnits?.map fun y => string (x ++ y)
  | _, string y => a.textUnits?.map fun x => string (x ++ y)
  | _, _ => none

def define (properties : List (List Nat × Constant)) (name : List Nat) (value : Constant) :
    List (List Nat × Constant) :=
  match properties with
  | [] => [(name, value)]
  | property :: properties =>
    if property.1 = name then (name, value) :: properties
    else property :: define properties name value

def defineAll (properties others : List (List Nat × Constant)) : List (List Nat × Constant) :=
  others.foldl (fun properties property => define properties property.1 property.2) properties

mutual

/-- What a constant that is read is in a script. -/
def ofLiteral : Literal → Constant
  | .undefined => undefined
  | .null => null
  | .bool value => bool value
  | .number value => number value
  | .string value => string (units value.toList)
  | .array items => array (ofLiterals items)
  | .object entries => object (ofEntries entries)

def ofLiterals : List Literal → List Constant
  | [] => []
  | item :: items => ofLiteral item :: ofLiterals items

def ofEntries : List (String × Literal) → List (List Nat × Constant)
  | [] => []
  | (key, value) :: entries => (units key.toList, ofLiteral value) :: ofEntries entries

end

end Constant

/-- The name of the property that a key makes. The key `__proto__` makes none, and sets the prototype
of the object. -/
inductive NamesProperty : Key → List Nat → Prop
  | word {name : List Char} (hproto : units name ≠ units "__proto__".toList) :
      NamesProperty (.word name) (units name)
  | string {quote : Char} {inside : List Char} {name : List Nat}
      (h : StringValue quote inside name) (hproto : name ≠ units "__proto__".toList) :
      NamesProperty (.string quote inside) name

mutual

inductive Means : Phrase → Constant → Prop
  | string {quote : Char} {inside : List Char} {value : List Nat}
      (h : StringValue quote inside value) : Means (.string quote inside) (.string value)
  | true : Means (.word "true".toList) (.bool true)
  | false : Means (.word "false".toList) (.bool false)
  | null : Means (.word "null".toList) .null
  | undefined : Means (.word "undefined".toList) .undefined
  | parentheses {inner : Phrase} {value : Constant} (h : Means inner value) :
      Means (.parentheses inner) value
  | array {items : List Phrase} {values : List Constant} (h : MeansItems items values) :
      Means (.array items) (.array values)
  | object {entries : List (Key × Phrase)} {properties : List (List Nat × Constant)}
      (h : MeansEntries entries properties) :
      Means (.object entries) (.object (Constant.defineAll [] properties))
  | sum {left right : Phrase} {a b value : Constant} (hleft : Means left a)
      (hright : Means right b) (h : a.add? b = some value) : Means (.sum left right) value

inductive MeansItems : List Phrase → List Constant → Prop
  | nil : MeansItems [] []
  | cons {item : Phrase} {items : List Phrase} {value : Constant} {values : List Constant}
      (h : Means item value) (hitems : MeansItems items values) :
      MeansItems (item :: items) (value :: values)

inductive MeansEntries : List (Key × Phrase) → List (List Nat × Constant) → Prop
  | nil : MeansEntries [] []
  | cons {key : Key} {phrase : Phrase} {entries : List (Key × Phrase)} {name : List Nat}
      {value : Constant} {properties : List (List Nat × Constant)} (hkey : NamesProperty key name)
      (h : Means phrase value) (hentries : MeansEntries entries properties) :
      MeansEntries ((key, phrase) :: entries) ((name, value) :: properties)

end

theorem NamesProperty.ne_proto {key : Key} {name : List Nat} (h : NamesProperty key name) :
    name ≠ units "__proto__".toList := by
  cases h with
  | word hproto => exact hproto
  | string _ hproto => exact hproto

theorem NamesProperty.unique {key : Key} {name name' : List Nat} (h : NamesProperty key name)
    (h' : NamesProperty key name') : name = name' := by
  cases h with
  | word _ =>
    cases h'
    rfl
  | string h _ =>
    cases h' with
    | string h' _ => exact h.unique h'

mutual

theorem Means.unique {phrase : Phrase} {value value' : Constant} (h : Means phrase value)
    (h' : Means phrase value') : value = value' := by
  cases h with
  | string h =>
    cases h' with
    | string h' => rw [h.unique h']
  | true =>
    cases h'
    rfl
  | false =>
    cases h'
    rfl
  | null =>
    cases h'
    rfl
  | undefined =>
    cases h'
    rfl
  | parentheses h =>
    cases h' with
    | parentheses h' => exact h.unique h'
  | array h =>
    cases h' with
    | array h' => rw [h.unique h']
  | object h =>
    cases h' with
    | object h' => rw [h.unique h']
  | sum hleft hright h =>
    cases h' with
    | sum hleft' hright' h' =>
      rw [hleft.unique hleft', hright.unique hright'] at h
      exact Option.some.inj (h.symm.trans h')

theorem MeansItems.unique {items : List Phrase} {values values' : List Constant}
    (h : MeansItems items values) (h' : MeansItems items values') : values = values' := by
  cases h with
  | nil =>
    cases h'
    rfl
  | cons h hitems =>
    cases h' with
    | cons h' hitems' => rw [h.unique h', hitems.unique hitems']

theorem MeansEntries.unique {entries : List (Key × Phrase)}
    {properties properties' : List (List Nat × Constant)} (h : MeansEntries entries properties)
    (h' : MeansEntries entries properties') : properties = properties' := by
  cases h with
  | nil =>
    cases h'
    rfl
  | cons hkey h hentries =>
    cases h' with
    | cons hkey' h' hentries' => rw [hkey.unique hkey', h.unique h', hentries.unique hentries']

end

end TemplateMessages.Script
