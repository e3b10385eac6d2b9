import TemplateMessages.Table

set_option autoImplicit false

/-!
# Fluent messages

The syntax of Fluent patterns. Texts stay as they were written: the escapes of string literals are
not resolved, and numbers are kept as text.
-/

namespace TemplateMessages.Fluent

/-- The key of a variant. -/
inductive VariantKey where
  | name (name : String)
  | number (text : String)
  deriving DecidableEq, Repr, Inhabited

mutual

inductive Inline where
  | string (raw : String)
  | number (text : String)
  | variable (name : String)
  | message (id : String) (attr : Option String)
  | term (id : String) (attr : Option String) (arguments : Option Arguments)
  | function (name : String) (arguments : Arguments)
  | placeable (expression : Expression)

inductive Arguments where
  | mk (positional : List Inline) (named : List (String × Inline))

inductive Expression where
  | inline (value : Inline)
  | select (selector : Inline) (variants : List Variant)

inductive Variant where
  | mk (key : VariantKey) (isDefault : Bool) (value : List Element)

inductive Element where
  | text (value : String)
  | placeable (expression : Expression)

end

deriving instance Repr for Inline, Arguments, Expression, Variant, Element

instance : Inhabited Inline := ⟨.string ""⟩

instance : Inhabited Arguments := ⟨.mk [] []⟩

instance : Inhabited Expression := ⟨.inline default⟩

instance : Inhabited Element := ⟨.text ""⟩

instance : Inhabited Variant := ⟨.mk (.name "") false []⟩

abbrev Pattern := List Element

namespace Arguments

def positional : Arguments → List Inline
  | mk positional _ => positional

def named : Arguments → List (String × Inline)
  | mk _ named => named

end Arguments

namespace Variant

def key : Variant → VariantKey
  | mk key _ _ => key

def isDefault : Variant → Bool
  | mk _ isDefault _ => isDefault

def value : Variant → Pattern
  | mk _ _ value => value

end Variant

/-- A message with its value and its attributes in source order. -/
structure Message where
  value : Option Pattern
  attributes : List (String × Pattern)
  deriving Repr, Inhabited

/-- A term; unlike a message it always has a value. -/
structure Term where
  value : Pattern
  attributes : List (String × Pattern)
  deriving Repr, Inhabited

/-- The messages and terms of one locale. Of several entries with one name the last one counts. -/
structure Catalog where
  messages : Table Message
  terms : Table Term
  deriving Repr, Inhabited

def attribute? (attributes : List (String × Pattern)) (name : String) : Option Pattern :=
  (attributes.find? (·.1 == name)).map (·.2)

end TemplateMessages.Fluent
