import Mathlib.Data.List.TakeWhile
import TemplateMessages.Fluent.Reader
import TemplateMessages.Proofs.Script.Outline

set_option autoImplicit false

/-!
# Names in Fluent resources

The names of arguments and the number keys of variants go into code as they are. Syntax is plain
when these hold no quotes and no brackets, and when its references have identifiers. What the readers
of names and numbers give is so.
-/

namespace TemplateMessages.Fluent

open TemplateMessages.Script (delimiters not_mem_delimiters)

/-- The text holds no quotes and no brackets. -/
def IsPlain (text : String) : Prop :=
  ∀ c ∈ text.toList, c ∉ delimiters

/-- Holds no point and does not start with a hyphen. -/
def IsIdentifier (id : String) : Prop :=
  '.' ∉ id.toList ∧ id.toList.head? ≠ some '-'

def VariantKey.IsPlain : VariantKey → Prop
  | name _ => True
  | number text => Fluent.IsPlain text

mutual

inductive Inline.Plain : Inline → Prop
  | string (raw : String) : Inline.Plain (.string raw)
  | number (text : String) : Inline.Plain (.number text)
  | variable (name : String) : Inline.Plain (.variable name)
  | message {id : String} (attr : Option String) (hplain : IsPlain id) (hid : IsIdentifier id) :
      Inline.Plain (.message id attr)
  | term {id : String} (attr : Option String) {arguments : Option Arguments} (hid : IsIdentifier id)
      (h : ∀ given, arguments = some given → given.Plain) : Inline.Plain (.term id attr arguments)
  | function (name : String) {arguments : Arguments} (h : arguments.Plain) :
      Inline.Plain (.function name arguments)
  | placeable {expression : Expression} (h : expression.Plain) : Inline.Plain (.placeable expression)

inductive Arguments.Plain : Arguments → Prop
  | mk {positional : List Inline} {named : List (String × Inline)}
      (hpositional : ∀ value ∈ positional, value.Plain) (hnames : ∀ entry ∈ named, IsPlain entry.1)
      (hnamed : ∀ entry ∈ named, entry.2.Plain) : Arguments.Plain (.mk positional named)

inductive Expression.Plain : Expression → Prop
  | inline {value : Inline} (h : value.Plain) : Expression.Plain (.inline value)
  | select {selector : Inline} {variants : List Variant} (hselector : selector.Plain)
      (hvariants : ∀ variant ∈ variants, variant.Plain) : Expression.Plain (.select selector variants)

inductive Variant.Plain : Variant → Prop
  | mk {key : VariantKey} (isDefault : Bool) {value : List Element} (hkey : key.IsPlain)
      (hvalue : ∀ element ∈ value, element.Plain) : Variant.Plain (.mk key isDefault value)

inductive Element.Plain : Element → Prop
  | text (value : String) : Element.Plain (.text value)
  | placeable {expression : Expression} (h : expression.Plain) : Element.Plain (.placeable expression)

end

def PlainPattern (pattern : Pattern) : Prop :=
  ∀ element ∈ pattern, element.Plain

def PlainPattern? (pattern : Option Pattern) : Prop :=
  ∀ value, pattern = some value → PlainPattern value

def PlainAttributes (attributes : List (String × Pattern)) : Prop :=
  ∀ attr ∈ attributes, PlainPattern attr.2

/-- All patterns of the catalog have plain names. -/
structure Catalog.Plain (catalog : Catalog) : Prop where
  value : ∀ entry ∈ catalog.messages, PlainPattern? entry.2.value
  attributes : ∀ entry ∈ catalog.messages, PlainAttributes entry.2.attributes
  termValue : ∀ entry ∈ catalog.terms, PlainPattern entry.2.value
  termAttributes : ∀ entry ∈ catalog.terms, PlainAttributes entry.2.attributes

theorem not_mem_delimiters_of_isAlphanum {c : Char} (h : c.isAlphanum = true) : c ∉ delimiters :=
  not_mem_delimiters (by decide) h

theorem not_mem_delimiters_of_isDigit {c : Char} (h : c.isDigit = true) : c ∉ delimiters :=
  not_mem_delimiters (by decide) h

/-- Every result of a reader has a property. -/
def Reads {α β : Type} (P : α → Prop) (reading : Except Stop (α × β)) : Prop :=
  ∀ value rest, reading = .ok (value, rest) → P value

section

variable {α β γ δ : Type} {P : α → Prop} {Q : γ → Prop}

theorem reads_error (stop : Stop) : Reads P (.error stop : Except Stop (α × β)) := by
  intro value rest h
  cases h

theorem reads_ok {value : α} {rest : β} (h : P value) :
    Reads P (.ok (value, rest) : Except Stop (α × β)) := by
  rintro _ _ ⟨⟩
  exact h

theorem Reads.bind {reading : Except Stop (α × β)} {next : α × β → Except Stop (γ × δ)}
    (h : Reads P reading) (hnext : ∀ value rest, P value → Reads Q (next (value, rest))) :
    Reads Q (reading >>= next) := by
  cases reading with
  | error stop => exact reads_error stop
  | ok result =>
    obtain ⟨value, rest⟩ := result
    exact hnext value rest (h value rest rfl)

theorem Reads.map {reading : Except Stop (α × β)} {f : α × β → γ × δ} (h : Reads P reading)
    (hf : ∀ value rest, P value → Q (f (value, rest)).1) : Reads Q (reading.map f) := by
  cases reading with
  | error stop => exact reads_error stop
  | ok result =>
    obtain ⟨value, rest⟩ := result
    exact reads_ok (hf value rest (h value rest rfl))

end

theorem isPlain_of_readIdentifier (text : List Char) : Reads IsPlain (readIdentifier text) := by
  unfold readIdentifier
  split
  · exact reads_error _
  · rename_i c cs
    split
    · rename_i halpha
      apply reads_ok
      intro d hd
      rw [String.toList_ofList] at hd
      rcases List.mem_cons.mp hd with rfl | htail
      · apply not_mem_delimiters_of_isAlphanum
        simp [Char.isAlphanum, halpha]
      · have hchar := List.mem_takeWhile_imp htail
        simp only [isIdentifierChar, Bool.or_eq_true, beq_iff_eq] at hchar
        rcases hchar with (halphanum | rfl) | rfl
        · exact not_mem_delimiters_of_isAlphanum halphanum
        · decide
        · decide
    · exact reads_error _

theorem isIdentifier_of_readIdentifier (text : List Char) :
    Reads IsIdentifier (readIdentifier text) := by
  unfold readIdentifier
  split
  · exact reads_error _
  · rename_i c cs
    split
    · rename_i halpha
      apply reads_ok
      constructor
      · rw [String.toList_ofList]
        rintro hpoint
        rcases List.mem_cons.mp hpoint with rfl | htail
        · cases halpha
        · cases List.mem_takeWhile_imp htail
      · rw [String.toList_ofList, List.head?_cons]
        rintro ⟨⟩
        cases halpha
    · exact reads_error _

theorem readDigits_isDigit (text : List Char) :
    Reads (fun digits => ∀ d ∈ digits, d.isDigit = true) (readDigits text) := by
  unfold readDigits
  split
  · exact reads_error _
  · rename_i c cs
    split
    · rename_i hdigit
      apply reads_ok
      intro d hd
      rcases List.mem_cons.mp hd with rfl | htail
      · exact hdigit
      · exact List.mem_takeWhile_imp htail
    · exact reads_error _

theorem isPlain_of_readNumber (text : List Char) : Reads IsPlain (readNumber text) := by
  have hplain {digits : List Char} (h : ∀ d ∈ digits, d.isDigit = true ∨ d = '-' ∨ d = '.') :
      IsPlain (String.ofList digits) := by
    intro d hd
    rw [String.toList_ofList] at hd
    rcases h d hd with hdigit | rfl | rfl
    · exact not_mem_delimiters_of_isDigit hdigit
    · decide
    · decide
  unfold readNumber
  obtain ⟨negative, unsigned, h⟩ := skipOptional '-' text
  refine Reads.bind (readDigits_isDigit unsigned) ?_
  rintro digits ⟨rest, h'⟩ hdigits
  have hwhole : ∀ d ∈ (if negative then '-' :: digits else digits),
      d.isDigit = true ∨ d = '-' ∨ d = '.' := by
    intro d hd
    cases negative with
    | true =>
      rcases List.mem_cons.mp hd with rfl | htail
      · exact Or.inr (Or.inl rfl)
      · exact Or.inl (hdigits d htail)
    | false => exact Or.inl (hdigits d hd)
  dsimp only
  obtain ⟨point, afterPoint, h''⟩ := skipOptional '.' rest
  cases point with
  | true =>
    refine Reads.bind (readDigits_isDigit afterPoint) ?_
    intro fraction after hfraction
    apply reads_ok
    apply hplain
    intro d hd
    rcases List.mem_append.mp hd with hfront | hback
    · exact hwhole d hfront
    · rcases List.mem_cons.mp hback with rfl | htail
      · exact Or.inr (Or.inr rfl)
      · exact Or.inl (hfraction d htail)
  | false => exact reads_ok (hplain hwhole)

theorem isPlain_of_readVariantKey (text : List Char) :
    Reads VariantKey.IsPlain (readVariantKey text) := by
  unfold readVariantKey
  obtain ⟨start, h⟩ := skipBlank text
  dsimp only
  split
  · exact reads_error _
  · rename_i key rest _ hread
    have hkey : key.IsPlain := by
      cases start with
      | nil => exact (isPlain_of_readIdentifier []).map (fun _ _ _ => trivial) _ _ hread
      | cons c cs =>
        dsimp only at hread
        split at hread
        · exact (isPlain_of_readNumber _).map (fun _ _ h => h) _ _ hread
        · exact (isPlain_of_readIdentifier _).map (fun _ _ _ => trivial) _ _ hread
    split
    · exact reads_error _
    · exact reads_ok hkey

end TemplateMessages.Fluent
