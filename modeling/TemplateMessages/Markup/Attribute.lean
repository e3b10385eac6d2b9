import TemplateMessages.Expression.Nesting
import TemplateMessages.Text.Blank
import TemplateMessages.Text.Search
import TemplateMessages.Text.Span
import TemplateMessages.Text.Word

set_option autoImplicit false

/-!
# Attributes of a start tag

An `AttributeText` is an attribute as it stands in the source, cut into its parts; nothing of the
source is lost. An `Attribute` is the same attribute with the spans of its parts.
-/

namespace TemplateMessages.Markup

open TemplateMessages.Expression (Quote)
open TemplateMessages.Text

/-- The value of an attribute. -/
structure ValueText where
  gap : List Char
  quote : Option Quote
  text : List Char
  deriving DecidableEq, Repr, Inhabited

namespace ValueText

def quoteChars (value : ValueText) : List Char :=
  match value.quote with
  | some quote => [quote.toChar]
  | none => []

/-- The value as it stands in the source. -/
def chars (value : ValueText) : List Char :=
  value.gap ++ value.quoteChars ++ value.text ++ value.quoteChars

end ValueText

structure AttributeText where
  blanks : List Char
  name : List Char
  value : Option ValueText
  dynamic : Bool
  deriving DecidableEq, Repr, Inhabited

namespace AttributeText

def body (attr : AttributeText) : List Char :=
  attr.name ++ (attr.value.map ValueText.chars).getD []

def chars (attr : AttributeText) : List Char :=
  attr.blanks ++ attr.body

end AttributeText

def isAttributeNameChar (c : Char) : Bool :=
  !isBlank c && c != '\x22' && c != '\x27' && c != '<' && c != '>' && c != '/' && c != '='

def isBareValueChar (c : Char) : Bool :=
  !isBlank c && c != '\x22' && c != '\x27' && c != '=' && c != '<' && c != '>' && c != '\x60'

def readQuoted? (quote : Char) : List Char → Option (List Char × List Char)
  | [] => none
  | c :: cs =>
    if c = quote then some ([], cs)
    else (readQuoted? quote cs).map fun (value, rest) => (c :: value, rest)

def readBareValue? : List Char → Option (Option Quote × List Char × List Char)
  | [] => none
  | c :: cs =>
    if c = Quote.double.toChar then
      (readQuoted? c cs).map fun (value, rest) => (some .double, value, rest)
    else if c = Quote.single.toChar then
      (readQuoted? c cs).map fun (value, rest) => (some .single, value, rest)
    else if isBareValueChar c then
      some (none, c :: cs.takeWhile isBareValueChar, cs.dropWhile isBareValueChar)
    else none

def readValue? (text : List Char) : Option (ValueText × List Char) :=
  match skipBlanks text with
  | '=' :: afterEquals =>
    match readBareValue? (skipBlanks afterEquals) with
    | some (quote, value, rest) =>
      some (⟨text.takeWhile isBlank ++ '=' :: afterEquals.takeWhile isBlank, quote, value⟩, rest)
    | none => none
  | _ => none

/-- What marks an attribute name with a dynamic argument, in front of its bracket: `@`, `:`, `#`, or
a directive such as `v-bind:`. -/
def readDirective? : List Char → Option (List Char × List Char)
  | 'v' :: '-' :: rest =>
    let isDirectiveChar (c : Char) : Bool := isWordChar c || c == '-'
    match rest.takeWhile isDirectiveChar, rest.dropWhile isDirectiveChar with
    | c :: cs, ':' :: after => some ('v' :: '-' :: c :: cs ++ [':'], after)
    | _, _ => none
  | c :: rest => if c = '@' ∨ c = ':' ∨ c = '#' then some ([c], rest) else none
  | [] => none

/-- The longest bracketed argument that holds no equals sign and is not empty, after its opening
bracket. -/
def readArgument? (text : List Char) : Option (List Char × List Char) :=
  let run := text.takeWhile (· ≠ '=')
  let tail := run.reverse.takeWhile (· ≠ ']')
  match run.reverse.dropWhile (· ≠ ']') with
  | _ :: c :: inside =>
    some ((c :: inside).reverse ++ [']'], tail.reverse ++ text.dropWhile (· ≠ '='))
  | _ => none

def readDynamicName? (text : List Char) : Option (List Char × List Char) :=
  match readDirective? text with
  | some (directive, '[' :: rest) =>
    match readArgument? rest with
    | some (argument, after) =>
      some (directive ++ '[' :: argument ++ after.takeWhile isAttributeNameChar,
        after.dropWhile isAttributeNameChar)
    | none => none
  | _ => none

def readAttributeName? (text : List Char) : Option (List Char × Bool × List Char) :=
  match readDynamicName? text with
  | some (name, rest) => some (name, true, rest)
  | none =>
    match text with
    | [] => none
    | c :: cs =>
      if isAttributeNameChar c then
        some (c :: cs.takeWhile isAttributeNameChar, false, cs.dropWhile isAttributeNameChar)
      else none

/-- The next attribute and the rest. A value that cannot be read is no part of the attribute. -/
def readAttribute? (text : List Char) : Option (AttributeText × List Char) :=
  match readAttributeName? (skipBlanks text) with
  | none => none
  | some (name, dynamic, rest) =>
    match readValue? rest with
    | some (value, after) => some (⟨text.takeWhile isBlank, name, some value, dynamic⟩, after)
    | none => some (⟨text.takeWhile isBlank, name, none, dynamic⟩, rest)

theorem append_of_readQuoted? {quote : Char} {text value rest : List Char}
    (h : readQuoted? quote text = some (value, rest)) : value ++ quote :: rest = text := by
  induction text generalizing value with
  | nil => simp [readQuoted?] at h
  | cons c cs ih =>
    simp only [readQuoted?] at h
    split at h
    · simp_all
    · obtain ⟨⟨front, tail⟩, inner, outer⟩ := Option.map_eq_some_iff.mp h
      simp only [Prod.mk.injEq] at outer
      obtain ⟨rfl, rfl⟩ := outer
      simpa using ih inner

theorem append_of_readBareValue? {text value rest : List Char} {quote : Option Quote}
    (h : readBareValue? text = some (quote, value, rest)) :
    (ValueText.chars ⟨[], quote, value⟩) ++ rest = text := by
  cases text with
  | nil => simp [readBareValue?] at h
  | cons c cs =>
    simp only [readBareValue?] at h
    split at h
    · obtain ⟨⟨front, tail⟩, inner, outer⟩ := Option.map_eq_some_iff.mp h
      simp only [Prod.mk.injEq] at outer
      obtain ⟨rfl, rfl, rfl⟩ := outer
      rename_i hc
      have := append_of_readQuoted? inner
      simp [ValueText.chars, ValueText.quoteChars, ← hc, ← this]
    · split at h
      · obtain ⟨⟨front, tail⟩, inner, outer⟩ := Option.map_eq_some_iff.mp h
        simp only [Prod.mk.injEq] at outer
        obtain ⟨rfl, rfl, rfl⟩ := outer
        rename_i _ hc
        have := append_of_readQuoted? inner
        simp [ValueText.chars, ValueText.quoteChars, ← hc, ← this]
      · split at h
        · simp only [Option.some.injEq, Prod.mk.injEq] at h
          obtain ⟨rfl, rfl, rfl⟩ := h
          simp [ValueText.chars, ValueText.quoteChars]
        · simp at h

theorem append_of_readValue? {text rest : List Char} {value : ValueText}
    (h : readValue? text = some (value, rest)) : value.chars ++ rest = text := by
  unfold readValue? at h
  split at h
  · rename_i afterEquals hskip
    split at h
    · rename_i quote inner after hvalue
      simp only [Option.some.injEq, Prod.mk.injEq] at h
      obtain ⟨rfl, rfl⟩ := h
      have part := append_of_readBareValue? hvalue
      have blanks : text.takeWhile isBlank ++ '=' :: afterEquals = text := by
        rw [← hskip]
        exact List.takeWhile_append_dropWhile
      have more : afterEquals.takeWhile isBlank ++ skipBlanks afterEquals = afterEquals :=
        List.takeWhile_append_dropWhile
      simp only [ValueText.chars, ValueText.quoteChars, List.nil_append] at part ⊢
      conv => rhs; rw [← blanks, ← more, ← part]
      simp
    · simp at h
  · simp at h

theorem append_of_readDirective? {text directive rest : List Char}
    (h : readDirective? text = some (directive, rest)) :
    directive ++ rest = text ∧ directive ≠ [] := by
  unfold readDirective? at h
  split at h
  · rename_i inner
    dsimp only at h
    split at h
    · rename_i c cs after htake hdrop
      simp only [Option.some.injEq, Prod.mk.injEq] at h
      obtain ⟨rfl, rfl⟩ := h
      have whole :=
        List.takeWhile_append_dropWhile (p := fun c => isWordChar c || c == '-') (l := inner)
      rw [htake, hdrop] at whole
      refine ⟨?_, by simp⟩
      rw [← whole]
      simp
    · simp at h
  · split at h
    · simp only [Option.some.injEq, Prod.mk.injEq] at h
      obtain ⟨rfl, rfl⟩ := h
      simp
    · simp at h
  · simp at h

theorem append_of_readArgument? {text argument rest : List Char}
    (h : readArgument? text = some (argument, rest)) : argument ++ rest = text := by
  unfold readArgument? at h
  dsimp only at h
  split at h
  · rename_i last c inside hdrop
    simp only [Option.some.injEq, Prod.mk.injEq] at h
    obtain ⟨rfl, rfl⟩ := h
    have hlast : last = ']' := by
      have :=
        List.head?_dropWhile_not (fun c => decide (c ≠ ']')) (text.takeWhile (· ≠ '=')).reverse
      rw [hdrop] at this
      simpa using this
    subst hlast
    have run := List.takeWhile_append_dropWhile (p := fun c => decide (c ≠ ']'))
      (l := (text.takeWhile (· ≠ '=')).reverse)
    rw [hdrop] at run
    have run := congrArg List.reverse run
    simp only [List.reverse_append, List.reverse_cons, List.reverse_reverse,
      List.append_assoc] at run
    have whole := List.takeWhile_append_dropWhile (p := fun c => decide (c ≠ '=')) (l := text)
    rw [← run] at whole
    conv => rhs; rw [← whole]
    simp
  · simp at h

theorem append_of_readDynamicName? {text name rest : List Char}
    (h : readDynamicName? text = some (name, rest)) : name ++ rest = text ∧ name ≠ [] := by
  unfold readDynamicName? at h
  split at h
  · rename_i directive inner hdirective
    split at h
    · rename_i argument after hargument
      simp only [Option.some.injEq, Prod.mk.injEq] at h
      obtain ⟨rfl, rfl⟩ := h
      have front := append_of_readDirective? hdirective
      have middle := append_of_readArgument? hargument
      refine ⟨?_, by simp⟩
      rw [← front.1, ← middle]
      simp
    · simp at h
  · simp at h

theorem append_of_readAttributeName? {text name rest : List Char} {dynamic : Bool}
    (h : readAttributeName? text = some (name, dynamic, rest)) :
    name ++ rest = text ∧ name ≠ [] := by
  unfold readAttributeName? at h
  split at h
  · rename_i hdynamic
    simp only [Option.some.injEq, Prod.mk.injEq] at h
    obtain ⟨rfl, rfl, rfl⟩ := h
    exact append_of_readDynamicName? hdynamic
  · split at h
    · simp at h
    · split at h
      · simp only [Option.some.injEq, Prod.mk.injEq] at h
        obtain ⟨rfl, rfl, rfl⟩ := h
        simp
      · simp at h

theorem append_of_readAttribute? {text rest : List Char} {attr : AttributeText}
    (h : readAttribute? text = some (attr, rest)) :
    attr.chars ++ rest = text ∧ attr.name ≠ [] := by
  unfold readAttribute? at h
  split at h
  · simp at h
  · rename_i name dynamic inner hname
    have named := append_of_readAttributeName? hname
    have blanks : text.takeWhile isBlank ++ skipBlanks text = text :=
      List.takeWhile_append_dropWhile
    split at h
    · rename_i value after hvalue
      simp only [Option.some.injEq, Prod.mk.injEq] at h
      obtain ⟨rfl, rfl⟩ := h
      have valued := append_of_readValue? hvalue
      refine ⟨?_, named.2⟩
      conv => rhs; rw [← blanks, ← named.1, ← valued]
      simp [AttributeText.chars, AttributeText.body]
    · simp only [Option.some.injEq, Prod.mk.injEq] at h
      obtain ⟨rfl, rfl⟩ := h
      refine ⟨?_, named.2⟩
      conv => rhs; rw [← blanks, ← named.1]
      simp [AttributeText.chars, AttributeText.body]

theorem length_lt_of_readAttribute? {text rest : List Char} {attr : AttributeText}
    (h : readAttribute? text = some (attr, rest)) : rest.length < text.length := by
  obtain ⟨whole, nonempty⟩ := append_of_readAttribute? h
  have := List.length_pos_iff.mpr nonempty
  rw [← whole]
  simp only [AttributeText.chars, AttributeText.body, List.length_append]
  omega

structure AttributeValue where
  span : Span
  text : String
  quote : Option Quote
  deriving DecidableEq, Repr, Inhabited

structure Attribute where
  span : Span
  name : String
  value : Option AttributeValue
  dynamic : Bool
  deriving DecidableEq, Repr, Inhabited

inductive Binding where
  | colon
  | point
  | directive
  deriving DecidableEq, Repr, Inhabited

def Binding.marker : Binding → String
  | colon => ":"
  | point => "."
  | directive => "v-bind:"

def Binding.ofName? (name : String) : Option Binding :=
  [Binding.colon, Binding.point, Binding.directive].find? fun binding =>
    binding.marker.toList.isPrefixOf name.toList

namespace Attribute

def binding? (attr : Attribute) : Option Binding :=
  Binding.ofName? attr.name

def staticName (attr : Attribute) : String :=
  match attr.binding? with
  | some binding => String.ofList (attr.name.toList.drop binding.marker.length)
  | none => attr.name

def valueText (attr : Attribute) : String :=
  match attr.value with
  | some value => value.text
  | none => ""

end Attribute

/-- The value with its span, the attribute name ending at `position`. -/
def ValueText.locate (value : ValueText) (position : Nat) : AttributeValue :=
  let start := position + byteLength value.gap + byteLength value.quoteChars
  ⟨⟨start, start + byteLength value.text⟩, String.ofList value.text, value.quote⟩

/-- The attribute with its spans, its white space starting at `position`. -/
def AttributeText.locate (attr : AttributeText) (position : Nat) : Attribute :=
  let start := position + byteLength attr.blanks
  { span := ⟨start, start + byteLength attr.body⟩
    name := String.ofList attr.name
    value := attr.value.map fun value =>
      value.locate (start + byteLength attr.name)
    dynamic := attr.dynamic }

end TemplateMessages.Markup
