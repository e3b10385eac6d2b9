import TemplateMessages.Markup.Attribute
import TemplateMessages.Markup.Name

set_option autoImplicit false

/-!
# Start tags and end tags

A `TagText` is a start tag as it stands in the source. Its attributes are read for as long as there
is one; a tag that then does not close keeps what was read. Nothing of the source is lost.
-/

namespace TemplateMessages.Markup

open TemplateMessages.Text

inductive Close where
  | plain
  | selfClosing
  /-- Something else follows the attributes. -/
  | missing
  deriving DecidableEq, Repr, Inhabited

structure TagText where
  name : List Char
  attributes : List AttributeText
  close : Close
  closeChars : List Char
  deriving DecidableEq, Repr, Inhabited

namespace TagText

def attributeChars (attributes : List AttributeText) : List Char :=
  attributes.flatMap AttributeText.chars

def chars (tag : TagText) : List Char :=
  '<' :: tag.name ++ attributeChars tag.attributes ++ tag.closeChars

end TagText

def readAttributes (text : List Char) : List AttributeText × List Char :=
  match h : readAttribute? text with
  | none => ([], text)
  | some (attr, rest) =>
    have := length_lt_of_readAttribute? h
    let (attrs, after) := readAttributes rest
    (attr :: attrs, after)
termination_by text.length

def readClose (text : List Char) : Close × List Char × List Char :=
  match skipBlanks text with
  | '/' :: '>' :: rest => (.selfClosing, text.takeWhile isBlank ++ ['/', '>'], rest)
  | '>' :: rest => (.plain, text.takeWhile isBlank ++ ['>'], rest)
  | _ => (.missing, [], text)

def readTagOpen? : List Char → Option (List Char × List Char)
  | '<' :: rest => readQualifiedName? rest
  | _ => none

/-- The start tag at the start of a text, and the rest. -/
def readTag? (text : List Char) : Option (TagText × List Char) :=
  match readTagOpen? text with
  | none => none
  | some (name, rest) =>
    let (attributes, afterAttributes) := readAttributes rest
    let (close, closeChars, after) := readClose afterAttributes
    some (⟨name, attributes, close, closeChars⟩, after)

def locateAttributes (position : Nat) : List AttributeText → List Attribute
  | [] => []
  | attr :: attrs =>
    attr.locate position :: locateAttributes (position + byteLength attr.chars) attrs

/-- The attributes of a start tag that starts at `position`. -/
def TagText.locate (tag : TagText) (position : Nat) : List Attribute :=
  locateAttributes (position + byteLength ('<' :: tag.name)) tag.attributes

/-- An end tag at the start of a text: its name, its characters and the rest. All up to the next
`>` belongs to it. -/
def readEndTag? : List Char → Option (List Char × List Char × List Char)
  | '<' :: '/' :: inner =>
    match readQualifiedName? inner with
    | none => none
    | some (name, rest) =>
      match rest.dropWhile (· ≠ '>') with
      | '>' :: after => some (name, '<' :: '/' :: name ++ rest.takeWhile (· ≠ '>') ++ ['>'], after)
      | _ => none
  | _ => none

/-- The end tag of the element `name` when the text starts with it: its characters and the rest.
The name ends at white space or at `>`. -/
def readEndTagOf? (name text : List Char) : Option (List Char × List Char) :=
  let opening := '<' :: '/' :: name
  if opening.isPrefixOf text then
    let rest := text.drop opening.length
    match rest with
    | [] => none
    | c :: _ =>
      if c = '>' ∨ isBlank c then
        match rest.dropWhile (· ≠ '>') with
        | '>' :: after => some (opening ++ rest.takeWhile (· ≠ '>') ++ ['>'], after)
        | _ => none
      else none
  else none

def findEndTag? (name : List Char) : List Char → Option (List Char × List Char × List Char)
  | [] => none
  | c :: cs =>
    match readEndTagOf? name (c :: cs) with
    | some (tag, rest) => some ([], tag, rest)
    | none => (findEndTag? name cs).map fun (before, tag, rest) => (c :: before, tag, rest)

@[simp] theorem readAttributes_append (text : List Char) :
    TagText.attributeChars (readAttributes text).1 ++ (readAttributes text).2 = text := by
  fun_induction readAttributes text with
  | case1 => simp [TagText.attributeChars]
  | case2 text attr rest h _ attrs after heq ih =>
    rw [heq] at ih
    have := (append_of_readAttribute? h).1
    simp only [TagText.attributeChars, List.flatMap_cons, List.append_assoc] at ih ⊢
    rw [ih, this]

@[simp] theorem readClose_append (text : List Char) :
    (readClose text).2.1 ++ (readClose text).2.2 = text := by
  have whole : text.takeWhile isBlank ++ skipBlanks text = text := List.takeWhile_append_dropWhile
  unfold readClose
  split
  · rename_i h
    rw [h] at whole
    simpa using whole
  · rename_i h
    rw [h] at whole
    simpa using whole
  · simp

theorem append_of_readTag? {text rest : List Char} {tag : TagText}
    (h : readTag? text = some (tag, rest)) : tag.chars ++ rest = text := by
  unfold readTag? at h
  split at h
  · simp at h
  · rename_i name inner hopen
    unfold readTagOpen? at hopen
    split at hopen
    · rename_i body
      have named := append_of_readQualifiedName? hopen
      have attributes := readAttributes_append inner
      have closing := readClose_append (readAttributes inner).2
      simp only [Option.some.injEq, Prod.mk.injEq] at h
      obtain ⟨rfl, rfl⟩ := h
      simp only [TagText.chars, List.append_assoc, List.cons_append]
      rw [closing, attributes, named.1]
    · simp at hopen

theorem append_of_readEndTag? {text name chars rest : List Char}
    (h : readEndTag? text = some (name, chars, rest)) : chars ++ rest = text ∧ chars ≠ [] := by
  unfold readEndTag? at h
  split at h
  · rename_i inner
    split at h
    · simp at h
    · rename_i readName after hname
      split at h
      · rename_i last hdrop
        simp only [Option.some.injEq, Prod.mk.injEq] at h
        obtain ⟨rfl, rfl, rfl⟩ := h
        have named := append_of_readQualifiedName? hname
        have whole := List.takeWhile_append_dropWhile (p := fun c => decide (c ≠ '>')) (l := after)
        rw [hdrop] at whole
        refine ⟨?_, by simp⟩
        conv => rhs; rw [← named.1, ← whole]
        simp
      · simp at h
  · simp at h

theorem append_of_readEndTagOf? {name text chars rest : List Char}
    (h : readEndTagOf? name text = some (chars, rest)) : chars ++ rest = text ∧ chars ≠ [] := by
  unfold readEndTagOf? at h
  dsimp only at h
  split at h
  · rename_i hopening
    obtain ⟨tail, rfl⟩ := List.isPrefixOf_iff_prefix.mp hopening
    rw [List.drop_left] at h
    split at h
    · simp at h
    · rename_i c cs
      split at h
      · split at h
        · rename_i last hdrop
          simp only [Option.some.injEq, Prod.mk.injEq] at h
          obtain ⟨rfl, rfl⟩ := h
          have whole := List.takeWhile_append_dropWhile (p := fun c => decide (c ≠ '>'))
            (l := c :: cs)
          rw [hdrop] at whole
          refine ⟨?_, by simp⟩
          conv => rhs; rw [← whole]
          simp
        · simp at h
      · simp at h
  · simp at h

theorem append_of_findEndTag? {name text before chars rest : List Char}
    (h : findEndTag? name text = some (before, chars, rest)) :
    before ++ chars ++ rest = text ∧ chars ≠ [] := by
  induction text generalizing before with
  | nil => simp [findEndTag?] at h
  | cons c cs ih =>
    simp only [findEndTag?] at h
    split at h
    · rename_i found
      simp only [Option.some.injEq, Prod.mk.injEq] at h
      obtain ⟨rfl, rfl, rfl⟩ := h
      simpa using append_of_readEndTagOf? found
    · obtain ⟨⟨front, tag, tail⟩, inner, outer⟩ := Option.map_eq_some_iff.mp h
      simp only [Prod.mk.injEq] at outer
      obtain ⟨rfl, rfl, rfl⟩ := outer
      have := ih inner
      exact ⟨by simpa using this.1, this.2⟩

end TemplateMessages.Markup
