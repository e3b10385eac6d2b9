import TemplateMessages.Proofs.Markup.TagSpans
import TemplateMessages.Proofs.Text.Validity

set_option autoImplicit false

/-!
# Start tags are read without loss

The characters of a start tag are its name, its attributes with the white space in front of them and
its end, one behind the other in the source: nothing is skipped between them and nothing is read
twice.
-/

namespace TemplateMessages.Markup

open TemplateMessages.Expression (Quote)
open TemplateMessages.Text
open TagText (attributeChars)

structure AttributeValue.Lexed (source : List Char) (outer : Span) (value : AttributeValue) :
    Prop where
  within : value.span.Within outer
  text : Covers 0 source value.span value.text.toList
  quoted : ∀ quote, value.quote = some quote →
    quote.toChar ∉ value.text.toList ∧
      Covers 0 source ⟨value.span.stop, outer.stop⟩ [quote.toChar]
  bare : value.quote = none → value.span.stop = outer.stop

structure Attribute.Lexed (source : List Char) (attr : Attribute) : Prop where
  start_lt_stop : attr.span.start < attr.span.stop
  name : ∃ more, Covers 0 source attr.span (attr.name.toList ++ more)
  value : ∀ value, attr.value = some value → value.Lexed source attr.span

inductive AttributeRun (source : List Char) :
    (position : Nat) → List Attribute → (stop : Nat) → (chars : List Char) → Prop
  | nil (position : Nat) : AttributeRun source position [] position []
  | cons {position stop : Nat} {attr : Attribute} {attrs : List Attribute}
      {blanks chars : List Char}
      (blank : ∀ c ∈ blanks, isBlank c = true)
      (gap : Covers 0 source ⟨position, attr.span.start⟩ blanks)
      (text : Covers 0 source attr.span (attr.span.slice source))
      (lexed : attr.Lexed source)
      (behind : AttributeRun source attr.span.stop attrs stop chars) :
      AttributeRun source position (attr :: attrs) stop (blanks ++ attr.span.slice source ++ chars)

def Close.Ends : Close → List Char → Prop
  | .plain, chars => ∃ blanks, (∀ c ∈ blanks, isBlank c = true) ∧ chars = blanks ++ ['>']
  | .selfClosing, chars =>
    ∃ blanks, (∀ c ∈ blanks, isBlank c = true) ∧ chars = blanks ++ ['/', '>']
  | .missing, chars => chars = []

structure TagText.Lexed (source : List Char) (position : Nat) (tag : TagText) : Prop where
  whole : ∃ chars,
    Covers 0 source ⟨position, position + byteLength tag.chars⟩
        ('<' :: tag.name ++ chars ++ tag.closeChars) ∧
      AttributeRun source (position + byteLength ('<' :: tag.name)) (tag.locate position)
        (position + byteLength ('<' :: tag.name ++ chars)) chars
  ends : tag.close.Ends tag.closeChars
  ascending : (tag.locate position).Pairwise fun a b => a.span.stop ≤ b.span.start

variable {source rest : List Char} {position stop : Nat} {value : ValueText}
  {attr : AttributeText} {attrs : List AttributeText} {tag : TagText}

theorem ValueText.locate_lexed (h : value.StandsBefore rest) {name : List Char} {outer : Span}
    (hcovers : Covers 0 source outer (name ++ value.chars)) :
    (value.locate (outer.start + byteLength name)).Lexed source outer := by
  have hinside : Covers 0 source
      ⟨(value.locate (outer.start + byteLength name)).span.start, outer.stop⟩
      (value.text ++ value.quoteChars) := by
    rw [ValueText.chars, List.append_assoc, List.append_assoc] at hcovers
    exact hcovers.tail.tail.tail
  have hquote : Covers 0 source
      ⟨(value.locate (outer.start + byteLength name)).span.stop, outer.stop⟩ value.quoteChars :=
    hinside.tail
  refine ⟨⟨?_, hquote.start_le_stop⟩, ?_, fun quote hsome => ?_, fun hnone => ?_⟩
  · exact Nat.le_trans (Nat.le_add_right _ _)
      (Nat.le_trans (Nat.le_add_right _ _) (Nat.le_add_right _ _))
  · rw [ValueText.locate, String.toList_ofList]
    exact hinside.split.1
  · replace hsome : value.quote = some quote := hsome
    have hends := h.ends
    simp only [ValueText.quoteChars, hsome] at hquote
    simp only [hsome, EndsValue] at hends
    rw [ValueText.locate, String.toList_ofList]
    exact ⟨hends.2, hquote⟩
  · replace hnone : value.quote = none := hnone
    simp only [ValueText.quoteChars, hnone] at hquote
    exact hquote.stop_eq.symm

theorem AttributeText.locate_stop (attr : AttributeText) (position : Nat) :
    (attr.locate position).span.stop = position + byteLength attr.chars := by
  rw [AttributeText.chars, add_byteLength_append]
  rfl

theorem AttributeText.locate_lexed (h : attr.StandsBefore rest)
    (hcovers : Covers 0 source (attr.locate position).span attr.body) :
    (attr.locate position).Lexed source := by
  refine ⟨?_, ⟨attr.valueChars, ?_⟩, fun value hvalue => ?_⟩
  · obtain ⟨c, cs, hname, -⟩ := h.head_name
    exact Nat.lt_add_of_pos_right (byteLength_pos (by simp [AttributeText.body, hname]))
  · rw [AttributeText.locate, String.toList_ofList]
    exact hcovers
  · obtain ⟨found, hfound, rfl⟩ := Option.map_eq_some_iff.mp hvalue
    rw [AttributeText.body, hfound] at hcovers
    exact ValueText.locate_lexed (h.value found hfound) hcovers

theorem attributeRun_of_stand (h : AttributesStand attrs rest)
    (hcovers : Covers 0 source ⟨position, stop⟩ (attributeChars attrs)) :
    AttributeRun source position (locateAttributes position attrs) stop (attributeChars attrs) := by
  induction attrs generalizing position with
  | nil =>
    obtain rfl : stop = position := hcovers.stop_eq
    exact .nil stop
  | cons attr attrs ih =>
    rw [attributeChars_cons] at hcovers ⊢
    have hattr : Covers 0 source (attr.locate position).span attr.body :=
      (hcovers.trans (Covers.head position attr.chars _)).trans (attr.covers_locate position)
    have hgap : Covers 0 source ⟨position, (attr.locate position).span.start⟩ attr.blanks := by
      rw [AttributeText.chars, List.append_assoc] at hcovers
      exact hcovers.split.1
    have hbehind : AttributeRun source (attr.locate position).span.stop
        (locateAttributes (position + byteLength attr.chars) attrs) stop
        (attributeChars attrs) := by
      rw [attr.locate_stop]
      exact ih h.2 hcovers.tail
    -- the characters of the attribute are the slice at its span
    have hslice := hattr.slice_eq
    rw [AttributeText.chars, ← hslice]
    exact .cons h.1.blanks hgap (hslice ▸ hattr) (AttributeText.locate_lexed h.1 hattr) hbehind

theorem ends_of_readClose (text : List Char) :
    (readClose text).1.Ends (readClose text).2.1 := by
  have hblanks : ∀ c ∈ text.takeWhile isBlank, isBlank c = true :=
    fun c hc => List.mem_takeWhile_imp hc
  unfold readClose
  split
  · exact ⟨_, hblanks, rfl⟩
  · exact ⟨_, hblanks, rfl⟩
  · rfl

theorem TagText.StandsBefore.lexed (h : tag.StandsBefore rest)
    (hcovers : Covers 0 source ⟨position, position + byteLength tag.chars⟩ tag.chars) :
    tag.Lexed source position := by
  have hends := ends_of_readClose (tag.closeChars ++ rest)
  rw [h.close] at hends
  have hattributes : Covers 0 source ⟨position + byteLength ('<' :: tag.name),
      position + byteLength ('<' :: tag.name ++ attributeChars tag.attributes)⟩
      (attributeChars tag.attributes) :=
    hcovers.split.1.tail
  exact ⟨⟨attributeChars tag.attributes, hcovers, attributeRun_of_stand h.attributes hattributes⟩,
    hends, locateAttributes_ascending _ _⟩

/-- A start tag that is read where the source can be cut stands there without loss and does not
reach over the limit. The reading of attributes ends because each one takes a character. -/
theorem lexed_of_readTagAt? {start limit : Nat} (hspan : (⟨start, limit⟩ : Span).Valid source)
    (h : readTagAt? source start limit = some tag) :
    tag.Lexed source start ∧ start + byteLength tag.chars ≤ limit ∧
      ∀ text attr after, readAttribute? text = some (attr, after) →
        after.length < text.length := by
  obtain ⟨⟨read, rest⟩, hread, rfl⟩ := Option.map_eq_some_iff.mp h
  have hcovers := hspan.covers_slice
  rw [← append_of_readTag? hread] at hcovers
  exact ⟨(standsBefore_of_readTag? hread).lexed hcovers.split.1, hcovers.tail.start_le_stop,
    fun _ _ _ => length_lt_of_readAttribute?⟩

/-- A tag behind another character, with a dynamic argument and a quote of the other kind in a
value. -/
def dynamicSource : List Char :=
  "é<p :[ключ]='ü\x22' b=x c/>ä".toList

def dynamicTag : TagText where
  name := ['p']
  attributes := [⟨[' '], ":[ключ]".toList, some ⟨['='], some .single, "ü\x22".toList⟩, true⟩,
    ⟨[' '], ['b'], some ⟨['='], none, ['x']⟩, false⟩, ⟨[' '], ['c'], none, false⟩]
  close := .selfClosing
  closeChars := ['/', '>']

theorem lexed_dynamicTag :
    (⟨2, 32⟩ : Span).Valid dynamicSource ∧ readTagAt? dynamicSource 2 32 = some dynamicTag ∧
      dynamicTag.Lexed dynamicSource 2 ∧
      (dynamicTag.locate 2).map (·.span.slice dynamicSource) =
        [":[ключ]='ü\x22'".toList, "b=x".toList, ['c']] := by
  have hspan : (⟨2, 32⟩ : Span).Valid dynamicSource :=
    .of_boundaries (by decide) (by decide +kernel) (by decide +kernel)
  have hread : readTagAt? dynamicSource 2 32 = some dynamicTag := by
    decide +kernel
  exact ⟨hspan, hread, (lexed_of_readTagAt? hspan hread).1, by decide +kernel⟩

end TemplateMessages.Markup
