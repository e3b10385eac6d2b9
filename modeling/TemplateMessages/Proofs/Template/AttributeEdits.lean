import TemplateMessages.Proofs.Markup.TagSpans
import TemplateMessages.Proofs.Template.Parts

set_option autoImplicit false

/-!
# The edits of one attribute

With the edits of one bound attribute carried out, another text stands where its start tag stood, and
nothing else has changed. So the tag that is read there is what is read in that text.
-/

namespace TemplateMessages.Template

open TemplateMessages.Call (Candidate FunctionNames)
open TemplateMessages.Markup
open TemplateMessages.Markup.TagText (attributeChars)
open TemplateMessages.Text
open TemplateMessages.Translation

/-- The start tag at a place of a text once the edits are carried out in it. The place to which it is
read moves with the text in front. -/
def rereadTag? (source : List Char) (edits : List Edit) (start limit : Nat) : Option TagText :=
  let edited := Edit.applyAll edits source
  readTagAt? edited start (limit + byteLength edited - byteLength source)

def attributePlace (start : Nat) (read : TagText) (before : List AttributeText) : Nat :=
  start + byteLength ('<' :: read.name) + byteLength (attributeChars before)

/-- `read` is the start tag that stands where a scan has `tag`, and `first` is its attribute where
the scan has `attr`. -/
structure AttributeAt (source : List Char) (region : Span) (tag : StartTag) (attr : Attribute)
    (read : TagText) (before : List AttributeText) (first : AttributeText)
    (behind : List AttributeText) : Prop where
  isRead : readTagAt? source tag.span.start region.stop = some read
  token : ∃ frames, tag = read.token tag.span.start frames
  attributes : read.attributes = before ++ first :: behind
  located : attr = first.locate (attributePlace tag.span.start read before)

variable {source chars rest text output inside : List Char} {region : Span} {start limit : Nat}
  {tag : StartTag} {attr : Attribute} {value : AttributeValue} {read : TagText}
  {before behind : List AttributeText} {first first' : AttributeText} {old : ValueText}
  {edits : List Edit} {names : FunctionNames}
  {translate : Candidate → Except TranslationError Replacement}

theorem mem_of_mem_tagSites (h : Site.binding attr value ∈ tagSites tag) :
    attr ∈ tag.attributes ∧ attr.value = some value ∧ ∃ binding, attr.binding? = some binding := by
  obtain ⟨found, hfound, hsome⟩ := List.mem_filterMap.mp h
  split at hsome
  · rename_i binding inner hbinding hvalue
    cases hsome
    exact ⟨hfound, hvalue, binding, hbinding⟩
  · cases hsome

theorem exists_attributeAt (hregion : Covers 0 source region chars)
    (htag : tag ∈ (scan source region).translatableTags)
    (hsite : Site.binding attr value ∈ tagSites tag) :
    ∃ (read : TagText) (rest : List Char) (before : List AttributeText) (first : AttributeText)
      (behind : List AttributeText) (old : ValueText),
      AttributeAt source region tag attr read before first behind ∧
      Covers 0 source ⟨tag.span.start, region.stop⟩ (read.chars ++ rest) ∧
      read.StandsBefore rest ∧
      first.value = some old ∧ value = old.locate (attr.span.start + byteLength first.name) := by
  obtain ⟨frames, read, rest, hcovers, hstands, -, htoken⟩ :=
    exists_readTag?_of_mem_scan hregion (mem_translatableTags.mp htag).1
  obtain ⟨hattr, hvalue, -⟩ := mem_of_mem_tagSites hsite
  have hlocated : attr ∈ read.locate tag.span.start := by
    rw [htoken] at hattr
    exact hattr
  obtain ⟨before, first, behind, hattributes, rfl⟩ := exists_of_mem_locateAttributes hlocated
  obtain ⟨old, hold, rfl⟩ := Option.map_eq_some_iff.mp hvalue
  refine ⟨read, rest, before, first, behind, old, ⟨?_, ⟨frames, htoken⟩, hattributes, rfl⟩, hcovers,
    hstands, hold, rfl⟩
  rw [readTagAt?, hcovers.slice_eq, hstands.readTag?_eq]
  rfl

theorem AttributeAt.standsBefore (h : AttributeAt source region tag attr read before first behind)
    (hstands : read.StandsBefore rest) :
    first.StandsBefore (attributeChars behind ++ (read.closeChars ++ rest)) := by
  have hstand := hstands.attributes
  rw [h.attributes] at hstand
  exact hstand.standsBefore

theorem AttributeAt.covers_value (h : AttributeAt source region tag attr read before first behind)
    (hcovers : Covers 0 source ⟨tag.span.start, region.stop⟩ (read.chars ++ rest))
    (hvalue : first.value = some old) :
    Covers 0 source (old.locate (attr.span.start + byteLength first.name)).span old.text := by
  have hchars : read.chars ++ rest =
      ('<' :: read.name ++ attributeChars before ++ first.blanks ++ first.name ++ old.gap ++
        old.quoteChars) ++ old.text ++
      (old.quoteChars ++ attributeChars behind ++ read.closeChars ++ rest) := by
    simp [TagText.chars, h.attributes, AttributeText.chars, AttributeText.body, hvalue, ValueText.chars]
  refine hcovers.trans ⟨_, _, hchars.symm, ?_⟩
  rw [h.located]
  simp only [ValueText.locate, AttributeText.locate, attributePlace, byteLength_append,
    ← Nat.add_assoc]

theorem rereadTag?_eq (hcovers : Covers 0 source ⟨start, limit⟩ text)
    (h : Rewritten start text edits output) :
    rereadTag? source edits start limit = (readTag? output).map (·.1) := by
  obtain ⟨front, after, rfl, hspan⟩ := hcovers
  obtain ⟨rfl, rfl⟩ := Span.mk.inj hspan
  have hedited : Edit.applyAll edits (front ++ text ++ after) = front ++ output ++ after := by
    have hwhole := (h.behind front).append (.kept _ after)
    rw [List.append_nil] at hwhole
    exact hwhole.applyAll_eq
  have hspan : (⟨0 + byteLength front, 0 + byteLength front + byteLength text +
        byteLength (front ++ output ++ after) - byteLength (front ++ text ++ after)⟩ : Span) =
      ⟨0 + byteLength front, 0 + byteLength front + byteLength output⟩ := by
    simp only [byteLength_append, Span.mk.injEq, true_and]
    omega
  have houtput : Covers 0 (front ++ output ++ after)
      ⟨0 + byteLength front, 0 + byteLength front + byteLength output⟩ output :=
    ⟨front, after, rfl, rfl⟩
  rw [rereadTag?, hedited, readTagAt?, hspan, houtput.slice_eq]

theorem rereadTag?_of_standsBefore {read' : TagText}
    (hcovers : Covers 0 source ⟨start, limit⟩ (read.chars ++ rest))
    (h : Rewritten start read.chars edits read'.chars) (hstands : read'.StandsBefore rest) :
    rereadTag? source edits start limit = some read' := by
  have hwhole := h.append (.kept _ rest)
  rw [List.append_nil] at hwhole
  rw [rereadTag?_eq hcovers hwhole, hstands.readTag?_eq]
  rfl

theorem withAttribute_self (hattributes : read.attributes = before ++ first :: behind) :
    read.withAttribute before first behind = read := by
  rw [TagText.withAttribute, ← hattributes]

theorem rewritten_withAttribute (hattributes : read.attributes = before ++ first :: behind)
    (h : Rewritten (attributePlace start read before) first.chars edits first'.chars) :
    Rewritten start read.chars edits (read.withAttribute before first' behind).chars := by
  have hchars (attr : AttributeText) : (read.withAttribute before attr behind).chars =
      ('<' :: read.name) ++ (attributeChars before ++
        (attr.chars ++ (attributeChars behind ++ read.closeChars))) := by
    simp [TagText.withAttribute, TagText.chars]
  have hread : read.chars = (read.withAttribute before first behind).chars := by
    rw [withAttribute_self hattributes]
  have hrest := h.append (.kept _ (attributeChars behind ++ read.closeChars))
  rw [List.append_nil] at hrest
  rw [hread, hchars, hchars]
  exact (hrest.behind _).behind _

theorem rewritten_value {place : Nat} (hvalue : first.value = some old)
    (h : Rewritten (old.locate (place + byteLength first.blanks + byteLength first.name)).span.start
      old.text edits inside) :
    Rewritten place first.chars edits
      (AttributeText.chars { first with value := some { old with text := inside } }) := by
  have hchars (inside : List Char) :
      (AttributeText.chars { first with value := some { old with text := inside } }) =
        first.blanks ++ (first.name ++ (old.gap ++ (old.quoteChars ++
          (inside ++ old.quoteChars)))) := by
    simp [AttributeText.chars, AttributeText.body, ValueText.chars, ValueText.quoteChars]
  have hfirst : first = { first with value := some { old with text := old.text } } := by
    rw [← hvalue]
  have hclosed := h.append (.kept _ old.quoteChars)
  rw [List.append_nil] at hclosed
  rw [hfirst, hchars, hchars]
  exact (((hclosed.behind _).behind _).behind _).behind _

theorem edits_binding_of_bound
    (h : collapsed? source names translate (.binding attr value) = none ∨ attr.dynamic = true) :
    (resolve source names translate (.binding attr value)).edits =
      (callEdits translate ((Site.binding attr value).calls source names)).map
        (Site.binding attr value).fitted := by
  rw [edits_resolve_eq]
  rcases h with hnone | hdynamic
  · rw [hnone]
    rfl
  · obtain ⟨span, name, content, dynamic⟩ := attr
    obtain rfl : dynamic = true := hdynamic
    cases collapsed? source names translate (.binding ⟨span, name, content, true⟩ value) <;> rfl

theorem edits_binding_of_static (hdynamic : attr.dynamic = false) {text : String}
    (h : collapsed? source names translate (.binding attr value) = some text) :
    (resolve source names translate (.binding attr value)).edits =
      [⟨attr.span, attr.staticName ++ "=\x22" ++ escapeQuotes text ++ "\x22"⟩] := by
  rw [edits_resolve_eq, h]
  obtain ⟨span, name, content, dynamic⟩ := attr
  obtain rfl : dynamic = false := hdynamic
  rfl

end TemplateMessages.Template
