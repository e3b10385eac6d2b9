import TemplateMessages.Proofs.Markup.References
import TemplateMessages.Proofs.Template.AttributeEdits

set_option autoImplicit false

/-!
# A bound attribute that becomes static

The attribute that a constant value leaves is written as its name without the marker of the binding,
an equals sign and the text in double quotes. It is read as that attribute when something of the name
is left, when what is left is no dynamic name, and when the name of the tag does not go on in it.
-/

namespace TemplateMessages.Markup

open TemplateMessages.Expression (Quote)
open TemplateMessages.Text
open TagText (attributeChars)

/-- The name of an attribute, its value with the quotes around it, and whether it is dynamic. -/
def AttributeText.content (attr : AttributeText) :
    List Char × Option (Option Quote × List Char) × Bool :=
  (attr.name, attr.value.map fun value => (value.quote, value.text), attr.dynamic)

def TagText.content (tag : TagText) :
    List Char × List (List Char × Option (Option Quote × List Char) × Bool) × Close :=
  (tag.name, tag.attributes.map AttributeText.content, tag.close)

variable {blanks name inside rest : List Char} {tag : TagText} {attr : AttributeText}
  {before behind : List AttributeText}

@[simp] theorem staticText_chars (blanks name inside : List Char) :
    (staticText blanks name .double inside).chars =
      blanks ++ name ++ '=' :: ('\x22' :: (inside ++ ['\x22'])) := by
  simp [staticText, AttributeText.chars, AttributeText.body, ValueText.chars, ValueText.quoteChars,
    Quote.toChar]

theorem of_content_eq (h : attr.StandsBefore rest)
    (hcontent : attr.content = (staticText blanks name .double inside).content) :
    name ≠ [] ∧ readDynamicName? name = none := by
  simp only [AttributeText.content, staticText, Option.map_some, Prod.mk.injEq,
    Option.map_eq_some_iff] at hcontent
  obtain ⟨rfl, ⟨value, hvalue, -⟩, hdynamic⟩ := hcontent
  obtain ⟨c, cs, hname, -⟩ := h.head_name
  refine ⟨hname ▸ List.cons_ne_nil c cs, ?_⟩
  have hread := h.name
  have hchars : attr.valueChars = value.chars := by rw [AttributeText.valueChars, hvalue]; rfl
  rw [hdynamic, hchars] at hread
  obtain ⟨htrue, -⟩ | ⟨-, hnone, -⟩ := readAttributeName?_cases hread
  · cases htrue
  · rw [readDynamicName?_append (h.value value hvalue).endsNames] at hnone
    exact Option.map_eq_none_iff.mp hnone

/-- The name is read as it is where an attribute with the blanks in front of it stands. -/
structure NameStands (tag : TagText) (before : List AttributeText) (blanks name : List Char) :
    Prop where
  nonempty : name ≠ []
  plain : readDynamicName? name = none
  apart : before = [] → readQualifiedName? (tag.name ++ (blanks ++ name)) =
    some (tag.name, blanks ++ name)

theorem forall_mem_name (h : attr.StandsBefore rest) (hdynamic : attr.dynamic = false) :
    ∀ c ∈ attr.name, isAttributeNameChar c = true := by
  obtain ⟨htrue, -⟩ | ⟨-, -, -, hname, -⟩ := readAttributeName?_cases h.name
  · rw [hdynamic] at htrue
    cases htrue
  · exact hname

theorem inPlace_staticText {marker : List Char} (h : attr.StandsBefore rest)
    (hmarked : attr.name = marker ++ name) (hdynamic : attr.dynamic = false)
    (hmarker : ∃ c ∈ marker.head?, isBareValueChar c = true)
    (hstatic : (staticText attr.blanks name .double inside).StandsBefore rest) :
    InPlace (attr.chars ++ rest) ((staticText attr.blanks name .double inside).chars ++ rest) := by
  have hequals : decide ('=' ≠ '=') = false := by decide
  have hname := forall_mem_name h hdynamic
  refine ⟨?_, ?_, hstatic.head?_skipBlanks rest⟩
  · rw [attr.chars_append, staticText_chars]
    rcases attr.blanks with _ | ⟨c, blanks⟩
    · obtain ⟨c, hc, hbare⟩ := hmarker
      obtain ⟨more, rfl⟩ := List.head?_eq_some_iff.mp hc
      refine .inr ⟨c, ?_, hname c ?_, hbare⟩
      · rw [hmarked]
        rfl
      · rw [hmarked]
        exact List.mem_cons_self
    · exact .inl rfl
  · have hkept : ∀ c ∈ attr.blanks ++ attr.name, decide (c ≠ '=') = true := by
      intro c hc
      rw [decide_eq_true_eq]
      rintro rfl
      rcases List.mem_append.mp hc with hblank | hmem
      · exact absurd (h.blanks '=' hblank) (by decide)
      · exact absurd (hname '=' hmem) (by decide)
    rw [attr.chars_append, ← List.append_assoc, List.takeWhile_append_of_pos hkept, staticText_chars,
      List.append_assoc, List.cons_append, takeWhile_append_stop hequals]
    intro hmem
    refine List.mem_append_left _ ?_
    rw [hmarked]
    rcases List.mem_append.mp ((List.takeWhile_prefix _).subset hmem) with hblank | hrest
    · exact List.mem_append_left _ hblank
    · exact List.mem_append_right _ (List.mem_append_right _ hrest)

theorem readQualifiedName?_staticText (front blanks name inside rest : List Char) :
    readQualifiedName? (front ++ ((staticText blanks name .double inside).chars ++ rest)) =
      (readQualifiedName? (front ++ (blanks ++ name))).map fun (found, after) =>
        (found, after ++ ('=' :: ('\x22' :: (inside ++ ['\x22'])) ++ rest)) := by
  have hequals : isNameStart '=' = false ∧ isNameChar '=' = false := by decide
  rw [staticText_chars, List.append_assoc _ _ rest, ← List.append_assoc, List.cons_append,
    readQualifiedName?_append_stop hequals.1 hequals.2 (by decide)]

theorem TagText.StandsBefore.withStatic {marker : List Char} (h : tag.StandsBefore rest)
    (hattributes : tag.attributes = before ++ attr :: behind)
    (hmarked : attr.name = marker ++ name) (hdynamic : attr.dynamic = false)
    (hmarker : ∃ c ∈ marker.head?, isBareValueChar c = true)
    (hstands : NameStands tag before attr.blanks name) (hinside : '\x22' ∉ inside) :
    (tag.withAttribute before (staticText attr.blanks name .double inside)
      behind).StandsBefore rest := by
  have hattr := h.attributes
  rw [hattributes] at hattr
  have hattr := hattr.standsBefore
  have hname : ∀ c ∈ name, isAttributeNameChar c = true := by
    intro c hc
    refine forall_mem_name hattr hdynamic c ?_
    rw [hmarked]
    exact List.mem_append_right _ hc
  have hdouble : Quote.double ≠ .back := by decide
  have hstatic := staticText_standsBefore hattr.blanks hname hstands.nonempty hstands.plain
    hdouble hinside (attributeChars behind ++ (tag.closeChars ++ rest))
  refine h.withAttribute hattributes hstatic
    (inPlace_staticText hattr hmarked hdynamic hmarker hstatic) ?_
  intro hfirst
  rw [readQualifiedName?_staticText, hstands.apart hfirst, Option.map_some, staticText_chars]
  simp only [List.append_assoc, List.cons_append]

theorem nameStands_of_content_eq {found : TagText} {after : List Char}
    (hfound : found.StandsBefore after)
    (hchars : found.chars ++ after =
      (tag.withAttribute before (staticText blanks name .double inside) behind).chars ++ rest)
    (hcontent : found.content =
      (tag.withAttribute before (staticText blanks name .double inside) behind).content) :
    NameStands tag before blanks name := by
  simp only [TagText.content, TagText.withAttribute, Prod.mk.injEq] at hcontent
  obtain ⟨hname, hattributes, -⟩ := hcontent
  obtain ⟨before', tail, hfirst, -, htail⟩ := List.map_eq_append_iff.mp
    (hattributes.trans List.map_append)
  obtain ⟨attr, behind', rfl, hattr, -⟩ := List.map_eq_cons_iff.mp (htail.trans List.map_cons)
  have hstand := hfound.attributes
  rw [hfirst] at hstand
  obtain ⟨hne, hplain⟩ := of_content_eq hstand.standsBefore hattr
  refine ⟨hne, hplain, ?_⟩
  rintro rfl
  have hread := hfound.name
  rw [found.chars_append, TagText.chars_append, hname] at hchars
  have hrest := List.append_cancel_left (List.cons.inj hchars).2
  unfold TagText.withAttribute at hrest
  rw [hname, hrest, List.nil_append, attributeChars_cons, List.append_assoc,
    readQualifiedName?_staticText] at hread
  obtain ⟨⟨other, more⟩, hother, heq⟩ := Option.map_eq_some_iff.mp hread
  obtain rfl : other = tag.name := (Prod.mk.inj heq).1
  have hwhole := (append_of_readQualifiedName? hother).1
  rw [hother, List.append_cancel_left hwhole]

end TemplateMessages.Markup

namespace TemplateMessages.Template

open TemplateMessages.Call (Candidate FunctionNames)
open TemplateMessages.Markup
open TemplateMessages.Text
open TemplateMessages.Translation

variable {source chars rest : List Char} {region : Span} {tag : StartTag} {attr : Attribute}
  {value : AttributeValue} {read : TagText} {before behind : List AttributeText}
  {first : AttributeText} {names : FunctionNames}
  {translate : Candidate → Except TranslationError Replacement}

theorem marker_append_staticName {binding : Binding} (h : attr.binding? = some binding) :
    attr.name.toList = binding.marker.toList ++ attr.staticName.toList := by
  have hprefix := List.find?_some h
  obtain ⟨tail, htail⟩ := List.isPrefixOf_iff_prefix.mp hprefix
  unfold Attribute.staticName
  rw [h]
  dsimp only
  rw [String.toList_ofList, ← htail, ← String.length_toList, List.drop_left]

theorem exists_head_marker (binding : Binding) :
    ∃ c ∈ binding.marker.toList.head?, isBareValueChar c = true := by
  cases binding
  · exact ⟨':', rfl, by decide⟩
  · exact ⟨'.', rfl, by decide⟩
  · exact ⟨'v', rfl, by decide⟩

theorem rewritten_static (hat : AttributeAt source region tag attr read before first behind)
    (text : String) :
    Rewritten (attributePlace tag.span.start read before) first.chars
      [⟨attr.span, attr.staticName ++ "=\x22" ++ text ++ "\x22"⟩]
      (staticText first.blanks attr.staticName.toList .double text.toList).chars := by
  have hwhole := Rewritten.whole
    (attributePlace tag.span.start read before + byteLength first.blanks) first.body
    (attr.staticName ++ "=\x22" ++ text ++ "\x22")
  have hspan : attr.span = _ := congrArg Attribute.span hat.located
  have houtput : (attr.staticName ++ "=\x22" ++ text ++ "\x22").toList =
      attr.staticName.toList ++ '=' :: ('\x22' :: (text.toList ++ ['\x22'])) := by
    simp
  rw [houtput] at hwhole
  rw [hspan, staticText_chars, List.append_assoc]
  exact hwhole.behind first.blanks

/-- A bound attribute that is constant is read as the static one just when the name stands there. -/
theorem collapsed_attribute_reread_iff (hregion : Covers 0 source region chars)
    (htag : tag ∈ (scan source region).translatableTags)
    (hsite : Site.binding attr value ∈ tagSites tag) (hdynamic : attr.dynamic = false)
    {text : String}
    (hcollapsed : collapsed? source names translate (.binding attr value) = some text) :
    let edits := (resolve source names translate (.binding attr value)).edits
    ∃ (read : TagText) (before : List AttributeText) (first : AttributeText)
      (behind : List AttributeText),
      AttributeAt source region tag attr read before first behind ∧
      ((rereadTag? source edits tag.span.start region.stop).map TagText.content =
          some (read.withAttribute before
            (staticText first.blanks attr.staticName.toList .double (escapeQuotes text).toList)
            behind).content ↔
        NameStands read before first.blanks attr.staticName.toList) := by
  intro edits
  obtain ⟨read, rest, before, first, behind, old, hat, hcovers, hstands, -, -⟩ :=
    exists_attributeAt hregion htag hsite
  obtain ⟨-, -, binding, hbinding⟩ := mem_of_mem_tagSites hsite
  have hedits : edits =
      [⟨attr.span, attr.staticName ++ "=\x22" ++ escapeQuotes text ++ "\x22"⟩] :=
    edits_binding_of_static hdynamic hcollapsed
  have hrewritten := rewritten_withAttribute hat.attributes
    (rewritten_static hat (escapeQuotes text))
  rw [← hedits] at hrewritten
  refine ⟨read, before, first, behind, hat, ?_, ?_⟩
  · intro hcontent
    have hwhole := hrewritten.append (.kept _ rest)
    rw [List.append_nil] at hwhole
    rw [rereadTag?_eq hcovers hwhole, Option.map_map] at hcontent
    obtain ⟨⟨found, after⟩, hread, hfound⟩ := Option.map_eq_some_iff.mp hcontent
    exact nameStands_of_content_eq (standsBefore_of_readTag? hread) (append_of_readTag? hread) hfound
  · intro hname
    have hmarked : first.name = binding.marker.toList ++ attr.staticName.toList := by
      have hname : attr.name = String.ofList first.name := congrArg Attribute.name hat.located
      rw [← marker_append_staticName hbinding, hname, String.toList_ofList]
    have hplain : first.dynamic = false := by
      rw [← hdynamic]
      exact (congrArg Attribute.dynamic hat.located).symm
    have hstatic := hstands.withStatic hat.attributes hmarked hplain (exists_head_marker binding)
      hname (not_mem_escapeQuotes text)
    rw [rereadTag?_of_standsBefore hcovers hrewritten hstatic]
    rfl

def greeting : Translator :=
  ⟨.catalog [("en", [("k", "Hi")])], [("t", .translate)]⟩

def bareMarkerSource : List Char :=
  "<p :=\x22t('k')\x22>x</p>".toList

def bareMarkerValue : AttributeValue :=
  ⟨⟨6, 12⟩, "t('k')", some .double⟩

def bareMarker : Attribute :=
  ⟨⟨3, 13⟩, ":", some bareMarkerValue, false⟩

def bareMarkerTag : StartTag :=
  ⟨⟨0, 14⟩, "p", [bareMarker], false, true, false⟩

theorem collapsed_attribute_reread_iff_bareMarker :
    let translate := greeting.translate ⟨"en", "en", []⟩
    let site := Site.binding bareMarker bareMarkerValue
    let edits := (resolve bareMarkerSource greeting.functions translate site).edits
    let reread := (rereadTag? bareMarkerSource edits 0 19).map TagText.content
    Covers 0 bareMarkerSource ⟨0, 19⟩ bareMarkerSource ∧
      bareMarkerTag ∈ (scan bareMarkerSource ⟨0, 19⟩).translatableTags ∧
      site ∈ tagSites bareMarkerTag ∧
      collapsed? bareMarkerSource greeting.functions translate site = some "Hi" ∧
      Edit.applyAll edits bareMarkerSource = "<p =\x22Hi\x22>x</p>".toList ∧
      reread ≠ some (['p'], [([], some (some .double, "Hi".toList), false)], .plain) := by
  intro translate site edits reread
  have hregion : Covers 0 bareMarkerSource ⟨0, 19⟩ bareMarkerSource :=
    ⟨[], [], by simp, by decide⟩
  have htag : bareMarkerTag ∈ (scan bareMarkerSource ⟨0, 19⟩).translatableTags := by
    decide +kernel
  have hsite : site ∈ tagSites bareMarkerTag := by decide
  have hcollapsed : collapsed? bareMarkerSource greeting.functions translate site = some "Hi" := by
    decide +kernel
  have hread : readTagAt? bareMarkerSource 0 19 = some ⟨['p'],
      [⟨[' '], [':'], some ⟨['='], some .double, "t('k')".toList⟩, false⟩], .plain, ['>']⟩ := by
    decide +kernel
  obtain ⟨read, before, first, behind, hat, hiff⟩ :=
    collapsed_attribute_reread_iff hregion htag hsite rfl hcollapsed
  refine ⟨hregion, htag, hsite, hcollapsed, by decide +kernel, fun hreread => ?_⟩
  obtain rfl := Option.some.inj (hat.isRead.symm.trans hread)
  have hone : before = [] ∧ behind = [] := by
    have hlength := congrArg List.length hat.attributes
    simp only [List.length_append, List.length_cons, List.length_nil] at hlength
    exact ⟨List.eq_nil_of_length_eq_zero (by omega), List.eq_nil_of_length_eq_zero (by omega)⟩
  obtain ⟨rfl, rfl⟩ := hone
  exact (hiff.mp hreread).nonempty rfl

end TemplateMessages.Template
