import TemplateMessages.Proofs.Call.ArgumentParts
import TemplateMessages.Proofs.Markup.References
import TemplateMessages.Proofs.Template.AttributeEdits
import TemplateMessages.Proofs.Translation.MissingKeys

set_option autoImplicit false

/-!
# The value of a bound attribute after its edits

Code that takes the place of calls in a value has no quote of the kind that is around the value, so the
value ends where it ended and the tag around it is read as before. A value without quotes has no
quotes inside either, and no call without quotes is translated.
-/

namespace TemplateMessages.Template

open TemplateMessages.Call (Candidate FunctionNames)
open TemplateMessages.Expression (Quote)
open TemplateMessages.Markup
open TemplateMessages.Text
open TemplateMessages.Translation

variable {source chars rest inside : List Char} {region : Span} {tag : StartTag} {attr : Attribute}
  {value : AttributeValue} {read : TagText} {before behind : List AttributeText}
  {first : AttributeText} {old : ValueText} {names : FunctionNames}
  {translate : Candidate → Except TranslationError Replacement}

theorem callEdits_eq_nil_of_bare (translator : Translator) (context : Context)
    (hvalue : Covers 0 source value.span old.text)
    (hbare : ∀ c ∈ old.text, isBareValueChar c = true) :
    callEdits (translator.translate context)
      ((Site.binding attr value).calls source names) = [] := by
  apply List.eq_nil_iff_forall_not_mem.mpr
  intro edit hedit
  obtain ⟨call, hcall, replacement, htranslate, -⟩ := mem_callEdits.mp hedit
  cases hparse : Call.Arguments.parse call.arguments with
  | error error =>
    rw [error_of_parse hparse] at htranslate
    cases htranslate
  | ok arguments =>
    obtain ⟨quote, hquote⟩ := Call.exists_quote_of_parse hparse
    have hcontent : quote.toChar ∈ call.content.toList := (List.dropWhile_sublist _).subset
      (List.mem_of_mem_drop ((List.dropLast_sublist _).subset hquote))
    unfold Site.calls Site.inner at hcall
    rw [hvalue.slice_eq] at hcall
    obtain ⟨front, after, hwhole, -⟩ := Call.covers_of_mem_candidates hcall
    have hmem : quote.toChar ∈ old.text := by
      rw [← hwhole]
      exact List.mem_append_left _ (List.mem_append_right _ hcontent)
    have hchar := hbare _ hmem
    cases quote <;> exact absurd hchar (by decide)

theorem not_mem_of_rewritten {quote : Quote} {edits : List Edit} (hback : quote ≠ .back)
    (hquote : value.quote = some quote) (hmem : quote.toChar ∉ old.text)
    (h : Rewritten value.span.start old.text (edits.map (Site.binding attr value).fitted) inside) :
    quote.toChar ∉ inside := by
  intro hinside
  rcases h.mem_output hinside with htext | ⟨edit, hedit, hreplacement⟩
  · exact hmem htext
  · obtain ⟨found, -, rfl⟩ := List.mem_map.mp hedit
    rw [Site.fitted, hquote] at hreplacement
    exact not_mem_escapeQuote hback _ hreplacement

theorem rereadTag?_withText {edits : List Edit}
    (hat : AttributeAt source region tag attr read before first behind)
    (hcovers : Covers 0 source ⟨tag.span.start, region.stop⟩ (read.chars ++ rest))
    (hstands : read.StandsBefore rest) (hold : first.value = some old)
    (h : Rewritten (old.locate (attr.span.start + byteLength first.name)).span.start old.text edits
      inside)
    (hquoted : ∀ quote, old.quote = some quote → quote.toChar ∉ inside)
    (hbare : old.quote = none → edits = []) :
    rereadTag? source edits tag.span.start region.stop =
      some (read.withAttribute before { first with value := some { old with text := inside } }
        behind) := by
  rw [hat.located] at h
  refine rereadTag?_of_standsBefore hcovers
    (rewritten_withAttribute hat.attributes (rewritten_value hold h)) ?_
  obtain hquote | ⟨quote, hquote⟩ := Option.eq_none_or_eq_some old.quote
  · rw [hbare hquote] at h
    have hsame : { first with value := some { old with text := old.text } } = first := by
      rw [← hold]
    rw [h.output_eq_of_nil, hsame, withAttribute_self hat.attributes]
    exact hstands
  · exact hstands.withText hat.attributes hold hquote (hquoted quote hquote)

/-- A bound attribute whose calls are replaced in place leaves its tag as it was, but for its value:
that is the old one with the code of each translated call in the place of the call, and the quotes
around the value as references. A value without quotes is never edited. -/
theorem rewritten_attribute_reread (translator : Translator) (context : Context)
    (hregion : Covers 0 source region chars)
    (htag : tag ∈ (scan source region).translatableTags)
    (hsite : Site.binding attr value ∈ tagSites tag) :
    let site := Site.binding attr value
    let translate := translator.translate context
    let edits := (resolve source translator.functions translate site).edits
    ∃ (read : TagText) (before : List AttributeText) (first : AttributeText)
      (behind : List AttributeText) (old : ValueText),
      AttributeAt source region tag attr read before first behind ∧ first.value = some old ∧
      value = old.locate (attr.span.start + byteLength first.name) ∧
      (value.quote = none → edits = []) ∧
      (collapsed? source translator.functions translate site = none ∨ attr.dynamic = true →
        ∃ inside,
          Rewritten value.span.start old.text
            ((callEdits translate (site.calls source translator.functions)).map fun edit =>
              ⟨edit.span, escapeQuote value.quote edit.replacement⟩) inside ∧
          rereadTag? source edits tag.span.start region.stop =
            some (read.withAttribute before
              { first with value := some { old with text := inside } } behind)) := by
  intro site translate edits
  obtain ⟨read, rest, before, first, behind, old, hat, hcovers, hstands, hold, hvalue⟩ :=
    exists_attributeAt hregion htag hsite
  have hinside : Covers 0 source value.span old.text := by
    rw [hvalue]
    exact hat.covers_value hcovers hold
  have hends : EndsValue old.quote old.text _ := (hat.standsBefore hstands).value old hold |>.ends
  have hquote : value.quote = old.quote := by rw [hvalue]; rfl
  have hbare : value.quote = none → callEdits translate
      (site.calls source translator.functions) = [] := by
    intro hnone
    rw [← hquote, hnone] at hends
    exact callEdits_eq_nil_of_bare translator context hinside hends.2.1
  refine ⟨read, before, first, behind, old, hat, hold, hvalue, ?_, ?_⟩
  · intro hnone
    have hedits := resolve_eq source translator.functions translate site
    dsimp only at hedits
    rw [hbare hnone] at hedits
    exact congrArg Outcome.edits hedits
  · intro hstays
    have hexpression : Covers 0 source site.inner old.text := hinside
    obtain ⟨inside, hrewritten⟩ := rewritten_callEdits translator.functions translate hexpression
      site.fitted site.span_fitted
    refine ⟨inside, hrewritten, ?_⟩
    have hedits : edits = _ := edits_binding_of_bound hstays
    rw [hedits]
    refine rereadTag?_withText hat hcovers hstands hold (hvalue ▸ hrewritten) ?_ ?_
    · intro quote hsome
      rw [hsome] at hends
      exact not_mem_of_rewritten hends.1 (hquote.trans hsome) hends.2 hrewritten
    · intro hnone
      rw [hbare (hquote.trans hnone)]
      rfl

def quotingMessage : Translator :=
  ⟨.catalog [("en", [("k", "a \x22b\x22")])], [("t", .translate)]⟩

def quotingSource : List Char :=
  "<p :a=\x22t('k') + x\x22 b>y</p>".toList

def quotingValue : AttributeValue :=
  ⟨⟨7, 17⟩, "t('k') + x", some .double⟩

def quotingAttribute : Attribute :=
  ⟨⟨3, 18⟩, ":a", some quotingValue, false⟩

def quotingTag : StartTag :=
  ⟨⟨0, 21⟩, "p", [quotingAttribute, ⟨⟨19, 20⟩, "b", none, false⟩], false, true, false⟩

/-- The tag with that text in its first attribute. -/
def quotingTagText (inside : String) : TagText where
  name := ['p']
  attributes := [⟨[' '], ":a".toList, some ⟨['='], some .double, inside.toList⟩, false⟩,
    ⟨[' '], ['b'], none, false⟩]
  close := .plain
  closeChars := ['>']

theorem rewritten_attribute_reread_quotingMessage :
    let translate := quotingMessage.translate ⟨"en", "en", []⟩
    let site := Site.binding quotingAttribute quotingValue
    let edits := (resolve quotingSource quotingMessage.functions translate site).edits
    Covers 0 quotingSource ⟨0, 26⟩ quotingSource ∧
      quotingTag ∈ (scan quotingSource ⟨0, 26⟩).translatableTags ∧ site ∈ tagSites quotingTag ∧
      readTagAt? quotingSource 0 26 = some (quotingTagText "t('k') + x") ∧
      rereadTag? quotingSource edits 0 26 =
        some (quotingTagText "'a &quot;b&quot;' + x") := by
  intro translate site edits
  have hregion : Covers 0 quotingSource ⟨0, 26⟩ quotingSource :=
    ⟨[], [], by simp, by decide⟩
  have htag : quotingTag ∈ (scan quotingSource ⟨0, 26⟩).translatableTags := by
    decide +kernel
  have hsite : site ∈ tagSites quotingTag := by decide
  have hread : readTagAt? quotingSource 0 26 = some (quotingTagText "t('k') + x") := by
    decide +kernel
  have hcalls : callEdits translate (site.calls quotingSource quotingMessage.functions) =
      [⟨⟨7, 13⟩, "'a \x22b\x22'"⟩] := by
    decide +kernel
  have hstays : collapsed? quotingSource quotingMessage.functions translate site = none := by
    decide +kernel
  obtain ⟨read, before, first, behind, old, hat, hold, -, -, hreread⟩ :=
    rewritten_attribute_reread quotingMessage ⟨"en", "en", []⟩ hregion htag hsite
  obtain ⟨inside, hrewritten, hresult⟩ := hreread (.inl hstays)
  refine ⟨hregion, htag, hsite, hread, hresult.trans ?_⟩
  obtain rfl := Option.some.inj (hat.isRead.symm.trans hread)
  -- only the first attribute has a value
  rcases before with _ | ⟨other, _ | ⟨third, before⟩⟩
  · obtain ⟨rfl, rfl⟩ := List.cons.inj hat.attributes
    obtain rfl := Option.some.inj hold
    have hinside := hrewritten.splice_eq
    rw [hcalls] at hinside
    have hsplice : Edit.splice 7 "t('k') + x".toList
        [⟨⟨7, 13⟩, escapeQuote (some .double) "'a \x22b\x22'"⟩] =
          "'a &quot;b&quot;' + x".toList := by
      decide +kernel
    rw [show inside = "'a &quot;b&quot;' + x".toList from hinside.symm.trans hsplice]
    rfl
  · obtain ⟨-, hbehind⟩ := List.cons.inj hat.attributes
    obtain ⟨rfl, -⟩ := List.cons.inj hbehind
    cases hold
  · have hlength := congrArg List.length hat.attributes
    simp [quotingTagText] at hlength

end TemplateMessages.Template
