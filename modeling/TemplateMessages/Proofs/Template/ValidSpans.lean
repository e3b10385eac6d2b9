import TemplateMessages.Proofs.Markup.TagSpans
import TemplateMessages.Proofs.Template.Accounting
import TemplateMessages.Proofs.Text.Composition
import TemplateMessages.Proofs.Text.Validity

set_option autoImplicit false

/-!
# The spans of a template are valid

`Computes` names the spans that are computed while a region of a source is transformed, each with
the text that it is a span of: the source, or the expression of a site, where calls are found and
edits are tried out. All of them are valid, and so is every place that is located for a reader.
-/

namespace TemplateMessages.Template

open TemplateMessages.Call (Candidate FunctionNames)
open TemplateMessages.Markup
open TemplateMessages.Text
open TemplateMessages.Translation

def Site.ownEdits (source : List Char) (names : FunctionNames)
    (translate : Candidate → Except TranslationError Replacement) (site : Site) : List Edit :=
  (callEdits translate (site.calls source names)).map (Edit.movedBack site.inner.start)

inductive Locates (source : List Char) (region : Span) (names : FunctionNames)
    (translate : Candidate → Except TranslationError Replacement) : (position : Nat) → Prop
  | skipped {call : SkippedCall}
      (member : call ∈ (resolveRegion source region names translate).skipped) :
      Locates source region names translate call.candidate.span.start

/-- A span of a text that is computed while a region of a source is transformed, with `others`
carried out beside its edits. -/
inductive Computes (source : List Char) (region : Span) (names : FunctionNames)
    (translate : Candidate → Except TranslationError Replacement) (others : List Edit) :
    (text : List Char) → Span → Prop
  | rest {position : Nat} {frames : List Frame} {text : List Char}
      (reached : ScanReached source region position frames text) :
      Computes source region names translate others source ⟨position, region.stop⟩
  | token {token : Token} (member : token ∈ (scan source region).tokens) :
      Computes source region names translate others source token.span
  | tagAttribute {tag : StartTag} {attr : Attribute} {span : Span}
      (token : Token.startTag tag ∈ (scan source region).tokens) (member : attr ∈ tag.attributes)
      (part : span ∈ attr.spans) : Computes source region names translate others source span
  | readAttribute {position : Nat} {frames : List Frame} {text rest : List Char} {tag : TagText}
      {attr : Attribute} {span : Span} (reached : ScanReached source region position frames text)
      (read : readTag? text = some (tag, rest)) (member : attr ∈ tag.locate position)
      (part : span ∈ attr.spans) : Computes source region names translate others source span
  | interpolation {run : Span} {expression : Interpolation}
      (member : run ∈ (scan source region).translatableText)
      (found : expression ∈ interpolationsFrom run.start (run.slice source)) :
      Computes source region names translate others source expression.whole
  | expression {site : Site} (member : site ∈ sites source region) :
      Computes source region names translate others source site.inner
  | candidate {call : Candidate} (member : call ∈ callsOf source region names) :
      Computes source region names translate others source call.span
  | ownCandidate {site : Site} {call : Candidate} (member : site ∈ sites source region)
      (found : call ∈ site.calls source names) :
      Computes source region names translate others (site.inner.slice source)
        ⟨call.span.start - site.inner.start, call.span.stop - site.inner.start⟩
  | ownEdit {site : Site} {edit : Edit} (member : site ∈ sites source region)
      (found : edit ∈ site.ownEdits source names translate) :
      Computes source region names translate others (site.inner.slice source) edit.span
  | ownCopied {site : Site} {span : Span} (member : site ∈ sites source region)
      (found : span ∈ Edit.copied (site.inner.slice source)
        (site.ownEdits source names translate)) :
      Computes source region names translate others (site.inner.slice source) span
  | edit {edit : Edit} (member : edit ∈ (resolveRegion source region names translate).edits) :
      Computes source region names translate others source edit.span
  | copied {span : Span} (found : span ∈ Edit.copied source
        ((resolveRegion source region names translate).edits ++ others)) :
      Computes source region names translate others source span
  | column {position : Nat} (located : Locates source region names translate position) :
      Computes source region names translate others source
        ((LineIndex.ofText source).columnSpan position)
  | line {line : Nat} {span : Span}
      (found : (LineIndex.ofText source).lineSpan? (byteLength source) line = some span) :
      Computes source region names translate others source span

variable {source chars : List Char} {region : Span} {names : FunctionNames}
  {translate : Candidate → Except TranslationError Replacement} {others : List Edit} {site : Site}

theorem covers_inner_of_mem_sites (hregion : Covers 0 source region chars)
    (hsite : site ∈ sites source region) : ∃ inner, Covers 0 source site.inner inner := by
  obtain ⟨_, inner, hwhole, hinner⟩ := (placed_of_mem_sites hregion hsite).covers
  exact ⟨inner, hwhole.trans hinner⟩

theorem ownCandidate_valid {call : Candidate} (hcall : call ∈ site.calls source names) :
    (⟨call.span.start - site.inner.start, call.span.stop - site.inner.start⟩ : Span).Valid
      (site.inner.slice source) :=
  (Call.covers_of_mem_candidates hcall).valid_movedBack

theorem ownEdit_valid {edit : Edit}
    (hedit : edit ∈ site.ownEdits source names translate) :
    edit.span.Valid (site.inner.slice source) := by
  obtain ⟨found, hfound, rfl⟩ := List.mem_map.mp hedit
  obtain ⟨call, hcall, replacement, _, rfl⟩ := mem_callEdits.mp hfound
  exact ownCandidate_valid hcall

theorem covers_of_mem_edits (hregion : Covers 0 source region chars) {edit : Edit}
    (hedit : edit ∈ (resolveRegion source region names translate).edits) :
    ∃ old, Covers 0 source edit.span old :=
  ((replaceable_of_mem_edits hedit).placed hregion).1

theorem Locates.isBoundary (hregion : Covers 0 source region chars) {position : Nat}
    (h : Locates source region names translate position) : IsBoundary source position := by
  obtain ⟨hmember⟩ := h
  rw [skipped_resolveRegion] at hmember
  exact (covers_of_mem_callsOf hregion (mem_failedCalls.mp hmember).1).1.valid.start

theorem Computes.valid (hregion : Covers 0 source region chars)
    (hothers : ∀ edit ∈ others, edit.span.Valid source) {text : List Char} {span : Span}
    (h : Computes source region names translate others text span) : span.Valid text := by
  obtain ⟨last, htiled⟩ := scan_tiled hregion
  cases h with
  | rest reached => exact (reached.covers hregion).valid
  | token member =>
    obtain ⟨_, htoken, _⟩ := htiled.covers member
    exact (hregion.trans htoken).valid
  | tagAttribute token member part =>
    obtain ⟨_, hinside⟩ := htiled.covers_of_mem_spans token member part
    exact (hregion.trans hinside).valid
  | readAttribute reached read member part =>
    obtain ⟨_, hinside⟩ := covers_of_readTag? read member part
    exact ((reached.covers hregion).trans hinside).valid
  | interpolation member found =>
    obtain ⟨_, _, hwhole, _⟩ :=
      (placed_of_mem_textSites hregion member (List.mem_map_of_mem found)).1.covers
    exact hwhole.valid
  | expression member =>
    obtain ⟨_, hinner⟩ := covers_inner_of_mem_sites hregion member
    exact hinner.valid
  | candidate member => exact (covers_of_mem_callsOf hregion member).1.valid
  | ownCandidate _ found => exact ownCandidate_valid found
  | ownEdit _ found => exact ownEdit_valid found
  | ownCopied _ found => exact (Edit.applyAll_eq_pieces fun _ => ownEdit_valid).1 _ found
  | edit member =>
    obtain ⟨_, hold⟩ := covers_of_mem_edits hregion member
    exact hold.valid
  | copied found =>
    refine (Edit.applyAll_eq_pieces fun edit hedit => ?_).1 _ found
    rcases List.mem_append.mp hedit with hmember | hother
    · obtain ⟨_, hold⟩ := covers_of_mem_edits hregion hmember
      exact hold.valid
    · exact hothers edit hother
  | column located => exact LineIndex.columnSpan_valid (located.isBoundary hregion)
  | line found => exact LineIndex.lineSpan_valid found

end TemplateMessages.Template
