import TemplateMessages.Proofs.Template.Accounting
import TemplateMessages.Template.Transform

set_option autoImplicit false

/-!
# A run that stops at the first missing translation

`resolveInOrder` goes through the sites of a template and through the calls of each site, one behind
the other. Where missing translations are errors it stops at the first one, in the middle of a site,
and nothing behind it is looked at. A region is transformed by that run: what `transformRegion` says
after the fact about the skipped calls is what the run does on the way.
-/

namespace TemplateMessages.Template

open TemplateMessages.Call (Candidate FunctionNames)
open TemplateMessages.Text
open TemplateMessages.Translation

def translateInOrder (onMissing : OnMissing)
    (translate : Candidate → Except TranslationError Replacement) :
    List Candidate → Except SkippedCall (List Translated)
  | [] => .ok []
  | call :: calls =>
    match translate call with
    | .ok replacement =>
      (translateInOrder onMissing translate calls).map ((call, .ok replacement) :: ·)
    | .error error =>
      if onMissing = .error ∧ error.isMissing = true then .error ⟨call, error⟩
      else (translateInOrder onMissing translate calls).map ((call, .error error) :: ·)

def Site.settle (source : List Char) (site : Site) (calls : List Translated) : Outcome :=
  let edits := calls.filterMap callEdit?
  let literal :=
    if calls.all mayCollapse then constantText? source site.inner edits else .none
  { edits := if edits.isEmpty then [] else site.edits edits literal
    skipped := calls.filterMap skippedCall?
    recognized := calls.length
    translated := edits.length }

/-- What becomes of the sites, up to the first call that ends the run. -/
def resolveInOrder (onMissing : OnMissing) (source : List Char) (names : FunctionNames)
    (translate : Candidate → Except TranslationError Replacement) :
    List Site → Except SkippedCall Outcome
  | [] => .ok Outcome.none
  | site :: sites =>
    (translateInOrder onMissing translate (site.calls source names)).bind fun calls =>
      (resolveInOrder onMissing source names translate sites).map
        (site.settle source calls).append

/-- A result that stands unless a missing translation among the skipped calls is an error. -/
def unlessMissing {α : Type} (onMissing : OnMissing) (skipped : List SkippedCall) (result : α) :
    Except SkippedCall α :=
  match if onMissing = .error then skipped.find? (·.error.isMissing) else none with
  | some call => .error call
  | none => .ok result

section

variable {α β γ : Type} {onMissing : OnMissing} {skipped more : List SkippedCall}

@[simp] theorem unlessMissing_skip (skipped : List SkippedCall) (result : α) :
    unlessMissing .skip skipped result = .ok result :=
  rfl

@[simp] theorem unlessMissing_nil (onMissing : OnMissing) (result : α) :
    unlessMissing onMissing [] result = .ok result := by
  cases onMissing <;> rfl

@[simp] theorem unlessMissing_cons (call : SkippedCall) (result : α) :
    unlessMissing onMissing (call :: skipped) result =
      if onMissing = .error ∧ call.error.isMissing = true then .error call
      else unlessMissing onMissing skipped result := by
  cases onMissing with
  | skip => rfl
  | error =>
    unfold unlessMissing
    cases hmissing : call.error.isMissing <;> simp [hmissing]

theorem map_unlessMissing (f : α → β) (result : α) :
    (unlessMissing onMissing skipped result).map f = unlessMissing onMissing skipped (f result) := by
  unfold unlessMissing
  split <;> rfl

theorem unlessMissing_append (combine : α → β → γ) (first : α) (second : β) :
    unlessMissing onMissing (skipped ++ more) (combine first second) =
      (unlessMissing onMissing skipped first).bind fun value =>
        (unlessMissing onMissing more second).map (combine value) := by
  induction skipped with
  | nil => rw [List.nil_append, unlessMissing_nil, Except.bind, map_unlessMissing]
  | cons call skipped ih =>
    rw [List.cons_append, unlessMissing_cons, unlessMissing_cons, ih]
    split <;> rfl

/-- Where missing translations are errors, either one of the skipped calls is the error, or none of
them is missing. -/
theorem unlessMissing_error_cases (skipped : List SkippedCall) (result : α) :
    (∃ call ∈ skipped, call.error.isMissing = true ∧
      unlessMissing .error skipped result = .error call) ∨
    ((∀ call ∈ skipped, call.error.isMissing = false) ∧
      unlessMissing .error skipped result = .ok result) := by
  induction skipped with
  | nil => exact Or.inr ⟨by simp, rfl⟩
  | cons call skipped ih =>
    rw [unlessMissing_cons]
    cases hmissing : call.error.isMissing with
    | true => exact Or.inl ⟨call, List.mem_cons_self, hmissing, by simp⟩
    | false =>
      simp only [Bool.false_eq_true, and_false, ↓reduceIte]
      obtain ⟨found, hfound, hfoundMissing, heq⟩ | ⟨hnone, heq⟩ := ih
      · exact Or.inl ⟨found, List.mem_cons_of_mem _ hfound, hfoundMissing, heq⟩
      · exact Or.inr ⟨List.forall_mem_cons.mpr ⟨hmissing, hnone⟩, heq⟩

end

section

variable {source : List Char} {names : FunctionNames}
  {translate : Candidate → Except TranslationError Replacement}

theorem translateInOrder_eq (onMissing : OnMissing) (calls : List Candidate) :
    translateInOrder onMissing translate calls =
      unlessMissing onMissing (failedCalls translate calls)
        (calls.map fun call => (call, translate call)) := by
  induction calls with
  | nil => exact (unlessMissing_nil onMissing _).symm
  | cons call calls ih =>
    rw [translateInOrder, ih, List.map_cons]
    obtain ⟨replacement, hcall, _, hfailed⟩ | ⟨error, hcall, _, hfailed⟩ :=
      calls_cons translate call calls
    · rw [hcall, hfailed]
      exact map_unlessMissing _ _
    · rw [hcall, hfailed, unlessMissing_cons]
      dsimp only
      rw [map_unlessMissing]

theorem settle_eq_resolve (site : Site) :
    site.settle source ((site.calls source names).map fun call => (call, translate call)) =
      resolve source names translate site := by
  unfold Site.settle resolve Site.calls
  rw [List.length_map]

theorem resolveInOrder_eq (onMissing : OnMissing) (sites : List Site) :
    resolveInOrder onMissing source names translate sites =
      unlessMissing onMissing
        (Outcome.all (sites.map (resolve source names translate))).skipped
        (Outcome.all (sites.map (resolve source names translate))) := by
  induction sites with
  | nil => exact (unlessMissing_nil onMissing _).symm
  | cons site sites ih =>
    have hskipped : (Outcome.all ((site :: sites).map (resolve source names translate))).skipped =
        failedCalls translate (site.calls source names) ++
          (Outcome.all (sites.map (resolve source names translate))).skipped := by
      rw [List.map_cons, Outcome.all, List.foldr_cons, Outcome.append, resolve_eq]
      rfl
    -- the calls of the first site come before those of the others, so its missing one ends the run
    rw [resolveInOrder, ih, translateInOrder_eq, hskipped, List.map_cons]
    change _ = unlessMissing _ _ ((resolve source names translate site).append _)
    rw [← settle_eq_resolve]
    exact (unlessMissing_append (fun calls later => (site.settle source calls).append later) _
      _).symm

def missingTranslation (source : List Char) (lines : LineIndex) (call : SkippedCall) :
    TransformError :=
  .missingTranslation (lines.location source call.candidate.span.start) call.candidate.content
    call.error

def sortedIssues (source : List Char) (lines : LineIndex) (file : String)
    (skipped : List SkippedCall) : List Report.Issue :=
  ((skipped.map (skippedIssue source lines file)).mergeSort fun a b => a.1.le b.1).map (·.2)

theorem mem_sortedIssues {lines : LineIndex} {file : String} {skipped : List SkippedCall}
    {issue : Report.Issue} :
    issue ∈ sortedIssues source lines file skipped ↔
      ∃ call ∈ skipped, issue = (skippedIssue source lines file call).2 := by
  unfold sortedIssues
  simp only [List.mem_map, List.mem_mergeSort]
  constructor
  · rintro ⟨_, ⟨call, hcall, rfl⟩, rfl⟩
    exact ⟨call, hcall, rfl⟩
  · rintro ⟨call, hcall, rfl⟩
    exact ⟨_, ⟨call, hcall, rfl⟩, rfl⟩

theorem transformRegion_eq_resolveInOrder (lines : LineIndex) (region : Span) (options : Options)
    (translator : Translator) (context : Context) :
    transformRegion source lines region options translator context =
      ((resolveInOrder options.onMissing source translator.functions
        (translator.translate context) (sites source region)).mapError
          (missingTranslation source lines)).map fun outcome =>
            (outcome, sortedIssues source lines options.file outcome.skipped) := by
  rw [resolveInOrder_eq]
  unfold transformRegion unlessMissing missingError? resolveRegion
  cases options.onMissing with
  | skip => rfl
  | error =>
    simp only [↓reduceIte]
    cases (Outcome.all ((sites source region).map (resolve source translator.functions
      (translator.translate context)))).skipped.find? (·.error.isMissing) <;> rfl

/-- Of two runs over a region, one skips missing translations and the other one stops at them. The
latter stops at a call that the former skips, or it does the same and meets no missing one. -/
theorem transformRegion_beside (lines : LineIndex) (region : Span) (options : Options)
    (translator : Translator) (context : Context) :
    ∃ outcome issues,
      transformRegion source lines region { options with onMissing := .skip } translator context =
        .ok (outcome, issues) ∧
      issues = sortedIssues source lines options.file outcome.skipped ∧
      ((∃ call ∈ outcome.skipped, call.error.isMissing = true ∧
        transformRegion source lines region { options with onMissing := .error } translator
          context = .error (missingTranslation source lines call)) ∨
      ((∀ call ∈ outcome.skipped, call.error.isMissing = false) ∧
        transformRegion source lines region { options with onMissing := .error } translator
          context = .ok (outcome, issues))) := by
  rw [transformRegion_eq_resolveInOrder, transformRegion_eq_resolveInOrder]
  dsimp only
  rw [resolveInOrder_eq, resolveInOrder_eq, unlessMissing_skip]
  refine ⟨_, _, rfl, rfl, ?_⟩
  obtain ⟨call, hcall, hmissing, hstop⟩ | ⟨hnone, hgo⟩ := unlessMissing_error_cases
    (Outcome.all ((sites source region).map (resolve source translator.functions
      (translator.translate context)))).skipped
    (Outcome.all ((sites source region).map (resolve source translator.functions
      (translator.translate context))))
  · rw [hstop]
    exact Or.inl ⟨call, hcall, hmissing, rfl⟩
  · rw [hgo]
    exact Or.inr ⟨hnone, rfl⟩

def templateOutput (source : List Char) (result : Outcome × List Report.Issue) : Output :=
  ⟨String.ofList (Edit.applyAll result.1.edits source), result.2, result.1.translated⟩

theorem transformTemplate_eq (source : List Char) (options : Options) (translator : Translator) :
    transformTemplate source options translator =
      (transformRegion source (LineIndex.ofText source) ⟨0, byteLength source⟩ options translator
        ⟨options.locale, options.fallback, []⟩).map (templateOutput source) := by
  unfold transformTemplate
  dsimp only [bind, Except.bind, pure, Except.pure]
  cases transformRegion source (LineIndex.ofText source) ⟨0, byteLength source⟩ options translator
    ⟨options.locale, options.fallback, []⟩ <;> rfl

end

section

open TemplateMessages.Markup

/-- The calls in the text of a region. They are gone through first, and those in the attributes of
tags in a second round; in each round the calls are in source order. -/
def textCalls (source : List Char) (region : Span) (names : FunctionNames) : List Candidate :=
  ((scan source region).translatableText.flatMap (textSites source)).flatMap
    (Site.calls source names)

def tagCalls (source : List Char) (region : Span) (names : FunctionNames) : List Candidate :=
  ((scan source region).translatableTags.flatMap tagSites).flatMap (Site.calls source names)

variable {source chars : List Char} {region : Span} {names : FunctionNames}

theorem callsOf_eq_append (source : List Char) (region : Span) (names : FunctionNames) :
    callsOf source region names = textCalls source region names ++ tagCalls source region names :=
  List.flatMap_append

theorem ascending_flatMap {α β : Type} {items : List α} {f : α → List β} {outer : α → Span}
    {inner : β → Span} (h : items.Pairwise fun a b => (outer a).stop ≤ (outer b).start)
    (hwithin : ∀ item ∈ items, ∀ found ∈ f item, (inner found).Within (outer item))
    (hf : ∀ item ∈ items, (f item).Pairwise fun a b => (inner a).stop ≤ (inner b).start) :
    (items.flatMap f).Pairwise fun a b => (inner a).stop ≤ (inner b).start := by
  refine List.pairwise_flatMap.mpr ⟨hf, h.imp_of_mem ?_⟩
  intro first second hfirst hsecond hle a ha b hb
  have hstop := (hwithin first hfirst a ha).2
  have hstart := (hwithin second hsecond b hb).1
  omega

theorem calls_ascending {sites : List Site}
    (hplaced : ∀ site ∈ sites, site.Placed source (scan source region))
    (h : sites.Pairwise fun a b => a.whole.stop ≤ b.whole.start) :
    (sites.flatMap (Site.calls source names)).Pairwise fun a b => a.span.stop ≤ b.span.start :=
  ascending_flatMap h (fun site hsite _ hcall => ((hplaced site hsite).covers_call hcall).2)
    fun _ _ => Call.candidates_ascending

theorem textSites_ascending (text : Span) :
    (textSites source text).Pairwise fun a b => a.whole.stop ≤ b.whole.start := by
  unfold textSites
  rw [List.pairwise_map]
  exact interpolationsFrom_ascending _ _

theorem textCalls_ascending (hregion : Covers 0 source region chars) :
    (textCalls source region names).Pairwise fun a b => a.span.stop ≤ b.span.start := by
  refine calls_ascending (fun site hsite => placed_of_mem_sites hregion ?_)
    (ascending_flatMap (translatableText_ascending hregion) ?_ ?_)
  · exact List.mem_append_left _ hsite
  · exact fun text htext site hsite => (placed_of_mem_textSites hregion htext hsite).2
  · exact fun text _ => textSites_ascending text

theorem tagCalls_ascending (hregion : Covers 0 source region chars) :
    (tagCalls source region names).Pairwise fun a b => a.span.stop ≤ b.span.start := by
  refine calls_ascending (fun site hsite => placed_of_mem_sites hregion ?_)
    (ascending_flatMap (translatableTags_ascending hregion) ?_ ?_)
  · exact List.mem_append_right _ hsite
  · exact fun tag htag site hsite => (placed_of_mem_tagSites hregion htag hsite).2
  · exact fun tag htag => tagSites_ascending hregion htag

theorem start_lt_stop_of_mem_callsOf (hregion : Covers 0 source region chars) {call : Candidate}
    (h : call ∈ callsOf source region names) : call.span.start < call.span.stop := by
  obtain ⟨site, -, hcall⟩ := mem_callsOf.mp h
  have hpositive := byteLength_pos (Call.content_ne_nil_of_mem_candidates hcall)
  have hstop := (covers_of_mem_callsOf hregion h).1.stop_eq
  omega

theorem callsOf_apart (hregion : Covers 0 source region chars) :
    (callsOf source region names).Pairwise fun a b => a.span.Apart b.span := by
  refine List.pairwise_flatMap.mpr
    ⟨fun site _ => Call.candidates_ascending.imp fun hle => Or.inl hle, ?_⟩
  refine (sites_apart hregion).imp_of_mem ?_
  intro first second hfirst hsecond hapart a ha b hb
  exact hapart.of_within ((placed_of_mem_sites hregion hfirst).covers_call ha).2
    ((placed_of_mem_sites hregion hsecond).covers_call hb).2

theorem callsOf_starts_ne (hregion : Covers 0 source region chars) :
    (callsOf source region names).Pairwise fun a b => a.span.start ≠ b.span.start := by
  refine (callsOf_apart hregion).imp_of_mem ?_
  intro a b ha hb hapart hsame
  have hfirst := start_lt_stop_of_mem_callsOf hregion ha
  have hsecond := start_lt_stop_of_mem_callsOf hregion hb
  unfold Span.Apart at hapart
  omega

theorem eq_of_start_eq (hregion : Covers 0 source region chars) {call other : Candidate}
    (h : call ∈ callsOf source region names) (h' : other ∈ callsOf source region names)
    (hstart : call.span.start = other.span.start) : call = other := by
  have : Std.Symm fun a b : Candidate => a.span.start ≠ b.span.start := ⟨fun _ _ => Ne.symm⟩
  by_contra hne
  exact (callsOf_starts_ne hregion).forall h h' hne hstart

theorem textCalls_start_ne_tagCalls (hregion : Covers 0 source region chars)
    {call other : Candidate} (h : call ∈ textCalls source region names)
    (h' : other ∈ tagCalls source region names) : call.span.start ≠ other.span.start := by
  have hstarts := @callsOf_starts_ne source chars region names hregion
  rw [callsOf_eq_append] at hstarts
  exact (List.pairwise_append.mp hstarts).2.2 call h other h'

end

end TemplateMessages.Template
