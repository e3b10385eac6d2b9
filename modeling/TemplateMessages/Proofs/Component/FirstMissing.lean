import TemplateMessages.Proofs.Component.MissingCalls
import TemplateMessages.Proofs.Lists
import TemplateMessages.Proofs.Template.StoppingRun
import TemplateMessages.Proofs.Text.Locations

set_option autoImplicit false

/-!
# The missing translation that is named

Where missing translations are errors, a template fails for the first missing call in its text, and
only without one in its text for the first in its attributes. Where they are skipped, the first issue
about a missing translation is the first in the source. Both name the same call unless a missing call
of an attribute stands in front of all those of the text.
-/

namespace TemplateMessages.Component

open TemplateMessages.Call (Candidate FunctionNames)
open TemplateMessages.Report (Issue)
open TemplateMessages.Template
open TemplateMessages.Text
open TemplateMessages.Translation

structure FirstMissing (translator : Translator) (context : Context) (calls : List Candidate)
    (call : Candidate) : Prop where
  member : call ∈ calls
  misses : translator.Misses context call
  first : ∀ other ∈ calls, translator.Misses context other → call.span.start ≤ other.span.start

/-- The call that a run stops at: the first missing one of the text, or without any in the text the
first missing one of the attributes. -/
def StopsAt (source : List Char) (region : Span) (translator : Translator) (context : Context)
    (call : Candidate) : Prop :=
  FirstMissing translator context (textCalls source region translator.functions) call ∨
    (∀ other ∈ textCalls source region translator.functions,
      ¬ translator.Misses context other) ∧
    FirstMissing translator context (tagCalls source region translator.functions) call

/-- No call of the text is missing, or each missing one of an attribute has a missing one of the text
in front of it. -/
def TextLeads (source : List Char) (region : Span) (translator : Translator) (context : Context) :
    Prop :=
  (∀ call ∈ textCalls source region translator.functions, ¬ translator.Misses context call) ∨
    ∀ call ∈ tagCalls source region translator.functions, translator.Misses context call →
      ∃ earlier ∈ textCalls source region translator.functions,
        translator.Misses context earlier ∧ earlier.span.start < call.span.start

variable {source chars : List Char} {region : Span} {options : Options} {translator : Translator}
  {context : Context} {call other : Candidate} {lines : LineIndex}

theorem misses_of_mem_failedCalls {calls : List Candidate} {skipped : SkippedCall}
    (h : skipped ∈ failedCalls (translator.translate context) calls)
    (hmissing : skipped.error.isMissing = true) : translator.Misses context skipped.candidate :=
  ⟨skipped.error, (mem_failedCalls.mp h).2, hmissing⟩

theorem exists_skipped_of_misses {calls : List Candidate} (h : call ∈ calls)
    (hmisses : translator.Misses context call) :
    ∃ skipped ∈ failedCalls (translator.translate context) calls,
      skipped.candidate = call ∧ skipped.error.isMissing = true := by
  obtain ⟨error, herror, hmissing⟩ := hmisses
  exact ⟨⟨call, error⟩, mem_failedCalls.mpr ⟨h, herror⟩, rfl, hmissing⟩

theorem failedCalls_ascending {translate : Candidate → Except TranslationError Replacement}
    {calls : List Candidate} (h : calls.Pairwise fun a b => a.span.stop ≤ b.span.start) :
    (failedCalls translate calls).Pairwise
      fun a b => a.candidate.span.stop ≤ b.candidate.span.start := by
  refine ascending_filterMap (fun skipped : SkippedCall => skipped.candidate.span) h ?_
  intro call skipped hskipped
  unfold skippedCall? at hskipped
  split at hskipped
  · cases hskipped
  · rw [← Option.some.inj hskipped]

theorem firstMissing_of_find? {calls : List Candidate} {skipped : SkippedCall}
    (h : calls.Pairwise fun a b => a.span.stop ≤ b.span.start)
    (hspan : ∀ call ∈ calls, call.span.start < call.span.stop)
    (hfind : (failedCalls (translator.translate context) calls).find? (·.error.isMissing) =
      some skipped) :
    FirstMissing translator context calls skipped.candidate := by
  have hmem := List.mem_of_find?_eq_some hfind
  have hcall := (mem_failedCalls.mp hmem).1
  have hmissing : skipped.error.isMissing = true := by
    simpa using List.find?_some hfind
  refine ⟨hcall, misses_of_mem_failedCalls hmem hmissing, ?_⟩
  intro other hother hmisses
  obtain ⟨failed, hfailed, rfl, hmissing⟩ := exists_skipped_of_misses hother hmisses
  rcases before_of_find? (failedCalls_ascending h) hfind failed hfailed hmissing with rfl | hbefore
  · exact Nat.le_refl _
  · exact Nat.le_trans (Nat.le_of_lt (hspan _ hcall)) hbefore

theorem stopsAt_of_transformRegion (hregion : Covers 0 source region chars)
    {error : TransformError}
    (h : transformRegion source lines region { options with onMissing := .error } translator
      context = .error error) :
    ∃ skipped ∈ failedCalls (translator.translate context)
        (callsOf source region translator.functions),
      skipped.error.isMissing = true ∧ error = missingTranslation source lines skipped ∧
        StopsAt source region translator context skipped.candidate := by
  have hskipped : (resolveRegion source region translator.functions
      (translator.translate context)).skipped =
        failedCalls (translator.translate context) (textCalls source region translator.functions) ++
        failedCalls (translator.translate context) (tagCalls source region translator.functions) := by
    rw [skipped_resolveRegion, callsOf_eq_append]
    exact List.filterMap_append
  have hspan : ∀ call ∈ textCalls source region translator.functions ++
      tagCalls source region translator.functions, call.span.start < call.span.stop := by
    rw [← callsOf_eq_append]
    exact fun call hcall => start_lt_stop_of_mem_callsOf hregion hcall
  unfold transformRegion missingError? at h
  simp only [↓reduceIte] at h
  split at h
  · rename_i found hfound
    obtain rfl := Except.error.inj h
    obtain ⟨skipped, hfind, rfl⟩ := Option.map_eq_some_iff.mp hfound
    have hmem := List.mem_of_find?_eq_some hfind
    rw [skipped_resolveRegion] at hmem
    refine ⟨skipped, hmem, by simpa using List.find?_some hfind, rfl, ?_⟩
    rw [hskipped, List.find?_append, Option.or_eq_some_iff] at hfind
    rcases hfind with htext | ⟨hnone, htag⟩
    · exact Or.inl (firstMissing_of_find? (textCalls_ascending hregion)
        (fun call hcall => hspan call (List.mem_append_left _ hcall)) htext)
    · refine Or.inr ⟨?_, firstMissing_of_find? (tagCalls_ascending hregion)
        (fun call hcall => hspan call (List.mem_append_right _ hcall)) htag⟩
      intro other hother hmisses
      obtain ⟨failed, hfailed, -, hmissing⟩ := exists_skipped_of_misses hother hmisses
      exact List.find?_eq_none.mp hnone failed hfailed hmissing
  · cases h

theorem stopsAt_of_transformTemplate {error : TransformError}
    (h : transformTemplate source { options with onMissing := .error } translator = .error error) :
    ∃ skipped ∈ failedCalls (translator.translate ⟨options.locale, options.fallback, []⟩)
        (callsOf source ⟨0, byteLength source⟩ translator.functions),
      skipped.error.isMissing = true ∧
        error = missingTranslation source (LineIndex.ofText source) skipped ∧
        StopsAt source ⟨0, byteLength source⟩ translator ⟨options.locale, options.fallback, []⟩
          skipped.candidate := by
  have hregion : Covers 0 source ⟨0, byteLength source⟩ source := by
    simpa using Covers.whole 0 source
  rw [transformTemplate_eq] at h
  cases hrun : transformRegion source (LineIndex.ofText source) ⟨0, byteLength source⟩
      { options with onMissing := .error } translator ⟨options.locale, options.fallback, []⟩ with
  | ok result =>
    rw [hrun] at h
    cases h
  | error failure =>
    rw [hrun] at h
    obtain rfl := Except.error.inj h
    exact stopsAt_of_transformRegion hregion hrun

theorem exists_transformTemplate_skip (source : List Char) (options : Options)
    (translator : Translator) :
    ∃ output,
      transformTemplate source { options with onMissing := .skip } translator = .ok output ∧
      output.issues = sortedIssues source (LineIndex.ofText source) options.file
        (failedCalls (translator.translate ⟨options.locale, options.fallback, []⟩)
          (callsOf source ⟨0, byteLength source⟩ translator.functions)) := by
  obtain ⟨outcome, issues, hrun, rfl, -⟩ := @transformRegion_beside source (LineIndex.ofText source)
    ⟨0, byteLength source⟩ options translator ⟨options.locale, options.fallback, []⟩
  refine ⟨templateOutput source (outcome, sortedIssues source (LineIndex.ofText source) options.file
    outcome.skipped), ?_, ?_⟩
  · rw [transformTemplate_eq]
    exact congrArg (Except.map (templateOutput source)) hrun
  · rw [← skipped_resolveRegion, ← (outcome_of_transformRegion hrun).1]
    rfl

theorem isBoundary_of_mem_callsOf (hregion : Covers 0 source region chars)
    (h : call ∈ callsOf source region translator.functions) :
    IsBoundary source call.span.start :=
  (covers_of_mem_callsOf hregion h).1.valid.start

theorem location_start_inj (hregion : Covers 0 source region chars)
    (hcall : call ∈ callsOf source region translator.functions)
    (hother : other ∈ callsOf source region translator.functions) :
    (LineIndex.ofText source).location source call.span.start =
      (LineIndex.ofText source).location source other.span.start ↔ call = other := by
  constructor
  · intro hlocation
    exact eq_of_start_eq hregion hcall hother ((LineIndex.location_inj
      (isBoundary_of_mem_callsOf hregion hcall) (isBoundary_of_mem_callsOf hregion hother)).mp
        hlocation)
  · rintro rfl
    rfl

@[simp] theorem isMissingIssue_skippedIssue (source : List Char) (lines : LineIndex) (file : String)
    (skipped : SkippedCall) :
    isMissingIssue (skippedIssue source lines file skipped).2 = skipped.error.isMissing :=
  rfl

theorem sorted_byLocation (issues : List (Location × Issue)) :
    (issues.mergeSort fun a b => a.1.le b.1).Pairwise fun a b => a.1.le b.1 = true := by
  apply List.pairwise_mergeSort
  · exact fun _ _ _ h h' => Location.le_trans h h'
  · exact fun a b => Location.le_total a.1 b.1

theorem firstMissing_of_sortedIssues (hregion : Covers 0 source region chars) {file : String}
    {issue : Issue}
    (h : (sortedIssues source (LineIndex.ofText source) file
      (failedCalls (translator.translate context)
        (callsOf source region translator.functions))).find? isMissingIssue = some issue) :
    ∃ skipped, issue = (skippedIssue source (LineIndex.ofText source) file skipped).2 ∧
      FirstMissing translator context (callsOf source region translator.functions)
        skipped.candidate := by
  unfold sortedIssues at h
  rw [List.find?_map] at h
  obtain ⟨found, hfind, rfl⟩ := Option.map_eq_some_iff.mp h
  obtain ⟨skipped, hskipped, rfl⟩ :=
    List.mem_map.mp (List.mem_mergeSort.mp (List.mem_of_find?_eq_some hfind))
  have hcall := (mem_failedCalls.mp hskipped).1
  have hmissing := List.find?_some hfind
  rw [Function.comp, isMissingIssue_skippedIssue] at hmissing
  refine ⟨skipped, rfl, hcall, misses_of_mem_failedCalls hskipped hmissing, ?_⟩
  intro other hother hmisses
  obtain ⟨failed, hfailed, rfl, hmissing⟩ := exists_skipped_of_misses hother hmisses
  refine (LineIndex.location_le_iff (isBoundary_of_mem_callsOf hregion hcall)
    (isBoundary_of_mem_callsOf hregion hother)).mp ?_
  rcases before_of_find? (sorted_byLocation _) hfind _
    (List.mem_mergeSort.mpr (List.mem_map_of_mem hfailed)) hmissing with heq | hbefore
  · rw [show (LineIndex.ofText source).location source failed.candidate.span.start = _ from
      congrArg Prod.fst heq]
    exact Location.le_iff.mpr (Or.inr ⟨rfl, Nat.le_refl _⟩)
  · exact hbefore

theorem StopsAt.eq_first_iff (hregion : Covers 0 source region chars)
    (h : StopsAt source region translator context call)
    (h' : FirstMissing translator context (callsOf source region translator.functions) other) :
    call = other ↔ TextLeads source region translator context := by
  obtain ⟨hmember, hmisses, hfirst⟩ := h'
  have hmember' := hmember
  rw [callsOf_eq_append, List.mem_append] at hmember'
  have hin : ∀ call, call ∈ textCalls source region translator.functions ∨
      call ∈ tagCalls source region translator.functions →
        call ∈ callsOf source region translator.functions := by
    intro call hcall
    rw [callsOf_eq_append]
    exact List.mem_append.mpr hcall
  rcases h with htext | ⟨hnone, htag⟩
  · constructor
    · rintro rfl
      refine Or.inr fun later hlater hlaterMisses => ⟨call, htext.member, hmisses, ?_⟩
      have hle := hfirst later (hin later (Or.inr hlater)) hlaterMisses
      exact Nat.lt_of_le_of_ne hle (textCalls_start_ne_tagCalls hregion htext.member hlater)
    · rintro (hno | hearlier)
      · exact absurd htext.misses (hno call htext.member)
      · have hle := hfirst call (hin call (Or.inl htext.member)) htext.misses
        rcases hmember' with hother | hother
        · exact eq_of_start_eq hregion (hin call (Or.inl htext.member)) hmember
            (Nat.le_antisymm (htext.first other hother hmisses) hle)
        · obtain ⟨earlier, hmem, hearlierMisses, hlt⟩ := hearlier other hother hmisses
          have hback := hfirst earlier (hin earlier (Or.inl hmem)) hearlierMisses
          exact absurd hlt (Nat.not_lt.mpr hback)
  · refine iff_of_true ?_ (Or.inl hnone)
    have hother := hmember'.resolve_left fun hother => hnone other hother hmisses
    exact eq_of_start_eq hregion (hin call (Or.inr htag.member)) hmember
      (Nat.le_antisymm (htag.first other hother hmisses)
        (hfirst call (hin call (Or.inr htag.member)) htag.misses))

/-- A template that fails for a missing translation names the call that its run stops at, and the
first issue about a missing translation that the run with skipping gives names the first missing call
of the source. Both name the same location and expression just when no call of the text is missing,
or each missing call of an attribute has a missing one of the text in front of it. -/
theorem transformTemplate_names_first_iff {location : Location} {expression : String}
    {error : TranslationError}
    (h : transformTemplate source { options with onMissing := .error } translator =
      .error (.missingTranslation location expression error)) :
    let lines := LineIndex.ofText source
    let region : Span := ⟨0, byteLength source⟩
    let context : Context := ⟨options.locale, options.fallback, []⟩
    ∃ call first output cause,
      StopsAt source region translator context call ∧
      location = lines.location source call.span.start ∧ expression = call.content ∧
      FirstMissing translator context (callsOf source region translator.functions) first ∧
      transformTemplate source { options with onMissing := .skip } translator = .ok output ∧
      output.issues.find? isMissingIssue = some (.skippedTranslation
        (sourcePosition source lines options.file first.span.start) first.content cause) ∧
      ((location = (sourcePosition source lines options.file first.span.start).location ∧
        expression = first.content) ↔ TextLeads source region translator context) := by
  intro lines region context
  have hregion : Covers 0 source region source := by
    simpa using Covers.whole 0 source
  obtain ⟨skipped, hskipped, hmissing, herror, hstops⟩ := stopsAt_of_transformTemplate h
  obtain ⟨rfl, rfl, rfl⟩ := TransformError.missingTranslation.inj herror
  obtain ⟨output, hskip, hissues⟩ := exists_transformTemplate_skip source options translator
  cases hfind : output.issues.find? isMissingIssue with
  | none =>
    rw [hissues] at hfind
    have hnot := List.find?_eq_none.mp hfind _ (mem_sortedIssues.mpr ⟨skipped, hskipped, rfl⟩)
    exact absurd hmissing hnot
  | some issue =>
    have hsorted := hfind
    rw [hissues] at hsorted
    obtain ⟨first, rfl, hfirst⟩ := firstMissing_of_sortedIssues hregion hsorted
    refine ⟨_, _, _, first.error, hstops, rfl, rfl, hfirst, hskip, hfind, ?_⟩
    rw [← hstops.eq_first_iff hregion hfirst]
    refine ⟨fun hnames => ?_, fun hsame => ?_⟩
    · exact (location_start_inj hregion (mem_failedCalls.mp hskipped).1 hfirst.member).mp hnames.1
    · rw [hsame]
      exact ⟨rfl, rfl⟩

/-- A paragraph with a call in an attribute and one in its text behind it. -/
def titledParagraph : List Char :=
  "<p :title=\x22t('a')\x22>\x7b\x7b t('b') \x7d\x7d</p>".toList

def speechless : Translator :=
  ⟨.catalog [], [("t", .translate)]⟩

def titleText : Candidate :=
  ⟨⟨22, 28⟩, "t('b')", "t", .translate, .text, true⟩

def titleAttribute : Candidate :=
  ⟨⟨11, 17⟩, "t('a')", "t", .translate, .attributeValue, true⟩

theorem transformTemplate_names_first_iff_titledParagraph :
    let strict : Options := ⟨"en", "en", "i18n", true, .error, "a"⟩
    let cause (key : String) : TranslationError := .unknownKey key "en"
    transformTemplate titledParagraph strict speechless =
        .error (.missingTranslation ⟨1, 23⟩ "t('b')" (cause "b")) ∧
      ∃ output position found error,
        transformTemplate titledParagraph { strict with onMissing := .skip } speechless =
          .ok output ∧
        output.issues.find? isMissingIssue = some (.skippedTranslation position found error) ∧
        ¬ (⟨1, 23⟩ = position.location ∧ "t('b')" = found) := by
  intro strict cause
  have hfails : transformTemplate titledParagraph strict speechless =
      .error (.missingTranslation ⟨1, 23⟩ "t('b')" (cause "b")) := by decide +kernel
  obtain ⟨call, first, output, error, -, -, -, -, hskip, hfind, hnames⟩ :=
    @transformTemplate_names_first_iff _ strict _ _ _ _ hfails
  refine ⟨hfails, output, _, _, error, hskip, hfind, ?_⟩
  rw [hnames]
  have htext : textCalls titledParagraph ⟨0, byteLength titledParagraph⟩ speechless.functions =
      [titleText] := by decide +kernel
  have htag : tagCalls titledParagraph ⟨0, byteLength titledParagraph⟩ speechless.functions =
      [titleAttribute] := by decide +kernel
  have hmisses : speechless.Misses ⟨"en", "en", []⟩ titleText ∧
      speechless.Misses ⟨"en", "en", []⟩ titleAttribute :=
    ⟨⟨.unknownKey "b" "en", by decide +kernel, rfl⟩, ⟨.unknownKey "a" "en", by decide +kernel, rfl⟩⟩
  unfold TextLeads
  rw [htext, htag]
  rintro (hno | hearlier)
  · exact hno titleText List.mem_cons_self hmisses.1
  · obtain ⟨earlier, hmem, -, hlt⟩ := hearlier titleAttribute List.mem_cons_self hmisses.2
    obtain rfl := List.mem_singleton.mp hmem
    exact absurd hlt (by decide)

end TemplateMessages.Component
