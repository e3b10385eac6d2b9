import TemplateMessages.Proofs.Component.Accounting
import TemplateMessages.Proofs.Component.OnMissing
import TemplateMessages.Proofs.Translation.MissingKeys

set_option autoImplicit false

/-!
# Missing translations as errors

Where missing translations are errors, a template or a component fails for one just when a call is
missing. That is not always when the question for the key of a call has the answer no: each call whose
key is found without its part has that answer and lets the transformation pass, and each call whose
message refers to a missing one makes it fail without that answer.
-/

namespace TemplateMessages.Component

open TemplateMessages.Call (Candidate FunctionNames)
open TemplateMessages.Template
open TemplateMessages.Text
open TemplateMessages.Translation

def translations (calls : List Candidate) : List Candidate :=
  calls.filter (·.function = .translate)

/-- How a transformation of these calls, which fails for a missing translation or does not, compares
to the answers whether their keys have translations. -/
structure Compares (translator : Translator) (context : Context) (calls : List Candidate)
    (fails : Prop) : Prop where
  fails_iff : fails ↔ ∃ call ∈ translations calls, translator.Misses context call
  agrees_iff : ∀ call ∈ translations calls,
    (translator.Misses context call ↔ translator.Denies context call) ↔
      ¬translator.Partless context call ∧ ¬translator.Dangling context call
  all_agree_iff : (fails ↔ ∃ call ∈ translations calls, translator.Denies context call) ↔
    (∃ call ∈ translations calls, translator.Nowhere context call) ∨
      ((∃ call ∈ translations calls, translator.Dangling context call) ↔
        ∃ call ∈ translations calls, translator.Partless context call)

def IsMissingTranslation (error : TransformError) : Prop :=
  ∃ location expression cause, error = .missingTranslation location expression cause

variable {source : List Char} {options : Options} {translator : Translator} {context : Context}

@[simp] theorem mem_translations {calls : List Candidate} {call : Candidate} :
    call ∈ translations calls ↔ call ∈ calls ∧ call.function = .translate := by
  simp only [translations, List.mem_filter, decide_eq_true_eq]

theorem exists_misses_iff {calls : List Candidate} :
    (∃ call ∈ translations calls, translator.Misses context call) ↔
      ∃ call ∈ calls, translator.Misses context call := by
  constructor
  · rintro ⟨call, hcall, hmisses⟩
    exact ⟨call, (mem_translations.mp hcall).1, hmisses⟩
  · rintro ⟨call, hcall, hmisses⟩
    refine ⟨call, mem_translations.mpr ⟨hcall, ?_⟩, hmisses⟩
    cases hfunction : call.function with
    | translate => rfl
    | exists? => exact absurd hmisses (not_misses_of_exists? hfunction)

theorem compares {calls : List Candidate} {fails : Prop}
    (h : fails ↔ ∃ call ∈ calls, translator.Misses context call) :
    Compares translator context calls fails := by
  have hfails : fails ↔ ∃ call ∈ translations calls, translator.Misses context call :=
    h.trans exists_misses_iff.symm
  refine ⟨hfails, fun call hcall => misses_iff_denies_iff (mem_translations.mp hcall).2, ?_⟩
  have hmisses : fails ↔ (∃ call ∈ translations calls, translator.Nowhere context call) ∨
      ∃ call ∈ translations calls, translator.Dangling context call := by
    rw [hfails, ← exists_or]
    refine exists_congr fun call => ?_
    rw [← and_or_left]
    exact and_congr_right fun hcall => misses_iff (mem_translations.mp hcall).2
  have hdenies : (∃ call ∈ translations calls, translator.Denies context call) ↔
      (∃ call ∈ translations calls, translator.Nowhere context call) ∨
        ∃ call ∈ translations calls, translator.Partless context call := by
    rw [← exists_or]
    refine exists_congr fun call => ?_
    rw [← and_or_left]
    exact and_congr_right fun _ => denies_iff
  rw [hmisses, hdenies]
  by_cases hnowhere : ∃ call ∈ translations calls, translator.Nowhere context call
  · simp only [hnowhere, true_or]
  · simp only [hnowhere, false_or]

theorem transformRegion_fails_iff {lines : LineIndex} {region : Span} :
    (∃ error, IsMissingTranslation error ∧
      transformRegion source lines region { options with onMissing := .error } translator context =
        .error error) ↔
    ∃ call ∈ callsOf source region translator.functions, translator.Misses context call := by
  obtain ⟨outcome, issues, hskip, _, hcases⟩ :=
    @transformRegion_beside source lines region options translator context
  have houtcome := (outcome_of_transformRegion hskip).1
  have hmissing : (∃ call ∈ outcome.skipped, call.error.isMissing = true) ↔
      ∃ call ∈ callsOf source region translator.functions, translator.Misses context call := by
    rw [houtcome, skipped_resolveRegion]
    constructor
    · rintro ⟨skipped, hskipped, herror⟩
      obtain ⟨hcall, hfailed⟩ := mem_failedCalls.mp hskipped
      exact ⟨skipped.candidate, hcall, skipped.error, hfailed, herror⟩
    · rintro ⟨call, hcall, error, hfailed, herror⟩
      exact ⟨⟨call, error⟩, mem_failedCalls.mpr ⟨hcall, hfailed⟩, herror⟩
  rw [← hmissing]
  obtain ⟨call, hcall, herror, hstop⟩ | ⟨hnone, hgo⟩ := hcases
  · exact ⟨fun _ => ⟨call, hcall, herror⟩, fun _ => ⟨_, ⟨_, _, _, rfl⟩, hstop⟩⟩
  · constructor
    · rintro ⟨error, _, hstop⟩
      cases hgo.symm.trans hstop
    · rintro ⟨call, hcall, herror⟩
      rw [hnone call hcall] at herror
      cases herror

theorem map_fails_iff {α β : Type} {computed : Except TransformError α} (f : α → β) :
    (∃ error, IsMissingTranslation error ∧ computed.map f = .error error) ↔
      ∃ error, IsMissingTranslation error ∧ computed = .error error := by
  cases computed <;> simp [Except.map]

/-- Where missing translations are errors, a template, or a component that has blocks, fails for one
just when a call is missing. So it fails just when the question for some key has the answer no, if
some key is nowhere, or if some call leads to a missing message just when some key lacks its part. -/
theorem strict_compares (source : List Char) (options : Options) (translator : Translator) :
    let strict := { options with onMissing := .error }
    Compares translator ⟨options.locale, options.fallback, []⟩
      (callsOf source ⟨0, byteLength source⟩ translator.functions)
      (∃ error, IsMissingTranslation error ∧
        transformTemplate source strict translator = .error error) ∧
    ∀ layout, locateBlocks source = .ok layout →
      Compares translator (contextOf source options layout)
        (componentCalls source layout translator.functions)
        (∃ error, IsMissingTranslation error ∧
          transformComponent source strict translator = .error error) := by
  intro strict
  constructor
  · apply compares
    rw [transformTemplate_eq, map_fails_iff]
    exact transformRegion_fails_iff
  · intro layout hlayout
    apply compares
    unfold componentCalls
    cases htemplate : layout.template? with
    | none =>
      have hrun : transformComponent source strict translator = .ok ⟨String.ofList source, [], 0⟩ := by
        simp only [transformComponent, hlayout, htemplate]
      rw [hrun]
      simp
    | some template =>
      rw [transformComponent_of_template hlayout htemplate, map_fails_iff]
      exact transformRegion_fails_iff

def titleOnly : Translator :=
  ⟨.fluent [("en", (Fluent.parse "m =\n    .a = x".toList).1)] false, [("t", .translate)]⟩

def untitledCall : Candidate :=
  ⟨⟨3, 9⟩, "t('m')", "t", .translate, .text, true⟩

theorem strict_compares_titleOnly :
    let source := "\x7b\x7b t('m') \x7d\x7d".toList
    let options : Options := ⟨"en", "en", "i18n", true, .error, "<input>"⟩
    (∃ output, transformTemplate source options titleOnly = .ok output) ∧
      untitledCall ∈ translations (callsOf source ⟨0, byteLength source⟩ titleOnly.functions) ∧
      titleOnly.Denies ⟨"en", "en", []⟩ untitledCall ∧
      titleOnly.Partless ⟨"en", "en", []⟩ untitledCall := by
  intro source options
  have hpass : (transformTemplate source options titleOnly).toBool = true := by decide +kernel
  have hcall : untitledCall ∈
      translations (callsOf source ⟨0, byteLength source⟩ titleOnly.functions) := by
    decide +kernel
  have hdenies : titleOnly.Denies ⟨"en", "en", []⟩ untitledCall := by
    unfold Translator.Denies
    decide +kernel
  obtain ⟨hcompares, _⟩ := strict_compares source options titleOnly
  cases hresult : transformTemplate source options titleOnly with
  | error error =>
    rw [hresult] at hpass
    cases hpass
  | ok output =>
    refine ⟨⟨output, rfl⟩, hcall, hdenies, ?_⟩
    have hmisses : ¬titleOnly.Misses ⟨"en", "en", []⟩ untitledCall := by
      intro hmisses
      obtain ⟨error, _, hfails⟩ := hcompares.fails_iff.mpr ⟨untitledCall, hcall, hmisses⟩
      cases hresult.symm.trans hfails
    exact (denies_iff.mp hdenies).resolve_left fun hnowhere =>
      hmisses ((misses_iff rfl).mpr (Or.inl hnowhere))

end TemplateMessages.Component
