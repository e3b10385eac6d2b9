import TemplateMessages.Proofs.Component.Frame
import TemplateMessages.Proofs.Template.StoppingRun

set_option autoImplicit false

/-!
# Skipping missing translations and stopping at them

Two transformations of a component that differ only in what they do about missing translations come
to the same, unless the one that skips them has skipped one.
-/

namespace TemplateMessages.Component

open TemplateMessages.Report (Issue)
open TemplateMessages.Template
open TemplateMessages.Text
open TemplateMessages.Translation

def isMissingIssue : Issue → Bool
  | .skippedTranslation _ _ error => error.isMissing
  | _ => false

def componentOutput (source : List Char) (options : Options) (layout : Layout)
    (result : Outcome × List Issue) : Output where
  code := String.ofList (Edit.applyAll
    (result.1.edits ++ removals source options layout result.1.recognized) source)
  issues := (layout.named options.blockName).flatMap (fun block =>
    blockIssues source (LineIndex.ofText source) options.file block
      (blockMessages source block).2) ++ result.2
  translated := result.1.translated

variable {source : List Char} {options : Options} {translator : Translator} {layout : Layout}

theorem transformComponent_of_template {template : Block}
    (hlayout : locateBlocks source = .ok layout) (htemplate : layout.template? = some template) :
    transformComponent source options translator =
      (transformRegion source (LineIndex.ofText source) template.span options translator
        (contextOf source options layout)).map (componentOutput source options layout) := by
  unfold transformComponent
  rw [hlayout]
  dsimp only
  rw [htemplate]
  dsimp only [bind, Except.bind, pure, Except.pure]
  simp only [List.foldl_map, List.flatMap_map, List.map_map]
  unfold contextOf
  split
  · rename_i error hregion
    rw [hregion]
    rfl
  · rename_i result hregion
    rw [hregion]
    rfl

theorem isMissingIssue_blockIssues {lines : LineIndex} {file : String} {block : Block}
    {errors : List BlockError} {issue : Issue}
    (h : issue ∈ blockIssues source lines file block errors) : isMissingIssue issue = false := by
  obtain ⟨_, _, rfl⟩ := List.mem_map.mp h
  rfl

theorem isMissingIssue_componentOutput {outcome : Outcome}
    (h : ∀ call ∈ outcome.skipped, call.error.isMissing = false) {issue : Issue}
    (hissue : issue ∈ (componentOutput source options layout (outcome,
      sortedIssues source (LineIndex.ofText source) options.file outcome.skipped)).issues) :
    isMissingIssue issue = false := by
  rcases List.mem_append.mp hissue with hblock | hcall
  · obtain ⟨block, _, hmem⟩ := List.mem_flatMap.mp hblock
    exact isMissingIssue_blockIssues hmem
  · obtain ⟨call, hskipped, rfl⟩ := mem_sortedIssues.mp hcall
    exact h call hskipped

theorem transformComponent_beside_of_template {template : Block}
    (hlayout : locateBlocks source = .ok layout) (htemplate : layout.template? = some template) :
    let stopping := transformComponent source { options with onMissing := .error } translator
    ∃ output, transformComponent source { options with onMissing := .skip } translator = .ok output ∧
      ((∃ position expression error,
          Issue.skippedTranslation position expression error ∈ output.issues ∧
          error.isMissing = true ∧
          stopping = .error (.missingTranslation position.location expression error)) ∨
        (stopping = .ok output ∧ ∀ issue ∈ output.issues, isMissingIssue issue = false)) := by
  intro stopping
  obtain ⟨outcome, _, hgo, rfl, hcases⟩ := @transformRegion_beside source
    (LineIndex.ofText source) template.span options translator (contextOf source options layout)
  have hrun (onMissing : OnMissing) : transformComponent source
      { options with onMissing := onMissing } translator =
        (transformRegion source (LineIndex.ofText source) template.span
          { options with onMissing := onMissing } translator
            (contextOf source options layout)).map (componentOutput source options layout) :=
    transformComponent_of_template hlayout htemplate
  refine ⟨componentOutput source options layout (outcome,
    sortedIssues source (LineIndex.ofText source) options.file outcome.skipped), ?_, ?_⟩
  · rw [hrun .skip, hgo]
    rfl
  · obtain ⟨call, hcall, hmissing, hregion⟩ | ⟨hnone, hregion⟩ := hcases
    · have hstop : stopping =
          .error (missingTranslation source (LineIndex.ofText source) call) := by
        rw [show stopping = _ from hrun .error, hregion]
        rfl
      exact .inl ⟨_, _, _, List.mem_append_right _ (mem_sortedIssues.mpr ⟨call, hcall, rfl⟩),
        hmissing, hstop⟩
    · refine .inr ⟨?_, fun issue hissue => isMissingIssue_componentOutput hnone hissue⟩
      rw [show stopping = _ from hrun .error, hregion]
      rfl

theorem transformComponent_beside (source : List Char) (options : Options)
    (translator : Translator) :
    let stopping := transformComponent source { options with onMissing := .error } translator
    let skipping := transformComponent source { options with onMissing := .skip } translator
    (∃ output position expression error, skipping = .ok output ∧
      Issue.skippedTranslation position expression error ∈ output.issues ∧
      error.isMissing = true ∧
      stopping = .error (.missingTranslation position.location expression error)) ∨
    (stopping = skipping ∧
      (∀ location expression error,
        skipping ≠ .error (.missingTranslation location expression error)) ∧
      ∀ output, skipping = .ok output → ∀ issue ∈ output.issues, isMissingIssue issue = false) := by
  intro stopping skipping
  cases hlayout : locateBlocks source with
  | error location =>
    have hrun (onMissing : OnMissing) : transformComponent source
        { options with onMissing := onMissing } translator =
          .error (.unterminatedTemplate location) := by
      simp only [transformComponent, hlayout]
    exact Or.inr ⟨(hrun .error).trans (hrun .skip).symm, by simp [skipping, hrun .skip],
      by simp [skipping, hrun .skip]⟩
  | ok layout =>
    cases htemplate : layout.template? with
    | none =>
      have hrun (onMissing : OnMissing) : transformComponent source
          { options with onMissing := onMissing } translator =
            .ok ⟨String.ofList source, [], 0⟩ := by
        simp only [transformComponent, hlayout, htemplate]
      exact Or.inr ⟨(hrun .error).trans (hrun .skip).symm, by simp [skipping, hrun .skip],
        by simp [skipping, hrun .skip]⟩
    | some template =>
      obtain ⟨output, hskip, ⟨position, expression, error, hissue, hmissing, hstop⟩ |
        ⟨hstop, hnone⟩⟩ :=
          @transformComponent_beside_of_template source options translator layout template hlayout
            htemplate
      · exact Or.inl ⟨output, position, expression, error, hskip, hissue, hmissing, hstop⟩
      · refine Or.inr ⟨hstop.trans hskip.symm, by simp [skipping, hskip], ?_⟩
        intro other hother
        obtain rfl := Except.ok.inj (hskip.symm.trans hother)
        exact hnone

/-- Of two transformations that differ only in what they do about missing translations, the one that
stops at them fails for one just when the one that skips them has an issue about a missing
translation, and its error says what one of these issues says. Otherwise both give the same output,
or the same error. -/
theorem transformComponent_onMissing (source : List Char) (options : Options)
    (translator : Translator) :
    let stopping := transformComponent source { options with onMissing := .error } translator
    let skipping := transformComponent source { options with onMissing := .skip } translator
    ((∃ location expression error,
        stopping = .error (.missingTranslation location expression error)) ↔
      ∃ output, skipping = .ok output ∧ ∃ issue ∈ output.issues, isMissingIssue issue = true) ∧
    (∀ location expression error,
      stopping = .error (.missingTranslation location expression error) →
        error.isMissing = true ∧ ∃ output position, skipping = .ok output ∧
          position.location = location ∧
          Issue.skippedTranslation position expression error ∈ output.issues) ∧
    ((¬∃ location expression error,
        stopping = .error (.missingTranslation location expression error)) →
      stopping = skipping) := by
  intro stopping skipping
  obtain ⟨output, position, expression, error, hskip, hissue, hmissing, hstop⟩ |
    ⟨hsame, hnoError, hnoIssue⟩ := transformComponent_beside source options translator
  · refine ⟨⟨fun _ => ⟨output, hskip, _, hissue, hmissing⟩, fun _ => ⟨_, _, _, hstop⟩⟩, ?_, ?_⟩
    · intro location other found hother
      obtain ⟨rfl, rfl, rfl⟩ : position.location = location ∧ expression = other ∧ error = found := by
        simpa using hstop.symm.trans hother
      exact ⟨hmissing, output, position, hskip, rfl, hissue⟩
    · intro hfine
      exact absurd ⟨_, _, _, hstop⟩ hfine
  · refine ⟨⟨?_, ?_⟩, ?_, fun _ => hsame⟩
    · rintro ⟨location, expression, error, hstop⟩
      exact absurd (hsame.symm.trans hstop) (hnoError _ _ _)
    · rintro ⟨output, hskip, issue, hissue, hmissing⟩
      rw [hnoIssue output hskip issue hissue] at hmissing
      cases hmissing
    · intro location expression error hstop
      exact absurd (hsame.symm.trans hstop) (hnoError _ _ _)

end TemplateMessages.Component
