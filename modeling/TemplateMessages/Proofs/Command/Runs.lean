import TemplateMessages.Command.Run
import TemplateMessages.Proofs.Project.ScannedFiles

set_option autoImplicit false

/-!
# Runs of the command

A run that is prepared transforms its files one after the other, each in the tree that those in
front of it leave behind. How it ends is told by the results of the files and the issues that are
reported.
-/

namespace TemplateMessages.Command

open TemplateMessages.Files
open TemplateMessages.Project
open TemplateMessages.Report (Issue)
open TemplateMessages.Template (Output)

variable {tree : Tree} {working : Path} {arguments : TransformArguments} {selection : Selection}
  {target : Target}

/-- The plan of a run that has selected its files. -/
def Selection.plan (selection : Selection) (working : Path) (target : Target) : Plan :=
  ⟨working, selection.settings.config, selection.translator, target⟩

/-- The issues that a run reports. -/
def reportedIssues (arguments : TransformArguments) (loadIssues : List Issue)
    (results : List Plan.FileResult) : List Issue :=
  (if arguments.verbose then loadIssues else []) ++ (outputsOf results).flatMap (·.issues)

namespace Plan

/-- The file is not transformed. -/
def FileResult.Failed (file : FileResult) : Prop :=
  file.result.toOption = none

instance (file : FileResult) : Decidable file.Failed :=
  inferInstanceAs (Decidable (_ = none))

def resultIn (plan : Plan) (tree : Tree) (path : Path) : FileResult :=
  ⟨path, (plan.transformFile tree path).map (·.1)⟩

def treeAfter (plan : Plan) (tree : Tree) (path : Path) : Tree :=
  match plan.transformFile tree path with
  | .error _ => tree
  | .ok (_, tree) => tree

@[simp] theorem transformFiles_cons (plan : Plan) (tree : Tree) (path : Path) (paths : List Path) :
    plan.transformFiles tree (path :: paths) =
      (plan.resultIn tree path :: (plan.transformFiles (plan.treeAfter tree path) paths).1,
        (plan.transformFiles (plan.treeAfter tree path) paths).2) := by
  unfold resultIn treeAfter
  rw [transformFiles]
  cases plan.transformFile tree path <;> rfl

theorem outputsOf_length_lt_iff {results : List FileResult} :
    (outputsOf results).length < results.length ↔ ∃ file ∈ results, file.Failed := by
  have hle : (outputsOf results).length ≤ results.length := List.length_filterMap_le _ _
  have heq : (outputsOf results).length = results.length ↔
      ∀ file ∈ results, (file.result.toOption).isSome = true :=
    List.filterMap_length_eq_length
  unfold FileResult.Failed
  rw [Nat.lt_iff_le_and_ne, Ne, heq]
  simp [hle]

theorem status_run_eq_failure_iff {plan : Plan} {files : List Path} {loadIssues : List Issue} :
    (plan.run tree arguments files loadIssues).status = .failure ↔
      (∃ file ∈ (plan.transformFiles tree files).1, file.Failed) ∨
        arguments.strict = true ∧
          reportedIssues arguments loadIssues (plan.transformFiles tree files).1 ≠ [] := by
  rw [← outputsOf_length_lt_iff]
  unfold run reportedIssues
  dsimp only
  simp only [ite_eq_left_iff, reduceCtorEq, imp_false, Decidable.not_not, Bool.or_eq_true,
    decide_eq_true_eq, Bool.and_eq_true, Bool.not_eq_true', ne_eq, List.isEmpty_eq_false_iff]

theorem status_run_ne_error (plan : Plan) (tree : Tree) (arguments : TransformArguments)
    (files : List Path) (loadIssues : List Issue) :
    (plan.run tree arguments files loadIssues).status ≠ .error := by
  have hstatus {condition : Prop} [Decidable condition] :
      (if condition then Status.failure else .success) ≠ .error := by
    split <;> simp
  exact hstatus

end Plan

theorem hasFile_of_mem_filesOfArgument {ignores : List String} {argument : String}
    {files : List Path} (sound : tree.Sound)
    (h : filesOfArgument tree working ignores argument = .ok files) :
    ∀ path ∈ files, tree.HasFile path := by
  intro path hpath
  unfold filesOfArgument at h
  dsimp only at h
  split at h
  · obtain rfl := Except.ok.inj h
    exact hasFile_of_mem_scan sound hpath
  · rename_i content hlookUp
    obtain rfl := Except.ok.inj h
    obtain rfl := List.mem_singleton.mp hpath
    exact Tree.hasFile_iff_lookUp.mpr ⟨content, hlookUp⟩
  · cases h

theorem hasFile_of_mem_selectFiles {settings : Settings} {paths : List String}
    {files : List Path} {warnings : List ScanWarning} (sound : tree.Sound)
    (h : selectFiles tree working settings paths = .ok (files, warnings)) :
    ∀ path ∈ files, tree.HasFile path := by
  intro path hpath
  unfold selectFiles at h
  split at h
  · obtain ⟨rfl, _⟩ := Prod.mk.inj (Except.ok.inj h)
    exact hasFile_of_mem_scan sound hpath
  · cases hmap : paths.mapM (filesOfArgument tree working settings.config.ignores) with
    | error error =>
      rw [hmap] at h
      cases h
    | ok found =>
      rw [hmap] at h
      obtain ⟨rfl, _⟩ := Prod.mk.inj (Except.ok.inj h)
      have hmem := (List.mergeSort_perm _ _).mem_iff.mp (mem_of_mem_eraseRepsBy hpath)
      obtain ⟨some, hsome, hinside⟩ := List.mem_flatten.mp hmem
      obtain ⟨argument, _, hargument⟩ := exists_of_mem_mapM hmap hsome
      exact hasFile_of_mem_filesOfArgument sound hargument path hinside

theorem selectFiles_of_prepare (h : prepare tree working arguments = .ok selection) :
    selectFiles tree working selection.settings arguments.paths =
      .ok (selection.files, selection.warnings) := by
  unfold prepare at h
  cases hload : loadSettings tree working with
  | error error =>
    rw [hload] at h
    cases h
  | ok loaded =>
    rw [hload] at h
    dsimp only [Except.mapError, bind, Except.bind] at h
    split at h
    · cases h
    · split at h
      · cases h
      · split at h
        · cases h
        · rename_i hselect
          obtain rfl := Except.ok.inj h
          exact hselect

theorem hasFile_of_prepare (sound : tree.Sound)
    (h : prepare tree working arguments = .ok selection) :
    ∀ path ∈ selection.files, tree.HasFile path :=
  hasFile_of_mem_selectFiles sound (selectFiles_of_prepare h)

theorem exists_takeAll_of_parse {argv : List String}
    (h : Request.parse argv = .ok (.transform arguments)) :
    ∃ rest, argv = "transform" :: rest ∧
      TransformArguments.takeAll .empty .nothing false rest = .ok arguments ∧
      (arguments.write && arguments.outDirectory.isSome) = false := by
  have hparse : ∃ rest, argv = "transform" :: rest ∧
      TransformArguments.parse rest = .ok arguments := by
    unfold Request.parse at h
    split at h
    · cases h
    · rename_i argument rest
      split at h
      · rename_i hname
        cases hrest : TransformArguments.parse rest with
        | error usage =>
          rw [hrest] at h
          cases h
        | ok found =>
          rw [hrest] at h
          obtain rfl := Request.transform.inj (Except.ok.inj h)
          exact ⟨rest, by rw [hname], hrest⟩
      · split at h
        · unfold parseInit at h
          repeat' (split at h)
          all_goals cases h
        · split at h
          · cases h
          · split at h
            · unfold parseSeparated at h
              split at h <;> cases h
            all_goals cases h
  obtain ⟨rest, rfl, hrest⟩ := hparse
  unfold TransformArguments.parse at hrest
  cases htake : TransformArguments.takeAll .empty .nothing false rest with
  | error usage =>
    rw [htake] at hrest
    cases hrest
  | ok found =>
    rw [htake] at hrest
    dsimp only [bind, Except.bind] at hrest
    split at hrest
    · cases hrest
    · rename_i hboth
      obtain rfl := Except.ok.inj hrest
      exact ⟨rest, rfl, htake, Bool.eq_false_iff.mpr hboth⟩

theorem outDirectory_of_parse {argv : List String}
    (h : Request.parse argv = .ok (.transform arguments)) (hwrite : arguments.write = true) :
    arguments.outDirectory = none := by
  obtain ⟨_, _, _, hboth⟩ := exists_takeAll_of_parse h
  simpa [hwrite] using hboth

theorem transform_of_error {error : RunError} (h : prepare tree working arguments = .error error) :
    transform tree working arguments = failedRun tree [] error := by
  unfold transform
  rw [h]

theorem transform_of_isEmpty (h : prepare tree working arguments = .ok selection)
    (hempty : selection.files = []) :
    (transform tree working arguments).status = .success ∧
      (transform tree working arguments).output = "" ∧
      (transform tree working arguments).tree = tree := by
  unfold transform
  rw [h]
  simp [hempty]

theorem transform_of_targetOf_error {error : RunError}
    (h : prepare tree working arguments = .ok selection) (hne : selection.files ≠ [])
    (htarget : targetOf working arguments selection.files.length = .error error) :
    (transform tree working arguments).status = .error ∧
      (transform tree working arguments).output = "" ∧
      (transform tree working arguments).tree = tree := by
  unfold transform
  rw [h]
  simp [hne, htarget, failedRun]

/-- A run whose files and target are known is the run of its plan, with the warnings of the search
in front. -/
theorem transform_of_targetOf (h : prepare tree working arguments = .ok selection)
    (hne : selection.files ≠ [])
    (htarget : targetOf working arguments selection.files.length = .ok target) :
    ∃ messages, transform tree working arguments =
      { (selection.plan working target).run tree arguments selection.files
          selection.loadIssues with messages := messages } := by
  unfold transform
  rw [h]
  simp only [hne, htarget, List.isEmpty_iff, ↓reduceIte]
  exact ⟨_, rfl⟩

theorem tree_transform (h : prepare tree working arguments = .ok selection)
    (htarget : targetOf working arguments selection.files.length = .ok target) :
    (transform tree working arguments).tree =
      ((selection.plan working target).transformFiles tree selection.files).2 := by
  by_cases hne : selection.files = []
  · rw [(transform_of_isEmpty h hne).2.2, hne]
    rfl
  · obtain ⟨messages, heq⟩ := transform_of_targetOf h hne htarget
    rw [heq]
    rfl

theorem status_transform (h : prepare tree working arguments = .ok selection)
    (hne : selection.files ≠ [])
    (htarget : targetOf working arguments selection.files.length = .ok target) :
    (transform tree working arguments).status ≠ .error ∧
      ((transform tree working arguments).status = .failure ↔
        (∃ file ∈ ((selection.plan working target).transformFiles tree selection.files).1,
          file.Failed) ∨
        arguments.strict = true ∧ reportedIssues arguments selection.loadIssues
          ((selection.plan working target).transformFiles tree selection.files).1 ≠ []) := by
  obtain ⟨messages, heq⟩ := transform_of_targetOf h hne htarget
  rw [heq]
  exact ⟨Plan.status_run_ne_error _ _ _ _ _, Plan.status_run_eq_failure_iff⟩

end TemplateMessages.Command
