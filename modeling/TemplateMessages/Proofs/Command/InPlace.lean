import Mathlib
import TemplateMessages.Proofs.Command.Runs

set_option autoImplicit false

/-!
# Runs that write in place

In place, the transformation of a file reads and writes that file alone, so each of several
different files becomes what it would become as the only one, and they can be taken in any order.
-/

namespace TemplateMessages.Command

open TemplateMessages.Files
open TemplateMessages.Project
open TemplateMessages.Template (Output TransformError)

namespace Plan

/-- What becomes of a file with this content. A text that stays the same is not written. -/
def resultOf (plan : Plan) (path : Path) (content : Content) : Except FileFailure Output := do
  let source ← content.read.mapError (.unreadable path)
  let output ←
    (Component.transformComponent source.toList (plan.options path) plan.translator).mapError
      .transform
  if output.code = source then return output
  let _ ← (content.replace output.code).mapError (.unwritable path)
  return output

def rewritten (plan : Plan) (path : Path) : Content → Content
  | .text source =>
    match Component.transformComponent source.toList (plan.options path) plan.translator with
    | .ok output => .text output.code
    | .error _ => .text source
  | content => content

structure Rewrites (plan : Plan) (tree : Tree) (files : List Path) (after : Tree) : Prop where
  changed : ∀ path ∈ files, ∀ place content, tree.locate path = .ok place →
    tree.entry place = .file content → after.entry place = .file (plan.rewritten path content)
  kept : ∀ place, (∀ path ∈ files, tree.locate path ≠ .ok place) →
    after.entry place = tree.entry place

variable {plan : Plan} {tree : Tree} {path : Path} {place : Place} {content : Content}

theorem store_inPlace_self {source : String} (htarget : plan.target = .inPlace) :
    plan.store tree path source source = .ok tree := by
  unfold store
  rw [htarget]
  exact if_pos rfl

theorem store_inPlace_of_ne {source code : String} (htarget : plan.target = .inPlace)
    (hne : code ≠ source) (hlocate : tree.locate path = .ok place)
    (hentry : tree.entry place = .file content) :
    plan.store tree path source code =
      ((content.replace code).map (tree.putFile place)).mapError (.unwritable path) := by
  unfold store
  rw [htarget]
  dsimp only
  rw [if_neg hne, Tree.write_file code hlocate hentry]
  cases content.replace code <;> rfl

theorem rewritten_of_unread {error : FileError} (hread : content.read = .error error) :
    plan.rewritten path content = content := by
  cases content with
  | text source => cases hread
  | readOnly source => rfl
  | binary => rfl

theorem rewritten_of_error {source : String} {error : TransformError}
    (hread : content.read = .ok source)
    (htransform : Component.transformComponent source.toList (plan.options path)
      plan.translator = .error error) :
    plan.rewritten path content = content := by
  cases content with
  | text _ =>
    obtain rfl := Except.ok.inj hread
    unfold rewritten
    dsimp only
    rw [htransform]
  | readOnly _ => rfl
  | binary => rfl

theorem rewritten_of_ok {source : String} {output : Output} (hread : content.read = .ok source)
    (htransform : Component.transformComponent source.toList (plan.options path)
      plan.translator = .ok output) :
    plan.rewritten path content = (content.replace output.code).toOption.getD content := by
  cases content with
  | text _ =>
    obtain rfl := Except.ok.inj hread
    unfold rewritten
    dsimp only
    rw [htransform]
    rfl
  | readOnly _ => rfl
  | binary => cases hread

theorem replace_self_of_read {source : String} (hread : content.read = .ok source) :
    (content.replace source).toOption.getD content = content := by
  cases content with
  | text _ =>
    obtain rfl := Except.ok.inj hread
    rfl
  | readOnly _ => rfl
  | binary => cases hread

theorem transformFile_inPlace (htarget : plan.target = .inPlace)
    (hlocate : tree.locate path = .ok place) (hentry : tree.entry place = .file content) :
    plan.resultIn tree path = ⟨path, plan.resultOf path content⟩ ∧
      (plan.treeAfter tree path).entry place = .file (plan.rewritten path content) ∧
      ∀ other, other ≠ place → (plan.treeAfter tree path).entry other = tree.entry other := by
  unfold resultIn treeAfter transformFile resultOf
  rw [Tree.read_file hlocate hentry]
  cases hread : content.read with
  | error error =>
    rw [rewritten_of_unread hread]
    exact ⟨rfl, hentry, fun _ _ => rfl⟩
  | ok source =>
    dsimp only [Except.mapError, bind, Except.bind]
    cases htransform :
        Component.transformComponent source.toList (plan.options path) plan.translator with
    | error error =>
      rw [rewritten_of_error hread htransform]
      exact ⟨rfl, hentry, fun _ _ => rfl⟩
    | ok output =>
      dsimp only
      rw [rewritten_of_ok hread htransform]
      by_cases hsame : output.code = source
      · rw [hsame, store_inPlace_self htarget, if_pos rfl, replace_self_of_read hread]
        exact ⟨rfl, hentry, fun _ _ => rfl⟩
      · rw [store_inPlace_of_ne htarget hsame hlocate hentry, if_neg hsame]
        cases content.replace output.code with
        | error error => exact ⟨rfl, hentry, fun _ _ => rfl⟩
        | ok written =>
          exact ⟨rfl, Tree.entry_putFile_self _ _ _,
            fun other hne => Tree.entry_putFile_of_ne hentry hne⟩

theorem entry_treeAfter_inPlace (htarget : plan.target = .inPlace) (hpath : tree.HasFile path)
    {next : Place} (hapart : tree.locate path ≠ .ok next) :
    (plan.treeAfter tree path).entry next = tree.entry next := by
  obtain ⟨place, content, hlocate, hentry⟩ := hpath
  obtain ⟨_, _, hkept⟩ := transformFile_inPlace htarget hlocate hentry
  refine hkept next ?_
  rintro rfl
  exact hapart hlocate

theorem locate_treeAfter_inPlace (htarget : plan.target = .inPlace) (hpath : tree.HasFile path)
    {other : Path} (hother : tree.HasFile other) :
    (plan.treeAfter tree path).locate other = tree.locate other := by
  obtain ⟨next, _, hnext, _⟩ := hother
  rw [hnext]
  refine Tree.locate_of_directories (fun directory hdirectory => ?_) hnext
  rw [entry_treeAfter_inPlace htarget hpath]
  · exact hdirectory
  · intro hlocate
    obtain ⟨place, _, hplace, hentry⟩ := hpath
    obtain rfl := Except.ok.inj (hplace.symm.trans hlocate)
    rw [hentry] at hdirectory
    cases hdirectory

/-- Another file is found where it was, with the content that it had. -/
theorem found_treeAfter_inPlace (htarget : plan.target = .inPlace) (hpath : tree.HasFile path)
    {other : Path} {next : Place} (hapart : tree.locate path ≠ tree.locate other)
    (hnext : tree.locate other = .ok next) (hcontent : tree.entry next = .file content) :
    (plan.treeAfter tree path).locate other = .ok next ∧
      (plan.treeAfter tree path).entry next = .file content := by
  rw [locate_treeAfter_inPlace htarget hpath ⟨next, content, hnext, hcontent⟩,
    entry_treeAfter_inPlace htarget hpath (hnext ▸ hapart)]
  exact ⟨hnext, hcontent⟩

theorem hasFile_treeAfter_inPlace (htarget : plan.target = .inPlace) (hpath : tree.HasFile path)
    {other : Path} (hapart : tree.locate path ≠ tree.locate other) (hother : tree.HasFile other) :
    (plan.treeAfter tree path).HasFile other := by
  obtain ⟨next, content, hnext, hcontent⟩ := hother
  exact ⟨next, content, found_treeAfter_inPlace htarget hpath hapart hnext hcontent⟩

theorem resultIn_treeAfter_inPlace (htarget : plan.target = .inPlace) (hpath : tree.HasFile path)
    {other : Path} (hapart : tree.locate path ≠ tree.locate other) (hother : tree.HasFile other) :
    plan.resultIn (plan.treeAfter tree path) other = plan.resultIn tree other := by
  obtain ⟨next, content, hnext, hcontent⟩ := hother
  obtain ⟨hnext', hcontent'⟩ := found_treeAfter_inPlace htarget hpath hapart hnext hcontent
  rw [(transformFile_inPlace htarget hnext hcontent).1,
    (transformFile_inPlace htarget hnext' hcontent').1]

theorem separates_treeAfter_inPlace (htarget : plan.target = .inPlace) (hpath : tree.HasFile path)
    {files : List Path} (hfiles : ∀ file ∈ files, tree.HasFile file)
    (hseparate : tree.Separates files) : (plan.treeAfter tree path).Separates files := by
  refine List.Pairwise.imp_of_mem ?_ hseparate
  intro a b ha hb hne
  rwa [locate_treeAfter_inPlace htarget hpath (hfiles a ha),
    locate_treeAfter_inPlace htarget hpath (hfiles b hb)]

theorem Rewrites.cons (htarget : plan.target = .inPlace) (hpath : tree.HasFile path)
    {files : List Path} {after : Tree} (hfiles : ∀ file ∈ files, tree.HasFile file)
    (hapart : ∀ file ∈ files, tree.locate path ≠ tree.locate file)
    (h : plan.Rewrites (plan.treeAfter tree path) files after) :
    plan.Rewrites tree (path :: files) after := by
  have hlocate : ∀ file ∈ files, (plan.treeAfter tree path).locate file = tree.locate file :=
    fun file hfile => locate_treeAfter_inPlace htarget hpath (hfiles file hfile)
  refine ⟨?_, ?_⟩
  · intro file hfile place content hplace hcontent
    rcases List.mem_cons.mp hfile with rfl | hfile
    · rw [h.kept place fun other hother => ?_,
        (transformFile_inPlace htarget hplace hcontent).2.1]
      rw [hlocate other hother, ← hplace]
      exact (hapart other hother).symm
    · obtain ⟨hplace', hcontent'⟩ :=
        found_treeAfter_inPlace htarget hpath (hapart file hfile) hplace hcontent
      exact h.changed file hfile place content hplace' hcontent'
  · intro place hplace
    rw [h.kept place fun other hother => ?_,
      entry_treeAfter_inPlace htarget hpath (hplace path List.mem_cons_self)]
    rw [hlocate other hother]
    exact hplace other (List.mem_cons_of_mem path hother)

theorem transformFiles_inPlace (htarget : plan.target = .inPlace) {files : List Path}
    (hfiles : ∀ path ∈ files, tree.HasFile path) (hseparate : tree.Separates files) :
    (plan.transformFiles tree files).1 = files.map (plan.resultIn tree) ∧
      plan.Rewrites tree files (plan.transformFiles tree files).2 := by
  induction files generalizing tree with
  | nil => exact ⟨rfl, ⟨by simp, fun _ _ => rfl⟩⟩
  | cons first files ih =>
    obtain ⟨hfirst, hfiles⟩ := List.forall_mem_cons.mp hfiles
    obtain ⟨hapart, hseparate⟩ := List.pairwise_cons.mp hseparate
    obtain ⟨hrest, hrewrites⟩ := ih
      (fun file hfile =>
        hasFile_treeAfter_inPlace htarget hfirst (hapart file hfile) (hfiles file hfile))
      (separates_treeAfter_inPlace htarget hfirst hfiles hseparate)
    have hresults : files.map (plan.resultIn (plan.treeAfter tree first)) =
        files.map (plan.resultIn tree) :=
      List.map_congr_left fun file hfile =>
        resultIn_treeAfter_inPlace htarget hfirst (hapart file hfile) (hfiles file hfile)
    rw [transformFiles_cons]
    refine ⟨?_, hrewrites.cons htarget hfirst hfiles hapart⟩
    rw [hrest, hresults, List.map_cons]

theorem Rewrites.of_perm {files order : List Path} {after : Tree}
    (h : plan.Rewrites tree files after) (hperm : order.Perm files) :
    plan.Rewrites tree order after :=
  ⟨fun path hpath => h.changed path (hperm.mem_iff.mp hpath),
    fun place hplace => h.kept place fun path hpath => hplace path (hperm.mem_iff.mpr hpath)⟩

theorem Rewrites.entry_eq {files : List Path} {after other : Tree}
    (hfiles : ∀ path ∈ files, tree.HasFile path) (h : plan.Rewrites tree files after)
    (h' : plan.Rewrites tree files other) (place : Place) :
    after.entry place = other.entry place := by
  by_cases hplace : ∃ path ∈ files, tree.locate path = .ok place
  · obtain ⟨path, hpath, hlocate⟩ := hplace
    obtain ⟨found, content, hfound, hentry⟩ := hfiles path hpath
    obtain rfl := Except.ok.inj (hlocate.symm.trans hfound)
    rw [h.changed path hpath place content hlocate hentry,
      h'.changed path hpath place content hlocate hentry]
  · have hnone : ∀ path ∈ files, tree.locate path ≠ .ok place := fun path hpath hlocate =>
      hplace ⟨path, hpath, hlocate⟩
    rw [h.kept place hnone, h'.kept place hnone]

end Plan

variable {tree : Tree} {working : Path} {arguments : TransformArguments}

/-- A run that writes in place. When it ends with an internal error, no file is changed. Otherwise
the selected files are there, and if they are different files, what becomes of each one is told by
its content alone: it is rewritten, and nothing else is changed, whatever the order in which the
files are taken. The run fails just when a file fails, or when issues count as failures and one is
reported. -/
theorem transform_inPlace {argv : List String} (sound : tree.Sound)
    (hparse : Request.parse argv = .ok (.transform arguments)) (hwrite : arguments.write = true) :
    ((transform tree working arguments).status = .error →
      (transform tree working arguments).tree = tree) ∧
    ∀ selection, prepare tree working arguments = .ok selection →
      let plan := selection.plan working .inPlace
      let results := (plan.transformFiles tree selection.files).1
      let after := (transform tree working arguments).tree
      (∀ path ∈ selection.files, tree.HasFile path) ∧
      (tree.Separates selection.files →
        (∀ file ∈ results, ∀ place content, tree.locate file.path = .ok place →
          tree.entry place = .file content → file.result = plan.resultOf file.path content) ∧
        plan.Rewrites tree selection.files after ∧
        ∀ order, order.Perm selection.files →
          (∀ place, (plan.transformFiles tree order).2.entry place = after.entry place) ∧
          (plan.transformFiles tree order).1.Perm results) ∧
      (selection.files ≠ [] →
        (transform tree working arguments).status ≠ .error ∧
        ((transform tree working arguments).status = .failure ↔
          (∃ file ∈ results, file.Failed) ∨
          arguments.strict = true ∧
            reportedIssues arguments selection.loadIssues results ≠ [])) := by
  have htarget (count : Nat) : targetOf working arguments count = .ok .inPlace := by
    unfold targetOf
    rw [outDirectory_of_parse hparse hwrite]
    exact if_pos hwrite
  refine ⟨?_, ?_⟩
  · intro hstatus
    cases hprepare : prepare tree working arguments with
    | error error =>
      rw [transform_of_error hprepare]
      rfl
    | ok selection =>
      by_cases hne : selection.files = []
      · exact (transform_of_isEmpty hprepare hne).2.2
      · exact absurd hstatus (status_transform hprepare hne (htarget _)).1
  · intro selection hprepare plan results after
    have hfiles := hasFile_of_prepare sound hprepare
    refine ⟨hfiles, ?_, fun hne => status_transform hprepare hne (htarget _)⟩
    intro hseparate
    have hafter : after = (plan.transformFiles tree selection.files).2 :=
      tree_transform hprepare (htarget _)
    have hplan : plan.target = .inPlace := rfl
    obtain ⟨hresults, hrewrites⟩ := Plan.transformFiles_inPlace hplan hfiles hseparate
    rw [hafter]
    refine ⟨?_, hrewrites, ?_⟩
    · intro file hfile place content hlocate hentry
      rw [show results = _ from hresults] at hfile
      obtain ⟨path, _, rfl⟩ := List.mem_map.mp hfile
      exact congrArg Plan.FileResult.result
        (Plan.transformFile_inPlace hplan hlocate hentry).1
    · intro order hperm
      have hfiles' : ∀ path ∈ order, tree.HasFile path := fun path hpath =>
        hfiles path (hperm.mem_iff.mp hpath)
      have hseparate' : tree.Separates order :=
        (hperm.pairwise_iff fun hne => Ne.symm hne).mpr hseparate
      obtain ⟨hresults', hrewrites'⟩ := Plan.transformFiles_inPlace hplan hfiles' hseparate'
      refine ⟨Plan.Rewrites.entry_eq hfiles' hrewrites' (hrewrites.of_perm hperm), ?_⟩
      rw [show results = _ from hresults, hresults']
      exact hperm.map _

/-- A project with a component that can be transformed, one that cannot, and one that cannot be
written over. -/
def threeFiles : Tree where
  files := [
    (["w", "locales", "en.json"], .text "\x7b\x22k\x22: \x22Hi\x22\x7d"),
    (["w", "a.vue"], .text "<template>\x7b\x7b t('k') \x7d\x7d</template>"),
    (["w", "b.vue"], .text "<template>\x7b\x7b t('k') \x7d\x7d"),
    (["w", "c.vue"], .readOnly "<template>\x7b\x7b t('k') \x7d\x7d</template>")]
  directories := []

def threeFilesArguments : TransformArguments :=
  { TransformArguments.empty with paths := ["a.vue", "b.vue", "c.vue"], write := true }

def threeFilesSelection : Selection where
  files := [⟨["", "w", "a.vue"]⟩, ⟨["", "w", "b.vue"]⟩, ⟨["", "w", "c.vue"]⟩]
  warnings := []
  loadIssues := []
  translator := ⟨.catalog [("en", [("k", "Hi")])], [("t", .translate)]⟩
  settings := ⟨.default, ⟨["", "w"]⟩⟩

theorem sound_threeFiles : threeFiles.Sound :=
  ⟨by decide, by decide⟩

theorem parse_threeFilesArguments :
    Request.parse ["transform", "a.vue", "b.vue", "c.vue", "--write"] =
      .ok (.transform threeFilesArguments) :=
  rfl

theorem prepare_threeFiles :
    prepare threeFiles ⟨["", "w"]⟩ threeFilesArguments = .ok threeFilesSelection := by
  cbv

theorem separates_threeFiles : threeFiles.Separates threeFilesSelection.files := by
  have hne {a b : Path} (h : (threeFiles.locate a).toOption ≠ (threeFiles.locate b).toOption) :
      threeFiles.locate a ≠ threeFiles.locate b := fun heq => h (congrArg Except.toOption heq)
  refine List.Pairwise.cons ?_ (List.pairwise_pair.mpr (hne (by decide)))
  exact List.forall_mem_cons.mpr ⟨hne (by decide), List.forall_mem_singleton.mpr (hne (by decide))⟩

theorem transform_inPlace_threeFiles :
    threeFiles.Sound ∧ Request.parse ["transform", "a.vue", "b.vue", "c.vue", "--write"] =
        .ok (.transform threeFilesArguments) ∧ threeFilesArguments.write = true ∧
      prepare threeFiles ⟨["", "w"]⟩ threeFilesArguments = .ok threeFilesSelection ∧
      threeFiles.Separates threeFilesSelection.files ∧
      (transform threeFiles ⟨["", "w"]⟩ threeFilesArguments).status = .failure ∧
      (transform threeFiles ⟨["", "w"]⟩ threeFilesArguments).tree.entry ["w", "a.vue"] =
        .file (.text "<template>Hi</template>") ∧
      (transform threeFiles ⟨["", "w"]⟩ threeFilesArguments).tree.entry ["w", "b.vue"] =
        threeFiles.entry ["w", "b.vue"] ∧
      (transform threeFiles ⟨["", "w"]⟩ threeFilesArguments).tree.entry ["w", "c.vue"] =
        threeFiles.entry ["w", "c.vue"] := by
  have hrun : ∀ selection, prepare threeFiles ⟨["", "w"]⟩ threeFilesArguments = .ok selection → _ :=
    (transform_inPlace sound_threeFiles parse_threeFilesArguments rfl).2
  obtain ⟨_, hseparated, hstatus⟩ := hrun threeFilesSelection prepare_threeFiles
  obtain ⟨_, ⟨hchanged, _⟩, _⟩ := hseparated separates_threeFiles
  refine ⟨sound_threeFiles, parse_threeFilesArguments, rfl, prepare_threeFiles,
    separates_threeFiles, ?_, ?_, ?_, ?_⟩
  · refine (hstatus (by decide)).2.mpr (Or.inl ?_)
    decide +kernel
  · have hlocate : threeFiles.locate ⟨["", "w", "a.vue"]⟩ = .ok ["w", "a.vue"] := rfl
    rw [hchanged _ (by decide) _ _ hlocate rfl]
    decide +kernel
  · have hlocate : threeFiles.locate ⟨["", "w", "b.vue"]⟩ = .ok ["w", "b.vue"] := rfl
    rw [hchanged _ (by decide) _ _ hlocate rfl]
    decide +kernel
  · have hlocate : threeFiles.locate ⟨["", "w", "c.vue"]⟩ = .ok ["w", "c.vue"] := rfl
    rw [hchanged _ (by decide) _ _ hlocate rfl]
    rfl

theorem not_read_eq_code :
    ¬ ∀ (tree : Tree) (working : Path) (argv : List String) (arguments : TransformArguments)
        (selection : Selection),
      tree.Sound → Request.parse argv = .ok (.transform arguments) → arguments.write = true →
      prepare tree working arguments = .ok selection → tree.Separates selection.files →
      ∀ path ∈ selection.files, ∀ source output, tree.read path = .ok source →
        Component.transformComponent source.toList
          ((selection.plan working .inPlace).options path) selection.translator = .ok output →
        (transform tree working arguments).tree.read path = .ok output.code := by
  intro h
  let output : Output := ⟨"<template>Hi</template>", [], 1⟩
  have hread := h threeFiles ⟨["", "w"]⟩ _ threeFilesArguments threeFilesSelection
    sound_threeFiles parse_threeFilesArguments rfl prepare_threeFiles separates_threeFiles
    ⟨["", "w", "c.vue"]⟩ (by decide) "<template>\x7b\x7b t('k') \x7d\x7d</template>" output rfl
    (by decide +kernel)
  rw [tree_transform prepare_threeFiles rfl] at hread
  exact absurd hread (by decide +kernel)

end TemplateMessages.Command
