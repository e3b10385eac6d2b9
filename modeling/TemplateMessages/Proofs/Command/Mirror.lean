import Mathlib
import TemplateMessages.Proofs.Command.Runs
import TemplateMessages.Proofs.Files.Places

set_option autoImplicit false

/-!
# Runs that write to a directory

A file is written below the directory along the route that leads to it from the working directory,
or from the root when it lies elsewhere. When a route climbs, it may lead out of the directory.
-/

namespace TemplateMessages.Command

open TemplateMessages.Files
open TemplateMessages.Project
open TemplateMessages.Template (Output)

namespace Plan

def relative (plan : Plan) (path : Path) : Path :=
  ((seenFrom plan.working path).below? .root).getD (seenFrom plan.working path)

def base (plan : Plan) (path : Path) : Place :=
  if (path.below? plan.working).isSome then plan.working.place else []

def route (plan : Plan) (path : Path) : Route :=
  Route.ofParts (plan.relative path).parts

def mirroredPlace (plan : Plan) (directory path : Path) : Place :=
  (plan.mirrored directory path).place

/-- A run writes to nothing but the directory, to a place of its own for each file, and leaves the
files that are not in the directory as they are. -/
structure Mirrors (plan : Plan) (directory : Path) (tree : Tree) (results : List FileResult)
    (after : Tree) : Prop where
  inside : ∀ file ∈ results, ¬ file.Failed →
    directory.place <+: plan.mirroredPlace directory file.path
  apart : ∀ a ∈ results, ∀ b ∈ results, a.path.place ≠ b.path.place →
    plan.mirroredPlace directory a.path ≠ plan.mirroredPlace directory b.path
  kept : ∀ file ∈ results, ¬ directory.place <+: file.path.place →
    after.entry file.path.place = tree.entry file.path.place

variable {plan : Plan} {tree after : Tree} {path directory : Path} {files : List Path}

theorem relative_spec (plan : Plan) (path : Path) :
    path.place = walk (plan.base path) (plan.relative path).parts ∧
      (plan.relative path).isAbsolute = false := by
  unfold base relative seenFrom
  cases hbelow : path.below? plan.working with
  | some inner =>
    obtain ⟨hplace, habsolute⟩ := walk_of_below? hbelow
    have hroot : inner.below? .root = none := by
      unfold Path.below?
      simp [habsolute]
    simp only [Option.getD_some, Option.isSome_some, ↓reduceIte, hroot, Option.getD_none]
    exact ⟨hplace, habsolute⟩
  | none =>
    simp only [Option.getD_none, Option.isSome_none, Bool.false_eq_true, ↓reduceIte]
    cases habsolute : path.isAbsolute with
    | true =>
      obtain ⟨inner, hinner⟩ := exists_below?_root habsolute
      rw [hinner]
      exact walk_of_below? hinner
    | false =>
      have hroot : path.below? .root = none := by
        unfold Path.below?
        simp [habsolute]
      rw [hroot]
      exact ⟨place_eq_walk path, habsolute⟩

theorem place_eq_goFrom (plan : Plan) (path : Path) :
    path.place = (plan.route path).goFrom (plan.base path) := by
  simp [(plan.relative_spec path).1, route]

theorem mirroredPlace_eq_goFrom (plan : Plan) (directory path : Path) :
    plan.mirroredPlace directory path = (plan.route path).goFrom directory.place := by
  have hmirrored : plan.mirrored directory path = directory.join (plan.relative path) := rfl
  rw [mirroredPlace, hmirrored, place_join directory (plan.relative_spec path).2, route,
    Route.goFrom_ofParts]

theorem writeUnder_gains {text : String} (h : writeUnder tree path text = .ok after) :
    tree.Gains (· = path.place) after ∧ after.entry path.place = .file (.text text) := by
  unfold writeUnder at h
  dsimp only at h
  split at h
  · cases h
  · rename_i middle hmade
    split at h
    · cases h
    · rename_i written hwrite
      obtain rfl := Except.ok.inj h
      obtain ⟨place, hlocate, rfl⟩ := Tree.exists_putFile_of_write hwrite
      obtain rfl := place_of_locate hlocate
      exact ⟨(Tree.gains_makeDirectories hmade).trans (Tree.gains_putFile middle path.place _),
        Tree.entry_putFile_self middle path.place _⟩

def IsWritten (plan : Plan) (directory : Path) (results : List FileResult) (place : Place) : Prop :=
  ∃ file ∈ results, ¬ file.Failed ∧ plan.mirroredPlace directory file.path = place

theorem resultIn_mirror (htarget : plan.target = .mirror directory) (tree : Tree) (path : Path) :
    (plan.resultIn tree path).Failed ∧ plan.treeAfter tree path = tree ∨
      ∃ output, (plan.resultIn tree path).result = .ok output ∧
        tree.Gains (· = plan.mirroredPlace directory path) (plan.treeAfter tree path) ∧
        (plan.treeAfter tree path).entry (plan.mirroredPlace directory path) =
          .file (.text output.code) := by
  unfold resultIn treeAfter FileResult.Failed
  cases htransform : plan.transformFile tree path with
  | error failure => exact Or.inl ⟨rfl, rfl⟩
  | ok transformed =>
    obtain ⟨output, after⟩ := transformed
    refine Or.inr ⟨output, rfl, ?_⟩
    unfold transformFile at htransform
    split at htransform
    · cases htransform
    · split at htransform
      · cases htransform
      · rename_i source _ output' _
        unfold store at htransform
        rw [htarget] at htransform
        dsimp only at htransform
        cases hwrite : writeUnder tree (plan.mirrored directory path) output'.code with
        | error failure =>
          rw [hwrite] at htransform
          cases htransform
        | ok written =>
          rw [hwrite] at htransform
          obtain ⟨rfl, rfl⟩ := Prod.mk.inj (Except.ok.inj htransform)
          exact writeUnder_gains hwrite

@[simp] theorem map_path_transformFiles (plan : Plan) (tree : Tree) (files : List Path) :
    (plan.transformFiles tree files).1.map (·.path) = files := by
  induction files generalizing tree with
  | nil => rfl
  | cons path files ih =>
    rw [transformFiles_cons, List.map_cons, ih]
    rfl

theorem transformFiles_mirror (htarget : plan.target = .mirror directory) (tree : Tree)
    (files : List Path) :
    tree.Gains (plan.IsWritten directory (plan.transformFiles tree files).1)
        (plan.transformFiles tree files).2 ∧
      ∀ place, plan.IsWritten directory (plan.transformFiles tree files).1 place →
        ∃ file ∈ (plan.transformFiles tree files).1, ∃ output, file.result = .ok output ∧
          plan.mirroredPlace directory file.path = place ∧
          (plan.transformFiles tree files).2.entry place = .file (.text output.code) := by
  induction files generalizing tree with
  | nil => exact ⟨Tree.Gains.refl tree _, by rintro place ⟨file, hfile, _⟩; cases hfile⟩
  | cons first files ih =>
    obtain ⟨hgains, hholds⟩ := ih (plan.treeAfter tree first)
    rw [transformFiles_cons]
    dsimp only
    have hrest : ∀ place, plan.IsWritten directory
          (plan.transformFiles (plan.treeAfter tree first) files).1 place →
        plan.IsWritten directory (plan.resultIn tree first ::
          (plan.transformFiles (plan.treeAfter tree first) files).1) place := by
      rintro place ⟨file, hfile, hwritten⟩
      exact ⟨file, List.mem_cons_of_mem _ hfile, hwritten⟩
    rcases resultIn_mirror htarget tree first with ⟨hfailed, hsame⟩ | ⟨output, hok, hfirst, hcode⟩
    · rw [hsame] at hgains hholds hrest ⊢
      refine ⟨hgains.mono hrest, ?_⟩
      rintro place ⟨file, hfile, hwritten, hplace⟩
      rcases List.mem_cons.mp hfile with rfl | hfile
      · exact absurd hfailed hwritten
      · obtain ⟨last, hlast, hholds⟩ := hholds place ⟨file, hfile, hwritten, hplace⟩
        exact ⟨last, List.mem_cons_of_mem _ hlast, hholds⟩
    · have hwritten : ¬ (plan.resultIn tree first).Failed := by
        unfold FileResult.Failed
        rw [hok]
        nofun
      refine ⟨(hfirst.mono ?_).trans (hgains.mono hrest), ?_⟩
      · rintro place rfl
        exact ⟨_, List.mem_cons_self, hwritten, rfl⟩
      · rintro place ⟨file, hfile, hfile', hplace⟩
        -- A later file may be written over the first one.
        by_cases hlater : plan.IsWritten directory
          (plan.transformFiles (plan.treeAfter tree first) files).1 place
        · obtain ⟨last, hlast, hholds⟩ := hholds place hlater
          exact ⟨last, List.mem_cons_of_mem _ hlast, hholds⟩
        · rcases List.mem_cons.mp hfile with rfl | hfile
          · refine ⟨_, List.mem_cons_self, output, hok, hplace, ?_⟩
            obtain rfl : plan.mirroredPlace directory first = place := hplace
            rcases hgains _ hlater with hsame | ⟨hmissing, _⟩
            · exact hsame.trans hcode
            · rw [hcode] at hmissing
              cases hmissing
          · exact absurd ⟨file, hfile, hfile', hplace⟩ hlater

/-- What is written stays in the directory just when no route of a file that is written climbs
without going down again the way that it came. Files are kept apart just when no route joins that of
another file. -/
theorem mirrors_iff {results : List FileResult}
    (hfiles : ∀ file ∈ results, ∃ content, tree.entry file.path.place = .file content)
    (hgains : tree.Gains (plan.IsWritten directory results) after) :
    plan.Mirrors directory tree results after ↔
      (∀ file ∈ results, ¬ file.Failed →
        directory.place.drop (directory.place.length - (plan.route file.path).up) <+:
          (plan.route file.path).names) ∧
      ∀ a ∈ results, ∀ b ∈ results, a.path.place ≠ b.path.place →
        ¬ (plan.route a.path).Joins (plan.route b.path) directory.place := by
  constructor
  · rintro ⟨hinside, hapart, _⟩
    refine ⟨fun file hfile hwritten => ?_, fun a ha b hb hne hjoins => ?_⟩
    · have hfile := hinside file hfile hwritten
      rwa [mirroredPlace_eq_goFrom, Route.prefix_goFrom_iff] at hfile
    · refine hapart a ha b hb hne ?_
      rw [mirroredPlace_eq_goFrom, mirroredPlace_eq_goFrom]
      exact Route.goFrom_eq_iff.mpr (Or.inl hjoins)
  · rintro ⟨hstays, hjoins⟩
    have hinside : ∀ file ∈ results, ¬ file.Failed →
        directory.place <+: plan.mirroredPlace directory file.path := by
      intro file hfile hwritten
      rw [mirroredPlace_eq_goFrom, Route.prefix_goFrom_iff]
      exact hstays file hfile hwritten
    refine ⟨hinside, fun a ha b hb hne heq => ?_, fun file hfile houtside => ?_⟩
    · rw [mirroredPlace_eq_goFrom, mirroredPlace_eq_goFrom, Route.goFrom_eq_iff] at heq
      rcases heq with heq | heq
      · exact hjoins a ha b hb hne heq
      · exact hjoins b hb a ha hne.symm heq
    · have hnot : ¬ plan.IsWritten directory results file.path.place := by
        rintro ⟨other, hother, hwritten, hplace⟩
        rw [← hplace] at houtside
        exact houtside (hinside other hother hwritten)
      rcases hgains _ hnot with hsame | ⟨hmissing, _⟩
      · exact hsame
      · obtain ⟨content, hcontent⟩ := hfiles file hfile
        rw [hcontent] at hmissing
        cases hmissing

theorem mirrors_of_below {results : List FileResult}
    (hfiles : ∀ file ∈ results, ∃ content, tree.entry file.path.place = .file content)
    (hgains : tree.Gains (plan.IsWritten directory results) after)
    (hbelow : ∀ file ∈ results, (file.path.below? plan.working).isSome = true ∧
      (plan.route file.path).up = 0) :
    plan.Mirrors directory tree results after := by
  refine (mirrors_iff hfiles hgains).mpr ⟨fun file hfile _ => ?_, fun a ha b hb hne hjoins => ?_⟩
  · rw [(hbelow file hfile).2]
    simp
  · refine hne ?_
    have hbase : plan.base a.path = plan.base b.path := by
      unfold base
      rw [(hbelow a ha).1, (hbelow b hb).1]
    have hmirrored := Route.goFrom_eq_iff.mpr (Or.inl hjoins)
    rw [Route.goFrom_of_up_eq_zero (hbelow a ha).2, Route.goFrom_of_up_eq_zero (hbelow b hb).2,
      List.append_cancel_left_eq] at hmirrored
    rw [plan.place_eq_goFrom, plan.place_eq_goFrom b.path, hbase,
      Route.goFrom_of_up_eq_zero (hbelow a ha).2, Route.goFrom_of_up_eq_zero (hbelow b hb).2,
      hmirrored]

end Plan

variable {tree : Tree} {working : Path} {arguments : TransformArguments}

/-- A run that writes to a directory. When its files cannot be selected, nothing is changed.
Otherwise they are there, and nothing is changed but the places that files are written to, each of
which holds the code of one of these files, and the directories around them. The run keeps to the
directory and keeps the files apart just when each file that is written has a route that goes down
again all the way that it climbs, and no route joins that of another file. This is so for files
below the working directory with routes that do not climb. -/
theorem transform_mirror {text : String} (sound : tree.Sound)
    (hdirectory : arguments.outDirectory = some text) :
    (∀ error, prepare tree working arguments = .error error →
      (transform tree working arguments).tree = tree) ∧
    ∀ selection, prepare tree working arguments = .ok selection →
      let directory := working.join (Path.ofString text)
      let plan := selection.plan working (.mirror directory)
      let results := (plan.transformFiles tree selection.files).1
      let after := (transform tree working arguments).tree
      results.map (·.path) = selection.files ∧
      (∀ path ∈ selection.files, ∃ content, tree.locate path = .ok path.place ∧
        tree.entry path.place = .file content) ∧
      tree.Gains (plan.IsWritten directory results) after ∧
      (∀ place, plan.IsWritten directory results place →
        ∃ file ∈ results, ∃ output, file.result = .ok output ∧
          plan.mirroredPlace directory file.path = place ∧
          after.entry place = .file (.text output.code)) ∧
      (plan.Mirrors directory tree results after ↔
        (∀ file ∈ results, ¬ file.Failed →
          directory.place.drop (directory.place.length - (plan.route file.path).up) <+:
            (plan.route file.path).names) ∧
        ∀ a ∈ results, ∀ b ∈ results, a.path.place ≠ b.path.place →
          ¬ (plan.route a.path).Joins (plan.route b.path) directory.place) ∧
      ((∀ path ∈ selection.files, (path.below? working).isSome = true ∧ (plan.route path).up = 0) →
        plan.Mirrors directory tree results after) := by
  refine ⟨fun error herror => ?_, fun selection hprepare => ?_⟩
  · rw [transform_of_error herror]
    rfl
  · intro directory plan results after
    have htarget : targetOf working arguments selection.files.length = .ok (.mirror directory) := by
      unfold targetOf
      rw [hdirectory]
    have hafter : after = (plan.transformFiles tree selection.files).2 :=
      tree_transform hprepare htarget
    have hpaths : results.map (·.path) = selection.files :=
      plan.map_path_transformFiles tree selection.files
    have hfiles : ∀ path ∈ selection.files, ∃ content, tree.locate path = .ok path.place ∧
        tree.entry path.place = .file content := by
      intro path hpath
      obtain ⟨place, content, hlocate, hentry⟩ := hasFile_of_prepare sound hprepare path hpath
      obtain rfl := place_of_locate hlocate
      exact ⟨content, hlocate, hentry⟩
    have hmem : ∀ file ∈ results, file.path ∈ selection.files := fun file hfile =>
      hpaths ▸ List.mem_map_of_mem hfile
    have hresults : ∀ file ∈ results, ∃ content, tree.entry file.path.place = .file content := by
      intro file hfile
      obtain ⟨content, _, hentry⟩ := hfiles file.path (hmem file hfile)
      exact ⟨content, hentry⟩
    have hplan : plan.target = .mirror directory := rfl
    obtain ⟨hgains, hholds⟩ := Plan.transformFiles_mirror hplan tree selection.files
    rw [hafter]
    exact ⟨hpaths, hfiles, hgains, hholds, Plan.mirrors_iff hresults hgains, fun hbelow =>
      Plan.mirrors_of_below hresults hgains fun file hfile => hbelow file.path (hmem file hfile)⟩

def outsideFile : Tree where
  files := [
    (["w", "locales", "en.json"], .text "\x7b\x22k\x22: \x22Hi\x22\x7d"),
    (["a.vue"], .text "<template>\x7b\x7b t('k') \x7d\x7d</template>")]
  directories := []

def outsideArguments : TransformArguments :=
  { TransformArguments.empty with paths := ["../a.vue"], outDirectory := some "../x" }

def outsideSelection : Selection where
  files := [⟨["", "w", "..", "a.vue"]⟩]
  warnings := []
  loadIssues := []
  translator := ⟨.catalog [("en", [("k", "Hi")])], [("t", .translate)]⟩
  settings := ⟨.default, ⟨["", "w"]⟩⟩

theorem transform_mirror_outsideFile :
    outsideFile.Sound ∧ outsideArguments.outDirectory = some "../x" ∧
      prepare outsideFile ⟨["", "w"]⟩ outsideArguments = .ok outsideSelection ∧
      (transform outsideFile ⟨["", "w"]⟩ outsideArguments).tree.entry ["a.vue"] =
        .file (.text "<template>Hi</template>") ∧
      ¬ (outsideSelection.plan ⟨["", "w"]⟩ (.mirror ⟨["", "w", "..", "x"]⟩)).Mirrors
        ⟨["", "w", "..", "x"]⟩ outsideFile
        ((outsideSelection.plan ⟨["", "w"]⟩ (.mirror ⟨["", "w", "..", "x"]⟩)).transformFiles
          outsideFile outsideSelection.files).1
        (transform outsideFile ⟨["", "w"]⟩ outsideArguments).tree := by
  have sound : outsideFile.Sound := ⟨by decide, by decide⟩
  have hprepare : prepare outsideFile ⟨["", "w"]⟩ outsideArguments = .ok outsideSelection := by
    cbv
  obtain ⟨_, hrun⟩ :=
    @transform_mirror outsideFile ⟨["", "w"]⟩ outsideArguments "../x" sound rfl
  obtain ⟨_, _, _, _, hmirrors, _⟩ := hrun outsideSelection hprepare
  refine ⟨sound, rfl, hprepare, by decide +kernel, fun h => ?_⟩
  exact absurd (hmirrors.mp h).1 (by decide +kernel)

end TemplateMessages.Command
