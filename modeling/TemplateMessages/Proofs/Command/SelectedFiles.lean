import TemplateMessages.Command.Transform
import TemplateMessages.Proofs.Files.Places
import TemplateMessages.Proofs.Project.ScannedFiles

set_option autoImplicit false

/-!
# Files of a directory

A directory can be given to the command, or be the only include of the configuration. In both cases
the same files are met, and the same patterns leave files out. An ignore without wildcards is seen
from the directory in the one case, and from the project in the other.
-/

namespace TemplateMessages.Command

open TemplateMessages.Files
open TemplateMessages.Project

variable {tree : Tree} {place : Place} {start path working : Path} {settings : Settings}
  {directory : String}

theorem exists_way_of_mem_filesFrom (sound : tree.Sound) (hlocate : tree.locate start = .ok place)
    (hentry : tree.entry place = .directory) (h : path ∈ filesFrom tree start) :
    ∃ way, path = start.join ⟨way⟩ ∧ path.place = place ++ way := by
  unfold filesFrom at h
  rw [hlocate] at h
  dsimp only at h
  rw [hentry] at h
  obtain ⟨way, hway, rfl⟩ := List.mem_map.mp h
  obtain ⟨file, hfile, hbehind⟩ := List.mem_filterMap.mp hway
  unfold Tree.behind? at hbehind
  split at hbehind
  · rename_i haround
    obtain rfl := Option.some.inj hbehind
    rw [Bool.and_eq_true, List.isPrefixOf_iff_prefix] at haround
    have hplace : place ++ file.1.drop place.length = file.1 :=
      List.prefix_iff_eq_append.mp haround.1
    refine ⟨_, rfl, ?_⟩
    rw [place_of_locate (sound.locate_join hlocate hfile hplace), hplace]
  · cases hbehind

theorem eq_of_components_eq (sound : tree.Sound) (hdirectory : tree.lookUp start = .directory)
    {a b : Path} (ha : a ∈ filesFrom tree start) (hb : b ∈ filesFrom tree start)
    (h : a.components = b.components) : a = b := by
  unfold Tree.lookUp at hdirectory
  split at hdirectory
  · rename_i place hlocate
    obtain ⟨way, rfl, hway⟩ := exists_way_of_mem_filesFrom sound hlocate hdirectory ha
    obtain ⟨other, rfl, hother⟩ := exists_way_of_mem_filesFrom sound hlocate hdirectory hb
    have hplace : (start.join ⟨way⟩).place = (start.join ⟨other⟩).place := by
      unfold Path.place
      rw [h]
    rw [hway, hother] at hplace
    rw [List.append_cancel_left hplace]
  · cases hdirectory

theorem mem_distinctPaths_iff {paths : List Path}
    (h : ∀ a ∈ paths, ∀ b ∈ paths, a.components = b.components → a = b) :
    path ∈ distinctPaths paths ↔ path ∈ paths := by
  have hsorted : ∀ a ∈ paths.mergeSort Path.le, ∀ b ∈ paths.mergeSort Path.le,
      (a.components == b.components) = true → a = b := by
    intro a ha b hb hsame
    exact h a (List.mem_mergeSort.mp ha) b (List.mem_mergeSort.mp hb) (beq_iff_eq.mp hsame)
  exact (mem_eraseRepsBy_iff hsorted).trans List.mem_mergeSort

def including (settings : Settings) (entry : String) : Settings :=
  { settings with config := { settings.config with includes := [entry] } }

theorem selectFiles_argument
    (h : tree.lookUp (working.join (Path.ofString directory)) = .directory) :
    selectFiles tree working settings [directory] =
      .ok (distinctPaths (scan tree (working.join (Path.ofString directory)) []
        settings.config.ignores).files, []) := by
  have hfiles : filesOfArgument tree working settings.config.ignores directory =
      .ok (scan tree (working.join (Path.ofString directory)) [] settings.config.ignores).files := by
    unfold filesOfArgument
    dsimp only
    rw [h]
  unfold selectFiles
  rw [List.isEmpty_cons, if_neg Bool.false_ne_true, List.mapM_cons, hfiles]
  simp only [List.mapM_nil, bind, Except.bind, pure, Except.pure, List.flatten_cons,
    List.flatten_nil, List.append_nil]

theorem selectFiles_include (tree : Tree) (working : Path) (settings : Settings) (entry : String) :
    ∃ warnings, selectFiles tree working (including settings entry) [] =
      .ok ((scan tree settings.directory [entry] settings.config.ignores).files, warnings) :=
  ⟨_, rfl⟩

theorem mem_selected_argument_iff (sound : tree.Sound) {ignores : List String}
    (h : tree.lookUp start = .directory) :
    path ∈ distinctPaths (scan tree start [] ignores).files ↔
      (Meets tree [start] path ∧ ¬ MatchedOut ignores path) ∧ ¬ NamedOut start ignores path := by
  have hdistinct : ∀ a ∈ (scan tree start [] ignores).files,
      ∀ b ∈ (scan tree start [] ignores).files, a.components = b.components → a = b := by
    have hmet : ∀ found ∈ (scan tree start [] ignores).files, found ∈ filesFrom tree start := by
      intro found hfound
      obtain ⟨⟨⟨first, hfirst, hin⟩, -⟩, -⟩ := mem_scan_iff.mp hfound
      rwa [List.mem_singleton.mp hfirst] at hin
    intro a ha b hb
    exact eq_of_components_eq sound h (hmet a ha) (hmet b hb)
  rw [mem_distinctPaths_iff hdistinct, mem_scan_iff, and_assoc, and_comm (b := ¬ NamedOut _ _ _)]
  rfl

theorem startPaths_plain (hplain : Pattern.isWild directory = false)
    (h : tree.lookUp (start.join (Path.ofString directory)) = .directory) :
    (startPaths tree start [directory]).2 = [start.join (Path.ofString directory)] := by
  have hincluded : includedPaths tree start directory =
      .ok [start.join (Path.ofString directory)] := by
    unfold includedPaths Tree.contains
    dsimp only
    rw [hplain, h]
    rfl
  unfold startPaths
  rw [List.isEmpty_cons, if_neg Bool.false_ne_true, List.map_singleton, hincluded]
  rfl

/-- The files that a directory stands for as an argument, in the directory of the project, and as
the only include. An include without wildcards selects the same files as the argument just when, for
each component file that is met in the directory and left out by no pattern, an ignore without
wildcards leaves it out seen from the directory exactly if one does so seen from the project. So
ignores that are patterns always mean the same. -/
theorem selectFiles_alike_iff (sound : tree.Sound)
    (h : tree.lookUp (settings.directory.join (Path.ofString directory)) = .directory) :
    let project := settings.directory
    let inside := project.join (Path.ofString directory)
    let ignores := settings.config.ignores
    ∃ argued included warnings,
      selectFiles tree project settings [directory] = .ok (argued, []) ∧
      selectFiles tree project (including settings directory) [] = .ok (included, warnings) ∧
      (∀ path, path ∈ argued ↔
        (Meets tree [inside] path ∧ ¬ MatchedOut ignores path) ∧ ¬ NamedOut inside ignores path) ∧
      (∀ path, path ∈ included ↔
        (Meets tree (startPaths tree project [directory]).2 path ∧ ¬ MatchedOut ignores path) ∧
          ¬ NamedOut project ignores path) ∧
      (Pattern.isWild directory = false →
        ((∀ path, path ∈ argued ↔ path ∈ included) ↔
          ∀ path, Meets tree [inside] path ∧ ¬ MatchedOut ignores path →
            (NamedOut inside ignores path ↔ NamedOut project ignores path)) ∧
        ((∀ entry ∈ ignores, Pattern.isWild entry = true) →
          ∀ path, path ∈ argued ↔ path ∈ included)) := by
  intro project inside ignores
  obtain ⟨warnings, hinclude⟩ := selectFiles_include tree project settings directory
  have hargued : ∀ path, path ∈ distinctPaths (scan tree inside [] ignores).files ↔
      (Meets tree [inside] path ∧ ¬ MatchedOut ignores path) ∧ ¬ NamedOut inside ignores path :=
    fun path => mem_selected_argument_iff sound h
  have hincluded : ∀ path, path ∈ (scan tree project [directory] ignores).files ↔
      (Meets tree (startPaths tree project [directory]).2 path ∧ ¬ MatchedOut ignores path) ∧
        ¬ NamedOut project ignores path := by
    intro path
    rw [mem_scan_iff, and_assoc, and_comm (b := ¬ NamedOut _ _ _)]
  refine ⟨_, _, warnings, selectFiles_argument h, hinclude, hargued, hincluded, fun hplain => ?_⟩
  rw [startPaths_plain hplain h] at hincluded
  have hsame := leave_same_iff hargued hincluded
  refine ⟨hsame, fun hpatterns => hsame.mpr fun path _ => ?_⟩
  have hnone : ∀ base, ¬ NamedOut base ignores path := by
    rintro base ⟨entry, hentry, hwild, -⟩
    rw [hpatterns entry hentry] at hwild
    cases hwild
  exact iff_of_false (hnone inside) (hnone project)

/-- A project with a component that is written by hand and one that is generated. -/
def generatedProject : Tree where
  files := [
    (["w", "src", "App.vue"], .text "<template>a</template>"),
    (["w", "src", "generated", "Auto.vue"], .text "<template>b</template>")]
  directories := []

def generatedSettings : Settings where
  config := { Config.default with ignores := ["src/generated"] }
  directory := ⟨["", "w"]⟩

theorem selectFiles_alike_iff_generated :
    generatedProject.Sound ∧
      generatedProject.lookUp (generatedSettings.directory.join (Path.ofString "src")) =
        .directory ∧
      ∃ argued included warnings,
        selectFiles generatedProject generatedSettings.directory generatedSettings ["src"] =
          .ok (argued, []) ∧
        selectFiles generatedProject generatedSettings.directory
          (including generatedSettings "src") [] = .ok (included, warnings) ∧
        ¬ ∀ path, path ∈ argued ↔ path ∈ included := by
  have sound : generatedProject.Sound := ⟨by decide, by decide⟩
  have hdirectory : generatedProject.lookUp
      (generatedSettings.directory.join (Path.ofString "src")) = .directory := by decide
  obtain ⟨argued, included, warnings, hargued, hincluded, -, -, halike⟩ :=
    selectFiles_alike_iff sound hdirectory
  refine ⟨sound, hdirectory, argued, included, warnings, hargued, hincluded, fun hsame => ?_⟩
  have hmet : Meets generatedProject [⟨["", "w", "src"]⟩]
      ⟨["", "w", "src", "generated", "Auto.vue"]⟩ :=
    ⟨⟨_, List.mem_singleton.mpr rfl, by decide⟩, by decide⟩
  have hunmatched : ¬ MatchedOut ["src/generated"]
      ⟨["", "w", "src", "generated", "Auto.vue"]⟩ := by
    rintro ⟨entry, hentry, hwild, -⟩
    obtain rfl := List.mem_singleton.mp hentry
    exact absurd hwild (by decide)
  have hnamed : NamedOut ⟨["", "w"]⟩ ["src/generated"]
      ⟨["", "w", "src", "generated", "Auto.vue"]⟩ :=
    ⟨_, List.mem_singleton.mpr rfl, by decide, by decide⟩
  obtain ⟨entry, hentry, -, hbelow⟩ :=
    (((halike (by decide)).1.mp hsame _ ⟨hmet, hunmatched⟩).mpr hnamed)
  obtain rfl := List.mem_singleton.mp hentry
  exact absurd hbelow (by decide)

end TemplateMessages.Command
