import TemplateMessages.Proofs.Files.PathTexts
import TemplateMessages.Proofs.Project.ScannedFiles

set_option autoImplicit false

/-!
# Where ignores start from

A directory can be ignored by its path, or by a pattern of all that is below it. The path is seen
from the base of the scan. The pattern is compared with the whole text of a path, and the texts of
all paths in a scan of an absolute base start with a slash, which the pattern of a relative path does
not.
-/

namespace TemplateMessages.Project

open TemplateMessages.Files

variable {tree : Tree} {base path start : Path} {place : Place} {includes : List String}

theorem ne_nil_of_behind? {inner way : Place} (h : Tree.behind? place inner = some way) :
    way ≠ [] := by
  unfold Tree.behind? at h
  split at h
  · rename_i haround
    obtain rfl := Option.some.inj h
    rw [Bool.and_eq_true, List.isPrefixOf_iff_prefix, bne_iff_ne] at haround
    obtain ⟨⟨way, rfl⟩, hne⟩ := haround
    rw [List.drop_left]
    rintro rfl
    exact hne (List.append_nil place).symm
  · cases h

theorem ne_nil_of_mem_beginnings {α : Type} {xs ys : List α} (h : ys ∈ beginnings xs) :
    ys ≠ [] := by
  cases xs with
  | nil => cases h
  | cons x xs =>
    rcases List.mem_cons.mp h with rfl | h
    · exact List.cons_ne_nil _ _
    · obtain ⟨_, _, rfl⟩ := List.mem_map.mp h
      exact List.cons_ne_nil _ _

theorem isAbsolute_of_mem_filesFrom (hstart : start.isAbsolute = true)
    (h : path ∈ filesFrom tree start) : path.isAbsolute = true := by
  unfold filesFrom at h
  split at h
  · cases h
  · split at h
    · rwa [List.mem_singleton.mp h]
    · obtain ⟨way, hway, rfl⟩ := List.mem_map.mp h
      obtain ⟨file, -, hbehind⟩ := List.mem_filterMap.mp hway
      exact Path.isAbsolute_join hstart (ne_nil_of_behind? hbehind)
    · cases h

theorem isAbsolute_of_mem_entriesBelow (hstart : start.isAbsolute = true)
    (h : path ∈ SearchStep.entriesBelow tree start) : path.isAbsolute = true := by
  unfold SearchStep.entriesBelow at h
  split at h
  · cases h
  · obtain ⟨way, hway, rfl⟩ := List.mem_map.mp h
    obtain ⟨inner, -, hbeginning⟩ := List.mem_flatMap.mp (List.mem_eraseDups.mp hway)
    exact Path.isAbsolute_join hstart (ne_nil_of_mem_beginnings hbeginning)

theorem isAbsolute_of_mem_take (step : SearchStep) (hstart : start.isAbsolute = true)
    (h : path ∈ step.take tree start) : path.isAbsolute = true := by
  have hname (name : String) : (start.joinName name).isAbsolute = true :=
    Path.isAbsolute_behind hstart (List.cons_ne_nil _ _)
  cases step with
  | follow part =>
    unfold SearchStep.take at h
    obtain ⟨-, hpath⟩ := List.mem_ite_nil_right.mp h
    rw [List.mem_singleton.mp hpath]
    exact hname part
  | inside pattern =>
    unfold SearchStep.take at h
    dsimp only at h
    split at h
    · cases h
    · split at h
      · obtain ⟨name, -, rfl⟩ := List.mem_map.mp h
        exact hname name
      · cases h
  | below pattern => exact isAbsolute_of_mem_entriesBelow hstart (List.mem_filter.mp h).1
  | directoriesBelow => exact isAbsolute_of_mem_entriesBelow hstart (List.mem_filter.mp h).1

theorem isAbsolute_of_mem_takeAll {steps : List SearchStep} (hstart : start.isAbsolute = true)
    (h : path ∈ SearchStep.takeAll tree steps start) : path.isAbsolute = true := by
  induction steps generalizing start with
  | nil => rwa [List.mem_singleton.mp h]
  | cons step steps ih =>
    obtain ⟨next, hnext, hpath⟩ := List.mem_flatMap.mp h
    exact ih (isAbsolute_of_mem_take step hstart hnext) hpath

theorem isAbsolute_of_mem_includedPaths (hbase : base.isAbsolute = true) {entry : String}
    {paths : List Path} (h : includedPaths tree base entry = .ok paths) (hpath : path ∈ paths) :
    path.isAbsolute = true := by
  unfold includedPaths at h
  dsimp only at h
  split at h
  · split at h
    · rename_i found hfound
      obtain rfl := Except.ok.inj h
      unfold Tree.search at hfound
      cases hsteps : SearchStep.ofPath (base.join (Path.ofString entry)) with
      | error error =>
        rw [hsteps] at hfound
        cases hfound
      | ok steps =>
        rw [hsteps] at hfound
        obtain rfl := Except.ok.inj hfound
        exact isAbsolute_of_mem_takeAll rfl (List.mem_filter.mp hpath).1
    · cases h
  · split at h
    · obtain rfl := Except.ok.inj h
      rw [List.mem_singleton.mp hpath]
      exact Path.isAbsolute_join hbase (Path.parts_ofString_ne_nil entry)
    · cases h

theorem isAbsolute_of_mem_startPaths (hbase : base.isAbsolute = true)
    (h : path ∈ (startPaths tree base includes).2) : path.isAbsolute = true := by
  unfold startPaths at h
  split at h
  · rwa [List.mem_singleton.mp h]
  · obtain ⟨paths, hpaths, hpath⟩ := List.mem_flatten.mp h
    obtain ⟨entry, -, hincluded⟩ := List.mem_map.mp (mem_partitionResults_iff.mp hpaths)
    exact isAbsolute_of_mem_includedPaths hbase hincluded hpath

theorem isAbsolute_of_mem_scan (hbase : base.isAbsolute = true) {ignores : List String}
    (h : path ∈ (scan tree base includes ignores).files) : path.isAbsolute = true := by
  obtain ⟨⟨⟨start, hstart, hpath⟩, -⟩, -⟩ := mem_scan_iff.mp h
  exact isAbsolute_of_mem_filesFrom (isAbsolute_of_mem_startPaths hbase hstart) hpath

variable {directory : String}

theorem mem_scan_nil_iff :
    path ∈ (scan tree base includes []).files ↔
      Meets tree (startPaths tree base includes).2 path := by
  rw [mem_scan_iff]
  simp [NamedOut, MatchedOut]

theorem mem_scan_named_iff (hplain : Pattern.IsPlain directory.toList) :
    path ∈ (scan tree base includes [directory]).files ↔
      path ∈ (scan tree base includes []).files ∧
        ¬ path.isBelow (base.join (Path.ofString directory)) = true := by
  rw [mem_scan_iff, mem_scan_nil_iff]
  simp [NamedOut, MatchedOut, Pattern.isWild_of_isPlain hplain]

theorem mem_scan_matched_iff (hplain : Pattern.IsPlain directory.toList) :
    path ∈ (scan tree base includes [directory ++ "/**"]).files ↔
      path ∈ (scan tree base includes []).files ∧
        ¬ (directory ++ "/").toList <+: path.text.toList := by
  have hmatched : MatchedOut [directory ++ "/**"] path ↔
      (directory ++ "/").toList <+: path.text.toList := by
    unfold MatchedOut
    simp only [List.mem_singleton, exists_eq_left, Pattern.isWild_below, true_and]
    exact Pattern.exists_isMatch_below_iff hplain
  have hnamed : ¬ NamedOut base [directory ++ "/**"] path := by
    simp [NamedOut]
  rw [mem_scan_iff, mem_scan_nil_iff, hmatched, and_iff_right hnamed]

/-- The text of an absolute path goes on from a relative one just when that one is empty. -/
theorem prefix_text_iff (habsolute : path.isAbsolute = true)
    (hrelative : (Path.ofString directory).isAbsolute = false) :
    (directory ++ "/").toList <+: path.text.toList ↔ directory = "" := by
  obtain ⟨chars, hchars⟩ := List.head?_eq_some_iff.mp (Path.head?_text habsolute)
  constructor
  · rintro ⟨rest, hrest⟩
    cases hdirectory : directory.toList with
    | nil => exact String.toList_eq_nil_iff.mp hdirectory
    | cons c cs =>
      rw [hchars, String.toList_append, hdirectory] at hrest
      obtain rfl : c = '/' := (List.cons.inj hrest).1
      have hslash := Path.isAbsolute_ofString (List.head?_eq_some_iff.mpr ⟨cs, hdirectory⟩)
      rw [hrelative] at hslash
      cases hslash
  · rintro rfl
    exact ⟨chars, hchars.symm⟩

/-- A directory is ignored by its path and by the pattern of what is below it alike just when each
component file that is met is below the directory exactly if its text goes on from that of the
directory. Seen from an absolute base no text goes on from that of a relative directory, unless that
is empty: the pattern leaves nothing out, and the two are alike just when nothing that is met is
below the directory. -/
theorem scan_ignoring_alike_iff (tree : Tree) (base : Path) (includes : List String)
    (hplain : Pattern.IsPlain directory.toList)
    (hrelative : (Path.ofString directory).isAbsolute = false) :
    let met := (scan tree base includes []).files
    let named := (scan tree base includes [directory]).files
    let matched := (scan tree base includes [directory ++ "/**"]).files
    ((∀ path, path ∈ named ↔ path ∈ matched) ↔
      ∀ path ∈ met, (path.isBelow (base.join (Path.ofString directory)) = true ↔
        (directory ++ "/").toList <+: path.text.toList)) ∧
    (base.isAbsolute = true →
      (∀ path, path ∈ matched ↔ path ∈ met ∧ directory ≠ "") ∧
      ((∀ path, path ∈ named ↔ path ∈ matched) ↔
        ∀ path ∈ met, (path.isBelow (base.join (Path.ofString directory)) = true ↔
          directory = ""))) := by
  intro met named matched
  have hsame : (∀ path, path ∈ named ↔ path ∈ matched) ↔
      ∀ path ∈ met, (path.isBelow (base.join (Path.ofString directory)) = true ↔
        (directory ++ "/").toList <+: path.text.toList) :=
    leave_same_iff (fun _ => mem_scan_named_iff hplain) (fun _ => mem_scan_matched_iff hplain)
  refine ⟨hsame, fun hbase => ?_⟩
  have htext : ∀ path ∈ met, ((directory ++ "/").toList <+: path.text.toList ↔ directory = "") :=
    fun path hpath => prefix_text_iff (isAbsolute_of_mem_scan hbase hpath) hrelative
  refine ⟨fun path => ?_, hsame.trans ?_⟩
  · rw [show path ∈ matched ↔ _ from mem_scan_matched_iff hplain]
    exact and_congr_right fun hpath => not_congr (htext path hpath)
  · exact forall₂_congr fun path hpath => iff_congr Iff.rfl (htext path hpath)

/-- A project with a directory of generated files. -/
def withGenerated : Tree where
  files := [
    (["w", "src", "App.vue"], .text "<template>a</template>"),
    (["w", "src", "generated", "Auto.vue"], .text "<template>b</template>")]
  directories := []

theorem scan_ignoring_alike_iff_generated :
    Pattern.IsPlain "src/generated".toList ∧
      (Path.ofString "src/generated").isAbsolute = false ∧
      ¬ ∀ path, path ∈ (scan withGenerated ⟨["", "w"]⟩ ["src"] ["src/generated"]).files ↔
        path ∈ (scan withGenerated ⟨["", "w"]⟩ ["src"] ["src/generated/**"]).files := by
  have hplain : Pattern.IsPlain "src/generated".toList := by decide
  have hrelative : (Path.ofString "src/generated").isAbsolute = false := by decide
  have hmet : Meets withGenerated (startPaths withGenerated ⟨["", "w"]⟩ ["src"]).2
      ⟨["", "w", "src", "generated", "Auto.vue"]⟩ :=
    ⟨⟨⟨["", "w", "src"]⟩, by decide, by decide⟩, by decide⟩
  refine ⟨hplain, hrelative, fun hsame => ?_⟩
  have hbelow := ((scan_ignoring_alike_iff withGenerated ⟨["", "w"]⟩ ["src"] hplain hrelative).2
    rfl).2.mp hsame ⟨["", "w", "src", "generated", "Auto.vue"]⟩ (mem_scan_nil_iff.mpr hmet)
  exact absurd (hbelow.mp (by decide)) (by decide)

end TemplateMessages.Project
