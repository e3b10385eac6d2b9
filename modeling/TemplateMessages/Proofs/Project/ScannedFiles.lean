import Mathlib.Logic.Basic
import TemplateMessages.Project.Scan
import TemplateMessages.Proofs.Files.Entries
import TemplateMessages.Proofs.Lists

set_option autoImplicit false

/-!
# The files that a scan finds

Every path that a scan gives leads to a file of the tree. A scan collects the component files that
it meets, but for those that an ignore leaves out. An ignore without wildcards leaves out what is
below its path, which is seen from the base of the scan; a pattern leaves out the paths whose whole
text it stands for, whatever the base is.
-/

namespace TemplateMessages.Project

open TemplateMessages.Files

section

variable {tree : Tree} {path : Path}

theorem mem_of_mem_sortedPaths {paths : List Path} (h : path ∈ sortedPaths paths) :
    path ∈ paths :=
  (List.mergeSort_perm paths _).mem_iff.mp (mem_of_mem_eraseRepsBy h)

theorem hasFile_of_mem_filesFrom (sound : tree.Sound) {start : Path}
    (h : path ∈ filesFrom tree start) : tree.HasFile path := by
  unfold filesFrom at h
  split at h
  · cases h
  · rename_i place hlocate
    split at h
    · rename_i content hentry
      obtain rfl := List.mem_singleton.mp h
      exact ⟨place, content, hlocate, hentry⟩
    · obtain ⟨way, hway, rfl⟩ := List.mem_map.mp h
      obtain ⟨file, hfile, hbehind⟩ := List.mem_filterMap.mp hway
      unfold Tree.behind? at hbehind
      split at hbehind
      · rename_i haround
        obtain rfl := Option.some.inj hbehind
        rw [Bool.and_eq_true, List.isPrefixOf_iff_prefix] at haround
        have hplace : place ++ file.1.drop place.length = file.1 :=
          List.prefix_iff_eq_append.mp haround.1
        obtain ⟨content, hcontent⟩ := Tree.exists_entry_of_mem_files hfile
        exact ⟨file.1, content, sound.locate_join hlocate hfile hplace, hcontent⟩
      · cases hbehind
    · cases h

theorem hasFile_of_mem_scan (sound : tree.Sound) {base : Path} {includes ignores : List String}
    (h : path ∈ (scan tree base includes ignores).files) : tree.HasFile path := by
  have hfound := mem_of_mem_sortedPaths h
  obtain ⟨start, _, hpath⟩ := List.mem_flatMap.mp (List.mem_filter.mp hfound).1
  exact hasFile_of_mem_filesFrom sound hpath

end

/-- The path is below one of the entries without wildcards, seen from `base`. -/
def NamedOut (base : Path) (entries : List String) (path : Path) : Prop :=
  ∃ entry ∈ entries, Pattern.isWild entry = false ∧
    path.isBelow (base.join (Path.ofString entry)) = true

/-- The text of the path is one that an entry with wildcards stands for. -/
def MatchedOut (entries : List String) (path : Path) : Prop :=
  ∃ entry ∈ entries, Pattern.isWild entry = true ∧
    ∃ pattern, Pattern.parse entry = .ok pattern ∧ pattern.isMatch path.text = true

def Meets (tree : Tree) (starts : List Path) (path : Path) : Prop :=
  (∃ start ∈ starts, path ∈ filesFrom tree start) ∧ isComponentFile path = true

variable {tree : Tree} {base path : Path} {includes ignores : List String}

@[simp] theorem mem_sortedPaths_iff {paths : List Path} :
    path ∈ sortedPaths paths ↔ path ∈ paths := by
  have hsame : ∀ a ∈ paths.mergeSort (fun a b => a.text ≤ b.text),
      ∀ b ∈ paths.mergeSort (fun a b => a.text ≤ b.text), (a == b) = true → a = b :=
    fun _ _ _ _ hboth => beq_iff_eq.mp hboth
  exact (mem_eraseRepsBy_iff hsame).trans (List.mergeSort_perm paths _).mem_iff

@[simp] theorem mem_partitionResults_iff {ε α : Type} {value : α} {results : List (Except ε α)} :
    value ∈ (partitionResults results).2 ↔ .ok value ∈ results := by
  induction results with
  | nil => exact iff_of_false List.not_mem_nil List.not_mem_nil
  | cons result results ih =>
    cases result with
    | ok first => simp [partitionResults, ih]
    | error error => simp [partitionResults, ih]

theorem mem_readIgnores_iff {ignore : Ignore} :
    ignore ∈ (readIgnores base ignores).2 ↔
      ∃ entry ∈ ignores, Ignore.ofEntry base entry = .ok ignore := by
  unfold readIgnores
  rw [mem_partitionResults_iff, List.mem_map]
  constructor
  · rintro ⟨entry, hentry, hread⟩
    refine ⟨entry, hentry, ?_⟩
    split at hread
    · rename_i found hfound
      rw [hfound, Except.ok.inj hread]
    · cases hread
  · rintro ⟨entry, hentry, hread⟩
    exact ⟨entry, hentry, by rw [hread]⟩

theorem any_readIgnores_iff :
    (readIgnores base ignores).2.any (·.covers path) = true ↔
      NamedOut base ignores path ∨ MatchedOut ignores path := by
  rw [List.any_eq_true]
  constructor
  · rintro ⟨ignore, hignore, hcovers⟩
    obtain ⟨entry, hentry, hread⟩ := mem_readIgnores_iff.mp hignore
    unfold Ignore.ofEntry at hread
    split at hread
    · rename_i hwild
      cases hparse : Pattern.parse entry with
      | error error =>
        rw [hparse] at hread
        cases hread
      | ok pattern =>
        rw [hparse] at hread
        obtain rfl := Except.ok.inj hread
        exact Or.inr ⟨entry, hentry, hwild, pattern, hparse, hcovers⟩
    · rename_i hplain
      obtain rfl := Except.ok.inj hread
      exact Or.inl ⟨entry, hentry, Bool.eq_false_iff.mpr hplain, hcovers⟩
  · rintro (⟨entry, hentry, hplain, hbelow⟩ | ⟨entry, hentry, hwild, pattern, hparse, hmatch⟩)
    · refine ⟨.below (base.join (Path.ofString entry)), ?_, hbelow⟩
      refine mem_readIgnores_iff.mpr ⟨entry, hentry, ?_⟩
      rw [Ignore.ofEntry, hplain]
      rfl
    · refine ⟨.wild pattern, ?_, hmatch⟩
      refine mem_readIgnores_iff.mpr ⟨entry, hentry, ?_⟩
      rw [Ignore.ofEntry, if_pos hwild, hparse]
      rfl

theorem leave_same_iff {α : Type} {members left left' found found' : α → Prop}
    (h : ∀ x, found x ↔ members x ∧ ¬ left x) (h' : ∀ x, found' x ↔ members x ∧ ¬ left' x) :
    (∀ x, found x ↔ found' x) ↔ ∀ x, members x → (left x ↔ left' x) := by
  constructor
  · intro hsame x hx
    have hfound := hsame x
    rw [h, h', and_congr_right_iff] at hfound
    exact not_iff_not.mp (hfound hx)
  · intro hleft x
    rw [h, h', and_congr_right_iff]
    exact fun hx => not_congr (hleft x hx)

theorem mem_scan_iff :
    path ∈ (scan tree base includes ignores).files ↔
      Meets tree (startPaths tree base includes).2 path ∧
        ¬ NamedOut base ignores path ∧ ¬ MatchedOut ignores path := by
  have hfiles : (scan tree base includes ignores).files =
      sortedPaths (((startPaths tree base includes).2.flatMap (filesFrom tree)).filter fun path =>
        isComponentFile path && !(readIgnores base ignores).2.any (·.covers path)) := rfl
  rw [hfiles, mem_sortedPaths_iff, List.mem_filter, List.mem_flatMap, Bool.and_eq_true,
    Bool.not_eq_true', Bool.eq_false_iff, Ne, any_readIgnores_iff, not_or, ← and_assoc]
  rfl

end TemplateMessages.Project
