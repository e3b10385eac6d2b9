import TemplateMessages.Files.Tree

set_option autoImplicit false

/-!
# Entries of a tree

What a path leads to depends only on which places are directories, so a path goes on leading to the
same place as long as the directories stay. Putting a text into a file changes the entry of that
file alone.
-/

namespace TemplateMessages.Files

/-- A part of a path that names something, and does not lead elsewhere. -/
def IsName (part : String) : Prop :=
  isSilent part = false ∧ part ≠ ".."

instance (part : String) : Decidable (IsName part) :=
  inferInstanceAs (Decidable (_ ∧ _))

namespace Tree

/-- A tree as it stands on a disk: all that is listed has a name at each step of its way, and
nothing is below a file. -/
structure Sound (tree : Tree) : Prop where
  names : ∀ place ∈ tree.places, ∀ name ∈ place, IsName name
  leaves : ∀ file ∈ tree.files, ∀ place ∈ tree.places, file.1 <+: place → file.1 = place

/-- The paths lead to different places. -/
def Separates (tree : Tree) (paths : List Path) : Prop :=
  paths.Pairwise fun a b => tree.locate a ≠ tree.locate b

/-- The path leads to a file. -/
def HasFile (tree : Tree) (path : Path) : Prop :=
  ∃ place content, tree.locate path = .ok place ∧ tree.entry place = .file content

variable {tree other : Tree} {place next : Place} {content : Content}

theorem hasFile_iff_lookUp {path : Path} :
    tree.HasFile path ↔ ∃ content, tree.lookUp path = .file content := by
  unfold HasFile lookUp
  cases tree.locate path with
  | error error => simp
  | ok place => simp

theorem fst_eq_of_find? {file : Place × Content}
    (h : tree.files.find? (·.1 == place) = some file) : file.1 = place := by
  simpa using List.find?_some h

theorem mem_files_of_entry (h : tree.entry place = .file content) :
    (place, content) ∈ tree.files := by
  unfold entry at h
  split at h
  · rename_i file hfind
    obtain rfl := Entry.file.inj h
    rw [← fst_eq_of_find? hfind]
    exact List.mem_of_find?_eq_some hfind
  · split at h <;> cases h

theorem exists_entry_of_mem_files {file : Place × Content} (h : file ∈ tree.files) :
    ∃ content, tree.entry file.1 = .file content := by
  unfold entry
  cases hfind : tree.files.find? (·.1 == file.1) with
  | some found => exact ⟨_, rfl⟩
  | none => exact absurd (beq_self_eq_true file.1) (List.find?_eq_none.mp hfind file h)

theorem entry_eq_directory_iff :
    tree.entry place = .directory ↔
      (∀ file ∈ tree.files, file.1 ≠ place) ∧ tree.hasDirectory place = true := by
  unfold entry
  cases hfind : tree.files.find? (·.1 == place) with
  | some file =>
    simp only [reduceCtorEq, false_iff, not_and]
    intro hnone
    exact absurd (fst_eq_of_find? hfind) (hnone file (List.mem_of_find?_eq_some hfind))
  | none =>
    have hnone : ∀ file ∈ tree.files, file.1 ≠ place := by simpa using hfind
    simp only [ite_eq_left_iff, reduceCtorEq, imp_false, Bool.not_eq_true, Bool.not_eq_false]
    exact ⟨fun h => ⟨hnone, h⟩, fun h => h.2⟩

theorem Sound.entry_of_around (sound : tree.Sound) {file : Place × Content}
    (hfile : file ∈ tree.files) (haround : place <+: file.1) (hne : place ≠ file.1) :
    tree.entry place = .directory := by
  refine entry_eq_directory_iff.mpr ⟨?_, ?_⟩
  · rintro found hfound rfl
    have hplace : file.1 ∈ tree.places := List.mem_append_left _ (List.mem_map_of_mem hfile)
    exact hne (sound.leaves found hfound file.1 hplace haround)
  · unfold hasDirectory
    rw [Bool.or_eq_true]
    refine Or.inr (List.any_eq_true.mpr ⟨file, hfile, ?_⟩)
    simp [haround, hne]

@[simp] theorem follow_append (tree : Tree) (place : Place) (front back : List String) :
    tree.follow place (front ++ back) =
      (tree.follow place front).bind fun next => tree.follow next back := by
  induction front generalizing place with
  | nil => rfl
  | cons part front ih =>
    rw [List.cons_append, follow, follow]
    cases tree.entry place with
    | missing => rfl
    | file content => rfl
    | directory =>
      dsimp only
      split
      · exact ih place
      · split
        · exact ih place.dropLast
        · exact ih (place ++ [part])

theorem follow_name {name : String} (parts : List String)
    (hdirectory : tree.entry place = .directory) (hname : IsName name) :
    tree.follow place (name :: parts) = tree.follow (place ++ [name]) parts := by
  rw [follow, hdirectory]
  simp only [hname.1, hname.2, Bool.false_eq_true, ↓reduceIte]

theorem Sound.follow_way (sound : tree.Sound) {file : Place × Content} (hfile : file ∈ tree.files)
    {way : List String} (h : place ++ way = file.1) : tree.follow place way = .ok file.1 := by
  induction way generalizing place with
  | nil =>
    rw [← h, List.append_nil]
    rfl
  | cons name way ih =>
    have hname : IsName name := by
      refine sound.names file.1 (List.mem_append_left _ (List.mem_map_of_mem hfile)) name ?_
      rw [← h]
      simp
    have hdirectory : tree.entry place = .directory := by
      refine sound.entry_of_around hfile ⟨_, h⟩ fun heq => ?_
      have := congrArg List.length h
      rw [← heq, List.length_append, List.length_cons] at this
      omega
    rw [follow_name way hdirectory hname]
    exact ih (by rw [← h, List.append_assoc, List.singleton_append])

theorem follow_of_directories
    (h : ∀ place, tree.entry place = .directory → other.entry place = .directory)
    {parts : List String} (hfollow : tree.follow place parts = .ok next) :
    other.follow place parts = .ok next := by
  induction parts generalizing place with
  | nil => exact hfollow
  | cons part parts ih =>
    rw [follow] at hfollow ⊢
    cases hentry : tree.entry place with
    | missing =>
      rw [hentry] at hfollow
      cases hfollow
    | file content =>
      rw [hentry] at hfollow
      cases hfollow
    | directory =>
      rw [hentry] at hfollow
      rw [h place hentry]
      dsimp only at hfollow ⊢
      split at hfollow
      · rename_i hsilent
        rw [if_pos hsilent]
        exact ih hfollow
      · rename_i hsilent
        rw [if_neg hsilent]
        split at hfollow
        · rename_i hup
          rw [if_pos hup]
          exact ih hfollow
        · rename_i hup
          rw [if_neg hup]
          exact ih hfollow

theorem locate_of_directories
    (h : ∀ place, tree.entry place = .directory → other.entry place = .directory) {path : Path}
    (hlocate : tree.locate path = .ok place) : other.locate path = .ok place :=
  follow_of_directories h hlocate

theorem locate_partsBeforeSlash {path : Path} (h : tree.locate path = .ok place) :
    tree.follow [] path.partsBeforeSlash = .ok place := by
  unfold Path.partsBeforeSlash
  split
  · rename_i hlast
    obtain ⟨front, hparts⟩ := List.getLast?_eq_some_iff.mp hlast
    unfold locate at h
    rw [hparts, follow_append] at h
    rw [hparts, List.dropLast_concat]
    cases hfront : tree.follow [] front with
    | error error =>
      rw [hfront] at h
      cases h
    | ok found =>
      rw [hfront] at h
      dsimp only [Except.bind] at h
      rw [follow] at h
      split at h
      · cases h
      · cases h
      · exact h
  · exact h

theorem Sound.locate_join (sound : tree.Sound) {path : Path} (h : tree.locate path = .ok place)
    {file : Place × Content} (hfile : file ∈ tree.files) {way : Place}
    (hway : place ++ way = file.1) : tree.locate (path.join ⟨way⟩) = .ok file.1 := by
  have hrelative : (⟨way⟩ : Path).isAbsolute = false := by
    unfold Path.isAbsolute
    split
    · rename_i first rest hparts
      have hempty : IsName "" := by
        refine sound.names file.1 (List.mem_append_left _ (List.mem_map_of_mem hfile)) "" ?_
        rw [← hway, show way = "" :: first :: rest from hparts]
        simp
      exact absurd hempty (by decide)
    · rfl
  unfold Path.join
  rw [hrelative]
  unfold locate
  simp only [Bool.false_eq_true, ↓reduceIte]
  rw [follow_append, locate_partsBeforeSlash h]
  exact sound.follow_way hfile hway

theorem read_file {path : Path} (hlocate : tree.locate path = .ok place)
    (hentry : tree.entry place = .file content) : tree.read path = content.read := by
  unfold read
  rw [hlocate]
  dsimp only [bind, Except.bind]
  rw [hentry]

theorem write_file {path : Path} (text : String) (hlocate : tree.locate path = .ok place)
    (hentry : tree.entry place = .file content) :
    tree.write path text = (content.replace text).map (tree.putFile place) := by
  unfold write
  rw [hlocate]
  dsimp only [bind, Except.bind]
  rw [hentry]

@[simp] theorem entry_putFile_self (tree : Tree) (place : Place) (content : Content) :
    (tree.putFile place content).entry place = .file content := by
  have hfind : ((tree.putFile place content).files.find? (·.1 == place)) =
      some (place, content) := by
    unfold putFile
    rw [List.find?_append, List.find?_eq_none.mpr]
    · simp
    · intro file hfile
      simpa using (List.mem_filter.mp hfile).2
  unfold entry
  rw [hfind]

theorem find?_putFile_of_ne (hne : next ≠ place) :
    (tree.putFile place content).files.find? (·.1 == next) =
      tree.files.find? (·.1 == next) := by
  unfold putFile
  have hnew : [(place, content)].find? (·.1 == next) = none := by
    simp [Ne.symm hne]
  rw [List.find?_append, hnew, Option.or_none, List.find?_filter]
  congr 1
  funext file
  by_cases hfile : file.1 = next
  · simp [hfile, hne]
  · simp [hfile]

theorem hasDirectory_putFile {old : Content} (h : tree.entry place = .file old) :
    (tree.putFile place content).hasDirectory next = tree.hasDirectory next := by
  have hold := mem_files_of_entry h
  unfold hasDirectory putFile
  congr 1
  rw [List.any_append, List.any_filter]
  refine Bool.eq_iff_iff.mpr ?_
  simp only [Bool.or_eq_true, List.any_eq_true, List.any_cons, List.any_nil, Bool.or_false,
    Bool.and_eq_true, bne_iff_ne]
  constructor
  · rintro (⟨file, hfile, _, haround⟩ | haround)
    · exact ⟨file, hfile, haround⟩
    · exact ⟨(place, old), hold, haround⟩
  · rintro ⟨file, hfile, haround⟩
    by_cases hplace : file.1 = place
    · rw [hplace] at haround
      exact Or.inr haround
    · exact Or.inl ⟨file, hfile, hplace, haround⟩

theorem entry_putFile_of_ne {old : Content} (h : tree.entry place = .file old)
    (hne : next ≠ place) : (tree.putFile place content).entry next = tree.entry next := by
  unfold entry
  rw [find?_putFile_of_ne hne, hasDirectory_putFile h]

/-- But for the places that are written, a tree has only gained directories where nothing was. -/
def Gains (tree : Tree) (written : Place → Prop) (after : Tree) : Prop :=
  ∀ place, ¬ written place → after.entry place = tree.entry place ∨
    tree.entry place = .missing ∧ after.entry place = .directory

variable {middle after : Tree} {written : Place → Prop} {path : Path}

theorem Gains.refl (tree : Tree) (written : Place → Prop) : tree.Gains written tree :=
  fun _ _ => Or.inl rfl

theorem Gains.mono {all : Place → Prop} (h : tree.Gains written after)
    (hall : ∀ place, written place → all place) : tree.Gains all after :=
  fun place hplace => h place fun hwritten => hplace (hall place hwritten)

theorem Gains.trans (h : tree.Gains written middle) (h' : middle.Gains written after) :
    tree.Gains written after := by
  intro place hplace
  rcases h place hplace with hsame | ⟨hmissing, hdirectory⟩
  · rw [← hsame]
    exact h' place hplace
  · rcases h' place hplace with hsame' | ⟨hmissing', _⟩
    · exact Or.inr ⟨hmissing, hsame'.trans hdirectory⟩
    · rw [hdirectory] at hmissing'
      cases hmissing'

theorem gains_of_find? (hfind : ∀ place, ¬ written place →
      after.files.find? (·.1 == place) = tree.files.find? (·.1 == place))
    (hdirectory : ∀ place, tree.hasDirectory place = true → after.hasDirectory place = true) :
    tree.Gains written after := by
  intro place hplace
  unfold entry
  rw [hfind place hplace]
  cases tree.files.find? (·.1 == place) with
  | some file => exact Or.inl rfl
  | none =>
    cases hbefore : tree.hasDirectory place with
    | true => exact Or.inl (by simp [hdirectory place hbefore])
    | false => cases hafter : after.hasDirectory place <;> simp

theorem gains_putDirectory (tree : Tree) (place : Place) (written : Place → Prop) :
    tree.Gains written (tree.putDirectory place) := by
  refine gains_of_find? (fun _ _ => rfl) fun other hother => ?_
  unfold hasDirectory putDirectory at *
  simp only [Bool.or_eq_true, List.any_append] at hother ⊢
  exact hother.imp_left (Or.imp_right Or.inl)

theorem gains_putFile (tree : Tree) (place : Place) (content : Content) :
    tree.Gains (· = place) (tree.putFile place content) := by
  refine gains_of_find? (fun _ hne => find?_putFile_of_ne hne) fun other hother => ?_
  unfold hasDirectory at *
  rw [Bool.or_eq_true] at hother ⊢
  refine hother.imp_right fun haround => ?_
  obtain ⟨file, hfile, haround⟩ := List.any_eq_true.mp haround
  refine List.any_eq_true.mpr ?_
  by_cases hplace : file.1 = place
  · rw [hplace] at haround
    exact ⟨(place, content), by simp [putFile], haround⟩
  · exact ⟨file, by simp [putFile, hfile, hplace], haround⟩

theorem gains_makeDirectory (h : tree.makeDirectory path = .ok after) :
    tree.Gains written after := by
  unfold makeDirectory at h
  cases hlocate : tree.locate path with
  | error error =>
    rw [hlocate] at h
    cases h
  | ok place =>
    rw [hlocate] at h
    dsimp only [bind, Except.bind] at h
    split at h
    · obtain rfl := Except.ok.inj h
      exact gains_putDirectory tree place written
    · cases h

def ensureDirectory (tree : Tree) (path : Path) : Except FileError Tree :=
  match tree.makeDirectory path with
  | .ok tree => .ok tree
  | .error error => if tree.isDirectory path then .ok tree else .error error

theorem gains_ensureDirectory (h : tree.ensureDirectory path = .ok after) :
    tree.Gains written after := by
  unfold ensureDirectory at h
  split at h
  · rename_i hmade
    obtain rfl := Except.ok.inj h
    exact gains_makeDirectory hmade
  · split at h
    · obtain rfl := Except.ok.inj h
      exact Gains.refl tree written
    · cases h

/-- A directory is made in one go, or in what is left once those around it are made. -/
theorem makeLineage_cons_cases {around : List Path}
    (h : tree.makeLineage (path :: around) = .ok after) :
    tree.ensureDirectory path = .ok after ∨
      ∃ made, tree.makeLineage around = .ok made ∧ made.ensureDirectory path = .ok after := by
  unfold makeLineage at h
  dsimp only at h
  split at h
  · cases hmade : tree.makeLineage around with
    | error error =>
      rw [hmade] at h
      cases h
    | ok made =>
      rw [hmade] at h
      exact Or.inr ⟨made, rfl, h⟩
  · exact Or.inl h

theorem gains_makeLineage {lineage : List Path} (h : tree.makeLineage lineage = .ok after) :
    tree.Gains written after := by
  induction lineage generalizing after with
  | nil => cases h
  | cons path around ih =>
    rcases makeLineage_cons_cases h with hensured | ⟨made, hmade, hensured⟩
    · exact gains_ensureDirectory hensured
    · exact (ih hmade).trans (gains_ensureDirectory hensured)

theorem gains_makeDirectories (h : tree.makeDirectories path = .ok after) :
    tree.Gains written after :=
  gains_makeLineage h

theorem exists_putFile_of_write {text : String} (h : tree.write path text = .ok after) :
    ∃ place, tree.locate path = .ok place ∧ after = tree.putFile place (.text text) := by
  unfold write at h
  cases hlocate : tree.locate path with
  | error error =>
    rw [hlocate] at h
    cases h
  | ok place =>
    rw [hlocate] at h
    dsimp only [bind, Except.bind] at h
    split at h
    · cases h
    · rename_i content _
      cases content with
      | readOnly value => cases h
      | text value => exact ⟨place, rfl, (Except.ok.inj h).symm⟩
      | binary => exact ⟨place, rfl, (Except.ok.inj h).symm⟩
    · exact ⟨place, rfl, (Except.ok.inj h).symm⟩

end Tree

end TemplateMessages.Files
