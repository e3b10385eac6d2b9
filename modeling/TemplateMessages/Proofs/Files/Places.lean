import TemplateMessages.Proofs.Files.Entries

set_option autoImplicit false

/-!
# Where paths lead

A path leads from name to name and, at two points, back again. All that counts of it is how far it
climbs from where it starts and the names that it goes down from there.
-/

namespace TemplateMessages.Files

def stepFrom (place : Place) (part : String) : Place :=
  if isSilent part then place else if part = ".." then place.dropLast else place ++ [part]

/-- The place that parts lead to from another one, whatever is there. -/
def walk (place : Place) (parts : List String) : Place :=
  parts.foldl stepFrom place

def stepBy (place : Place) : Component → Place
  | .name value => place ++ [value]
  | .up => place.dropLast
  | .root | .here => place

variable {tree : Tree} {place next : Place} {parts : List String} {path directory : Path}

@[simp] theorem walk_append (place : Place) (front back : List String) :
    walk place (front ++ back) = walk (walk place front) back :=
  List.foldl_append

@[simp] theorem walk_cons (place : Place) (part : String) (parts : List String) :
    walk place (part :: parts) = walk (stepFrom place part) parts := rfl

theorem stepFrom_silent {part : String} (h : isSilent part = true) : stepFrom place part = place :=
  if_pos h

theorem walk_silent (h : ∀ part ∈ parts, isSilent part = true) : walk place parts = place := by
  induction parts with
  | nil => rfl
  | cons part parts ih =>
    rw [walk_cons, stepFrom_silent (h part List.mem_cons_self)]
    exact ih fun other hother => h other (List.mem_cons_of_mem part hother)

@[simp] theorem walk_dropWhile (place : Place) (parts : List String) :
    walk place (parts.dropWhile isSilent) = walk place parts := by
  have hparts : parts.takeWhile isSilent ++ parts.dropWhile isSilent = parts :=
    List.takeWhile_append_dropWhile
  calc walk place (parts.dropWhile isSilent)
      = walk (walk place (parts.takeWhile isSilent)) (parts.dropWhile isSilent) := by
        rw [walk_silent (List.all_eq_true.mp List.all_takeWhile)]
    _ = walk place parts := by rw [← walk_append, hparts]

@[simp] theorem walk_dropSilentEnd (place : Place) (parts : List String) :
    walk place (dropSilentEnd parts) = walk place parts := by
  have hparts : dropSilentEnd parts ++ (parts.reverse.takeWhile isSilent).reverse = parts := by
    unfold dropSilentEnd
    rw [← List.reverse_append, List.takeWhile_append_dropWhile, List.reverse_reverse]
  calc walk place (dropSilentEnd parts)
      = walk (walk place (dropSilentEnd parts)) (parts.reverse.takeWhile isSilent).reverse :=
        (walk_silent fun part hpart =>
          List.all_eq_true.mp List.all_takeWhile part (List.mem_reverse.mp hpart)).symm
    _ = walk place parts := by rw [← walk_append, hparts]

theorem stepFrom_of_componentOf? {part : String} {component : Component}
    (h : componentOf? part = some component) : stepFrom place part = stepBy place component := by
  unfold componentOf? at h
  unfold stepFrom
  split at h
  · cases h
  · rename_i hsilent
    rw [if_neg hsilent]
    split at h
    · rename_i hup
      obtain rfl := Option.some.inj h
      exact if_pos hup
    · rename_i hup
      obtain rfl := Option.some.inj h
      exact if_neg hup

theorem isSilent_of_componentOf?_eq_none {part : String} (h : componentOf? part = none) :
    isSilent part = true := by
  unfold componentOf? at h
  split at h
  · assumption
  · split at h <;> cases h

theorem foldl_components (place : Place) (parts : List String) :
    (parts.filterMap componentOf?).foldl stepBy place = walk place parts := by
  induction parts generalizing place with
  | nil => rfl
  | cons part parts ih =>
    rw [walk_cons]
    cases hpart : componentOf? part with
    | none =>
      rw [List.filterMap_cons_none hpart, ih,
        stepFrom_silent (isSilent_of_componentOf?_eq_none hpart)]
    | some component =>
      rw [List.filterMap_cons_some hpart, List.foldl_cons, ih, stepFrom_of_componentOf? hpart]

theorem place_eq_walk (path : Path) : path.place = walk [] path.parts := by
  have hplace : path.place = path.components.foldl stepBy [] := by
    unfold Path.place
    congr 1
    funext place component
    cases component <;> rfl
  rw [hplace]
  unfold Path.components
  split
  · rename_i hparts
    rw [hparts]
    rfl
  · rename_i parts _ hparts
    rw [hparts, List.foldl_cons, foldl_components]
    rfl
  · rename_i parts hparts
    rw [hparts, List.foldl_cons, foldl_components]
    rfl
  · exact foldl_components [] path.parts

theorem eq_walk_of_follow (h : tree.follow place parts = .ok next) : next = walk place parts := by
  induction parts generalizing place with
  | nil => exact (Except.ok.inj h).symm
  | cons part parts ih =>
    rw [Tree.follow] at h
    rw [walk_cons]
    unfold stepFrom
    split at h
    · cases h
    · cases h
    · split at h
      · rename_i hsilent
        rw [if_pos hsilent]
        exact ih h
      · rename_i hsilent
        rw [if_neg hsilent]
        split at h
        · rename_i hup
          rw [if_pos hup]
          exact ih h
        · rename_i hup
          rw [if_neg hup]
          exact ih h

theorem place_of_locate (h : tree.locate path = .ok place) : path.place = place := by
  rw [place_eq_walk]
  exact (eq_walk_of_follow h).symm

@[simp] theorem walk_partsBeforeSlash (path : Path) :
    walk [] path.partsBeforeSlash = path.place := by
  rw [place_eq_walk]
  unfold Path.partsBeforeSlash
  split
  · rename_i hlast
    obtain ⟨front, hparts⟩ := List.getLast?_eq_some_iff.mp hlast
    rw [hparts, List.dropLast_concat, walk_append]
    exact (walk_silent (by decide)).symm
  · rfl

theorem place_join (base : Path) (h : path.isAbsolute = false) :
    (base.join path).place = walk base.place path.parts := by
  unfold Path.join
  rw [h, place_eq_walk]
  simp only [Bool.false_eq_true, ↓reduceIte]
  simp

theorem walk_of_partsBehind? {components : List Component} {rest : List String}
    (h : Path.partsBehind? components parts = some rest) :
    walk place parts = walk (components.foldl stepBy place) rest := by
  induction components generalizing place parts with
  | nil =>
    obtain rfl := Option.some.inj h
    rfl
  | cons component components ih =>
    rw [Path.partsBehind?] at h
    split at h
    · cases h
    · rename_i part inner hparts
      split at h
      · rename_i hpart
        rw [← walk_dropWhile, hparts, walk_cons, stepFrom_of_componentOf? hpart, ih h]
        rfl
      · cases h

theorem parts_of_isAbsolute (h : path.isAbsolute = true) : path.parts = "" :: path.parts.tail := by
  unfold Path.isAbsolute at h
  split at h
  · rename_i hparts
    rw [hparts]
    rfl
  · cases h

theorem place_eq_foldl_tail (h : path.isAbsolute = true) :
    path.place = path.components.tail.foldl stepBy [] := by
  rw [place_eq_walk, parts_of_isAbsolute h, walk_cons, ← foldl_components]
  unfold Path.isAbsolute at h
  split at h
  · rename_i hparts
    unfold Path.components
    rw [hparts]
    rfl
  · cases h

@[simp] theorem isAbsolute_dropSilent (parts : List String) :
    (⟨dropSilentEnd (parts.dropWhile isSilent)⟩ : Path).isAbsolute = false := by
  refine Bool.eq_false_iff.mpr fun habsolute => ?_
  have hfront : dropSilentEnd (parts.dropWhile isSilent) <+: parts.dropWhile isSilent := by
    unfold dropSilentEnd
    exact List.reverse_suffix.mp (by
      rw [List.reverse_reverse]
      exact List.dropWhile_suffix _)
  rw [show dropSilentEnd (parts.dropWhile isSilent) = "" :: _ from
    parts_of_isAbsolute habsolute] at hfront
  obtain ⟨rest, hrest⟩ := hfront
  have hhead := List.head?_dropWhile_not isSilent parts
  rw [← hrest] at hhead
  simp [isSilent] at hhead

theorem walk_of_below? {inner : Path} (h : path.below? directory = some inner) :
    path.place = walk directory.place inner.parts ∧ inner.isAbsolute = false := by
  unfold Path.below? at h
  split at h
  · rename_i habsolute
    rw [Bool.and_eq_true] at habsolute
    obtain ⟨rest, hrest, hinner⟩ := Option.map_eq_some_iff.mp h
    have hplace : path.place = walk directory.place (dropSilentEnd (rest.dropWhile isSilent)) := by
      rw [walk_dropSilentEnd, walk_dropWhile, place_eq_foldl_tail habsolute.2,
        ← walk_of_partsBehind? hrest, place_eq_walk, parts_of_isAbsolute habsolute.1, walk_cons]
      rfl
    rw [hplace]
    split at hinner
    · rename_i hnone
      subst hinner
      rw [hnone]
      exact ⟨rfl, rfl⟩
    · subst hinner
      exact ⟨rfl, isAbsolute_dropSilent rest⟩
  · cases h

theorem exists_below?_root (h : path.isAbsolute = true) :
    ∃ inner, path.below? .root = some inner := by
  unfold Path.below?
  rw [h]
  exact ⟨_, rfl⟩

/-- How far a path climbs from where it starts, and the names that it goes down from there. -/
structure Route where
  up : Nat
  names : List String
  deriving DecidableEq, Repr, Inhabited

namespace Route

def step (route : Route) (part : String) : Route :=
  if isSilent part then route
  else if part = ".." then
    match route.names with
    | [] => ⟨route.up + 1, []⟩
    | _ :: _ => ⟨route.up, route.names.dropLast⟩
  else ⟨route.up, route.names ++ [part]⟩

def ofParts (parts : List String) : Route :=
  parts.foldl step ⟨0, []⟩

/-- The place that a route leads to from another one. Nobody climbs above the root. -/
def goFrom (route : Route) (place : Place) : Place :=
  place.take (place.length - route.up) ++ route.names

@[simp] theorem goFrom_step (route : Route) (place : Place) (part : String) :
    (route.step part).goFrom place = stepFrom (route.goFrom place) part := by
  unfold step stepFrom
  split
  · rfl
  · split
    · unfold goFrom
      split
      · rename_i hnames
        have hlength : (place.take (place.length - route.up)).length =
            place.length - route.up := List.length_take_of_le (Nat.sub_le _ _)
        rw [hnames, List.append_nil, List.append_nil, List.dropLast_eq_take, List.take_take,
          hlength, Nat.min_eq_left (Nat.sub_le _ _), Nat.sub_sub]
      · rename_i name names hnames
        rw [List.dropLast_append_of_ne_nil]
        rw [hnames]
        simp
    · exact (List.append_assoc _ _ _).symm

@[simp] theorem goFrom_ofParts (place : Place) (parts : List String) :
    (ofParts parts).goFrom place = walk place parts := by
  have hgo : ∀ route : Route, (parts.foldl step route).goFrom place =
      walk (route.goFrom place) parts := by
    induction parts with
    | nil => exact fun _ => rfl
    | cons part parts ih =>
      intro route
      simp [ih]
  rw [ofParts, hgo]
  simp [goFrom]

theorem goFrom_of_up_eq_zero {route : Route} {place : Place} (h : route.up = 0) :
    route.goFrom place = place ++ route.names := by
  unfold goFrom
  rw [h, Nat.sub_zero, List.take_length]

/-- A route stays below a place just when it goes down again all the way that it climbs. -/
theorem prefix_goFrom_iff {route : Route} {place : Place} :
    place <+: route.goFrom place ↔ place.drop (place.length - route.up) <+: route.names := by
  unfold goFrom
  conv => lhs; lhs; rw [← List.take_append_drop (place.length - route.up) place]
  exact List.prefix_append_right_inj _

/-- A route climbs as far as another one, goes down the way that the other one did not climb, and
then on as it does. -/
def Joins (route other : Route) (place : Place) : Prop :=
  other.up ≤ route.up ∧ route.names =
    (place.take (place.length - other.up)).drop (place.length - route.up) ++ other.names

theorem goFrom_eq_iff {a b : Route} {place : Place} :
    a.goFrom place = b.goFrom place ↔ a.Joins b place ∨ b.Joins a place := by
  have hjoins : ∀ {a b : Route}, b.up ≤ a.up →
      (a.goFrom place = b.goFrom place ↔ a.Joins b place) := by
    intro a b hup
    have hcut : place.take (place.length - b.up) = place.take (place.length - a.up) ++
        (place.take (place.length - b.up)).drop (place.length - a.up) := by
      conv => lhs; rw [← List.take_append_drop (place.length - a.up)
        (place.take (place.length - b.up))]
      rw [List.take_take, Nat.min_eq_left (by omega)]
    unfold goFrom Joins
    rw [hcut, List.append_assoc, List.append_cancel_left_eq, ← hcut]
    exact (and_iff_right hup).symm
  constructor
  · intro h
    rcases Nat.le_total b.up a.up with hup | hup
    · exact Or.inl ((hjoins hup).mp h)
    · exact Or.inr ((hjoins hup).mp h.symm)
  · rintro (h | h)
    · exact (hjoins h.1).mpr h
    · exact ((hjoins h.1).mpr h).symm

end Route

end TemplateMessages.Files
