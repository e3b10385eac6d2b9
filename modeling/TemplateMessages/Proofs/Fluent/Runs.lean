import TemplateMessages.Proofs.Fluent.Course

set_option autoImplicit false

/-!
# Runs of an expansion

A run is an expansion step by step, with no bound on how deep references nest: what it comes by is
listed, and its result is a value or an error. Every course has exactly one run. It comes by at most
one placeable more than it may, and gives what the expansion with its bounded depth gives.
-/

namespace TemplateMessages.Fluent

open TemplateMessages.Translation (TranslationError)

inductive Event where
  | placeable
  | enters (around : List Reference) (reference : Reference)
  deriving DecidableEq, Repr

/-- The number of placeables that a run expands, the one over the limit included. -/
def placeables (events : List Event) : Nat :=
  events.count .placeable

/-- The course runs to the result behind `count` placeables, inside the patterns around it. -/
inductive Runs (scope : Scope) : List Reference → Course Value → Nat → List Event →
    Except TranslationError Value → Prop
  | done {around : List Reference} {count : Nat} (value : Value) :
      Runs scope around (.done value) count [] (.ok value)
  | fail {around : List Reference} {count : Nat} (error : TranslationError) :
      Runs scope around (.fail error) count [] (.error error)
  | placeable {around : List Reference} {course : Course Value} {count : Nat} {events : List Event}
      {result : Except TranslationError Value} (hcount : count + 1 ≤ maxPlaceables)
      (hnext : Runs scope around course (count + 1) events result) :
      Runs scope around (.placeable course) count (.placeable :: events) result
  | overLimit {around : List Reference} {course : Course Value} {count : Nat}
      (hcount : maxPlaceables < count + 1) :
      Runs scope around (.placeable course) count [.placeable]
        (.error (.tooManyPlaceables (count + 1) maxPlaceables))
  | param {around : List Reference} {name : String} {value : Value} {next : Value → Course Value}
      {count : Nat} {events : List Event} {result : Except TranslationError Value}
      (hvalue : scope.params.get? name = some value)
      (hnext : Runs scope around (next value) count events result) :
      Runs scope around (.param name next) count events result
  | noParam {around : List Reference} {name : String} {next : Value → Course Value} {count : Nat}
      (hvalue : scope.params.get? name = none) :
      Runs scope around (.param name next) count [] (.error (.unknownVariable name))
  | noPattern {around : List Reference} {reference : Reference} {arguments : Option (Table Value)}
      {next : Value → Course Value} {count : Nat} {error : TranslationError}
      (hpattern : scope.catalog.pattern reference = .error error) :
      Runs scope around (.follow reference arguments next) count [] (.error error)
  | cyclic {around : List Reference} {reference : Reference} {arguments : Option (Table Value)}
      {next : Value → Course Value} {count : Nat} {pattern : Pattern}
      (hpattern : scope.catalog.pattern reference = .ok pattern)
      (haround : reference.name ∈ around.map Reference.name) :
      Runs scope around (.follow reference arguments next) count [.enters around reference]
        (.error (.cyclicReference reference.name))
  | failsInside {around : List Reference} {reference : Reference}
      {arguments : Option (Table Value)} {next : Value → Course Value} {count : Nat}
      {pattern : Pattern} {events : List Event} {error : TranslationError}
      (hpattern : scope.catalog.pattern reference = .ok pattern)
      (haround : reference.name ∉ around.map Reference.name)
      (hinside : Runs scope (reference :: around) (patternCourse scope arguments pattern) count
        events (.error error)) :
      Runs scope around (.follow reference arguments next) count
        (.enters around reference :: events) (.error error)
  | follow {around : List Reference} {reference : Reference} {arguments : Option (Table Value)}
      {next : Value → Course Value} {count : Nat} {pattern : Pattern} {value : Value}
      {events later : List Event} {result : Except TranslationError Value}
      (hpattern : scope.catalog.pattern reference = .ok pattern)
      (haround : reference.name ∉ around.map Reference.name)
      (hinside : Runs scope (reference :: around) (patternCourse scope arguments pattern) count
        events (.ok value))
      (hnext : Runs scope around (next value) (count + placeables events) later result) :
      Runs scope around (.follow reference arguments next) count
        (.enters around reference :: (events ++ later)) result

@[simp] theorem placeables_placeable (events : List Event) :
    placeables (.placeable :: events) = placeables events + 1 :=
  List.count_cons_self

@[simp] theorem placeables_enters (around : List Reference) (reference : Reference)
    (events : List Event) :
    placeables (.enters around reference :: events) = placeables events :=
  List.count_cons_of_ne (by simp)

@[simp] theorem placeables_append (events later : List Event) :
    placeables (events ++ later) = placeables events + placeables later :=
  List.count_append

variable {scope : Scope} {around : List Reference} {course : Course Value} {count : Nat}
  {events : List Event} {result : Except TranslationError Value}

theorem Runs.unique {others : List Event} {other : Except TranslationError Value}
    (h : Runs scope around course count events result)
    (h' : Runs scope around course count others other) : others = events ∧ other = result := by
  -- On the first run: at every step the other one has the same way to go on and no other.
  induction h generalizing others other with
  | done value =>
    cases h'
    exact ⟨rfl, rfl⟩
  | fail error =>
    cases h'
    exact ⟨rfl, rfl⟩
  | placeable hcount _ ih =>
    cases h' with
    | placeable _ hnext =>
      obtain ⟨rfl, rfl⟩ := ih hnext
      exact ⟨rfl, rfl⟩
    | overLimit hover => omega
  | overLimit hover =>
    cases h' with
    | placeable hcount _ => omega
    | overLimit _ => exact ⟨rfl, rfl⟩
  | param hvalue _ ih =>
    cases h' with
    | param hvalue' hnext =>
      cases hvalue.symm.trans hvalue'
      exact ih hnext
    | noParam hvalue' => cases hvalue.symm.trans hvalue'
  | noParam hvalue =>
    cases h' with
    | param hvalue' _ => cases hvalue.symm.trans hvalue'
    | noParam _ => exact ⟨rfl, rfl⟩
  | noPattern hpattern =>
    cases h' with
    | noPattern hpattern' =>
      cases hpattern.symm.trans hpattern'
      exact ⟨rfl, rfl⟩
    | cyclic hpattern' _ => cases hpattern.symm.trans hpattern'
    | failsInside hpattern' _ _ => cases hpattern.symm.trans hpattern'
    | follow hpattern' _ _ _ => cases hpattern.symm.trans hpattern'
  | cyclic hpattern haround =>
    cases h' with
    | noPattern hpattern' => cases hpattern.symm.trans hpattern'
    | cyclic _ _ => exact ⟨rfl, rfl⟩
    | failsInside _ haround' _ => exact absurd haround haround'
    | follow _ haround' _ _ => exact absurd haround haround'
  | failsInside hpattern haround _ ih =>
    cases h' with
    | noPattern hpattern' => cases hpattern.symm.trans hpattern'
    | cyclic _ haround' => exact absurd haround' haround
    | failsInside hpattern' _ hinside =>
      cases hpattern.symm.trans hpattern'
      obtain ⟨rfl, herror⟩ := ih hinside
      exact ⟨rfl, herror⟩
    | follow hpattern' _ hinside _ =>
      cases hpattern.symm.trans hpattern'
      cases (ih hinside).2
  | follow hpattern haround _ _ ih ihnext =>
    cases h' with
    | noPattern hpattern' => cases hpattern.symm.trans hpattern'
    | cyclic _ haround' => exact absurd haround' haround
    | failsInside hpattern' _ hinside =>
      cases hpattern.symm.trans hpattern'
      cases (ih hinside).2
    | follow hpattern' _ hinside hnext =>
      cases hpattern.symm.trans hpattern'
      obtain ⟨rfl, hvalue⟩ := ih hinside
      cases hvalue
      obtain ⟨rfl, rfl⟩ := ihnext hnext
      exact ⟨rfl, rfl⟩

theorem Runs.placeables_le (h : Runs scope around course count events result)
    (hcount : count ≤ maxPlaceables) :
    (∀ value, result = .ok value → count + placeables events ≤ maxPlaceables) ∧
      count + placeables events ≤ maxPlaceables + 1 := by
  induction h with
  | done value => exact ⟨fun _ _ => hcount, Nat.le_succ_of_le hcount⟩
  | fail error => exact ⟨by simp, Nat.le_succ_of_le hcount⟩
  | placeable hnext _ ih =>
    obtain ⟨hvalue, hall⟩ := ih hnext
    simpa using ⟨fun value h => by have := hvalue value h; omega, by omega⟩
  | overLimit hover =>
    refine ⟨by simp, ?_⟩
    simp [show placeables [] = 0 from rfl]
    omega
  | param _ _ ih => exact ih hcount
  | noParam _ => exact ⟨by simp, Nat.le_succ_of_le hcount⟩
  | noPattern _ => exact ⟨by simp, Nat.le_succ_of_le hcount⟩
  | cyclic _ _ => exact ⟨by simp, Nat.le_succ_of_le hcount⟩
  | failsInside _ _ _ ih =>
    refine ⟨by simp, ?_⟩
    simpa using (ih hcount).2
  | follow _ _ _ _ ih ihnext =>
    simpa [← Nat.add_assoc] using ihnext ((ih hcount).1 _ rfl)

namespace Course

variable {α β : Type}

def Guarded : Course α → Prop
  | .done _ => True
  | .fail _ => True
  | .placeable _ => True
  | .param _ next => ∀ value, (next value).Guarded
  | .follow _ _ _ => False

theorem Guarded.bind {course : Course α} {next : α → Course β} (h : course.Guarded)
    (hnext : ∀ result, (next result).Guarded) : (course >>= next).Guarded := by
  change (course.bind next).Guarded
  induction course with
  | done result => exact hnext result
  | fail error => exact trivial
  | placeable rest ih => exact trivial
  | param name rest ih => exact fun value => ih value (h value)
  | follow reference arguments rest ih => exact h.elim

end Course

theorem guarded_elementsCourse (scope : Scope) (arguments : Option (Table Value)) (isolate : Bool)
    (elements : List Element) : (elementsCourse scope arguments isolate elements).Guarded := by
  induction elements with
  | nil =>
    rw [elementsCourse]
    exact trivial
  | cons element elements ih =>
    cases element with
    | text value =>
      rw [elementsCourse]
      exact ih.bind fun parts => trivial
    | placeable expression =>
      rw [elementsCourse]
      exact trivial

theorem guarded_patternCourse (scope : Scope) (arguments : Option (Table Value))
    (pattern : Pattern) : (patternCourse scope arguments pattern).Guarded :=
  (guarded_elementsCourse scope arguments _ pattern).bind fun _ => trivial

theorem expandReference_succ (scope : Scope) (params : Table Value) (around : List String)
    (depth : Nat) (reference : Reference) (arguments : Option (Table Value)) (count : Nat) :
    expandReference { scope with params := params } around (depth + 1) reference arguments count =
      match scope.catalog.pattern reference with
      | .error error => .error error
      | .ok pattern =>
        if reference.name ∈ around then .error (.cyclicReference reference.name)
        else
          (patternCourse scope arguments pattern).run params
            (expandReference { scope with params := params } (reference.name :: around) depth)
            count := by
  rw [expandReference]
  cases scope.catalog.pattern reference with
  | error error => rfl
  | ok pattern =>
    dsimp only
    have helements (isolate : Bool) :
        expandElements { scope with params := params }
            (expandReference { scope with params := params } (reference.name :: around) depth)
            arguments isolate pattern =
          (elementsCourse scope arguments isolate pattern).run params
            (expandReference { scope with params := params } (reference.name :: around) depth) :=
      expandElements_eq_run arguments isolate pattern
    change (if around.contains reference.name then _ else _ : Expanding Value) count = _
    by_cases hcyclic : reference.name ∈ around
    · rw [if_pos hcyclic, if_pos (List.contains_iff_mem.mpr hcyclic)]
      rfl
    · rw [if_neg hcyclic, if_neg (fun h => hcyclic (List.contains_iff_mem.mp h)), patternCourse,
        Course.run_bind, ← helements]
      rfl

section

variable {α β : Type} {expanding : Expanding α}

@[simp] theorem bind_of_ok {value : α} {after : Nat} (h : expanding count = .ok (value, after))
    (next : α → Expanding β) : (expanding >>= next) count = next value after := by
  change (expanding count >>= fun pair => next pair.1 pair.2) = _
  rw [h]
  rfl

@[simp] theorem bind_of_error {error : TranslationError} (h : expanding count = .error error)
    (next : α → Expanding β) : (expanding >>= next) count = .error error := by
  change (expanding count >>= fun pair => next pair.1 pair.2) = _
  rw [h]
  rfl

end

theorem countPlaceable_of_le (h : count + 1 ≤ maxPlaceables) :
    countPlaceable count = .ok ((), count + 1) :=
  if_neg (Nat.not_lt.mpr h)

theorem countPlaceable_of_lt (h : maxPlaceables < count + 1) :
    countPlaceable count = .error (.tooManyPlaceables (count + 1) maxPlaceables) :=
  if_pos h

/-- A reference that is followed behind `count` placeables is inside a placeable of each pattern
around it but the outermost, so that the depth does not run out before the placeables do. -/
theorem exists_runs {depth : Nat} (hcount : count ≤ maxPlaceables)
    (hdepth : maxPlaceables < count + depth ∨ course.Guarded ∧ maxPlaceables ≤ count + depth) :
    ∃ events result, Runs scope around course count events result ∧
      course.run scope.params (expandReference scope (around.map Reference.name) depth) count =
        result.map fun value => (value, count + placeables events) := by
  -- only a reference that is followed goes deeper, so that the course shrinks at one depth
  induction depth using Nat.strongRecOn generalizing around course count with
  | ind depth ihdepth =>
    induction course generalizing count with
    | done value => exact ⟨[], .ok value, .done value, rfl⟩
    | fail error => exact ⟨[], .error error, .fail error, rfl⟩
    | placeable next ih =>
      by_cases hlimit : count + 1 ≤ maxPlaceables
      · have hinside : maxPlaceables < count + 1 + depth := by omega
        obtain ⟨events, result, hruns, hrun⟩ := ih hlimit (Or.inl hinside)
        refine ⟨.placeable :: events, result, .placeable hlimit hruns, ?_⟩
        rw [placeables_placeable, Nat.add_comm (placeables events) 1, ← Nat.add_assoc, ← hrun,
          Course.run, bind_of_ok (countPlaceable_of_le hlimit)]
      · have hover : maxPlaceables < count + 1 := by omega
        refine ⟨[.placeable], _, .overLimit hover, ?_⟩
        rw [Course.run, bind_of_error (countPlaceable_of_lt hover)]
        rfl
    | param name next ih =>
      rw [Course.run]
      cases hvalue : scope.params.get? name with
      | none => exact ⟨[], _, .noParam hvalue, rfl⟩
      | some value =>
        have hnext : maxPlaceables < count + depth ∨
            (next value).Guarded ∧ maxPlaceables ≤ count + depth :=
          hdepth.imp id fun h => ⟨h.1 value, h.2⟩
        obtain ⟨events, result, hruns, hrun⟩ := ih value hcount hnext
        exact ⟨events, result, .param hvalue hruns, hrun⟩
    | follow reference arguments next ih =>
      have hdeep : maxPlaceables < count + depth := hdepth.resolve_right fun h => h.1
      obtain ⟨inner, rfl⟩ : ∃ inner, depth = inner + 1 := ⟨depth - 1, by omega⟩
      have hfollow := expandReference_succ scope scope.params (around.map Reference.name) inner
        reference arguments count
      cases hpattern : scope.catalog.pattern reference with
      | error error =>
        rw [hpattern] at hfollow
        refine ⟨[], _, .noPattern hpattern, ?_⟩
        rw [Course.run, bind_of_error hfollow]
        rfl
      | ok pattern =>
        rw [hpattern] at hfollow
        dsimp only at hfollow
        by_cases hcyclic : reference.name ∈ around.map Reference.name
        · rw [if_pos hcyclic] at hfollow
          refine ⟨_, _, .cyclic hpattern hcyclic, ?_⟩
          rw [Course.run, bind_of_error hfollow]
          rfl
        · have hguarded := guarded_patternCourse scope arguments pattern
          obtain ⟨events, result, hinside, hrun⟩ :=
            @ihdepth inner (Nat.lt_succ_self inner) (reference :: around)
              (patternCourse scope arguments pattern) count hcount (Or.inr ⟨hguarded, by omega⟩)
          rw [if_neg hcyclic, show reference.name :: around.map Reference.name =
            (reference :: around).map Reference.name from rfl, hrun] at hfollow
          cases result with
          | error error =>
            refine ⟨_, _, .failsInside hpattern hcyclic hinside, ?_⟩
            rw [Course.run, bind_of_error hfollow]
            rfl
          | ok value =>
            have hwithin := (hinside.placeables_le hcount).1 value rfl
            obtain ⟨later, result, hruns, hnext⟩ := ih value hwithin (Or.inl (by omega))
            refine ⟨_, result, .follow hpattern hcyclic hinside hruns, ?_⟩
            rw [Course.run, bind_of_ok hfollow, hnext, placeables_enters, placeables_append,
              Nat.add_assoc]

end TemplateMessages.Fluent
