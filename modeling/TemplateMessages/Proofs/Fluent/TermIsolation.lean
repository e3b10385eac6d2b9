import TemplateMessages.Proofs.Fluent.ReferenceGraph
import TemplateMessages.Proofs.Fluent.Runs

set_option autoImplicit false

/-!
# Params behind terms

A term sees the arguments of its reference in place of the params of the call, and so do the terms
that it refers to. A message that it refers to sees the params again. Two expansions with the same
arguments differ just when there is a param that a message behind the term asks for.
-/

namespace TemplateMessages.Fluent

open Relation (ReflTransGen)
open TemplateMessages.Translation (TranslationError)

/-- The value or error of a reference is the same for all params of the call. -/
def Scope.Isolated (scope : Scope) (around : List String) (depth : Nat) (reference : Reference)
    (arguments : Option (Table Value)) (count : Nat) : Prop :=
  ∀ params others : Table Value,
    expandReference { scope with params := params } around depth reference arguments count =
      expandReference { scope with params := others } around depth reference arguments count

section

variable {α : Type} {params others : Table Value} {course : Course α}
  {follow follow' : Reference → Option (Table Value) → Expanding Value}

theorem Course.run_eq_or_missing
    (hfollow : ∀ reference arguments count,
      follow reference arguments count = follow' reference arguments count ∨
        ∃ name, follow' reference arguments count = .error (.unknownVariable name)) (count : Nat) :
    course.run params follow count = course.run [] follow' count ∨
      ∃ name, course.run [] follow' count = .error (.unknownVariable name) := by
  induction course generalizing count with
  | done result => exact Or.inl rfl
  | fail error => exact Or.inl rfl
  | placeable next ih =>
    rw [Course.run, Course.run]
    by_cases hlimit : count + 1 ≤ maxPlaceables
    · rw [bind_of_ok (countPlaceable_of_le hlimit), bind_of_ok (countPlaceable_of_le hlimit)]
      exact ih (count + 1)
    · have hover : maxPlaceables < count + 1 := Nat.lt_of_not_le hlimit
      rw [bind_of_error (countPlaceable_of_lt hover), bind_of_error (countPlaceable_of_lt hover)]
      exact Or.inl rfl
  | param name next ih => exact Or.inr ⟨name, rfl⟩
  | follow reference arguments next ih =>
    rw [Course.run, Course.run]
    rcases hfollow reference arguments count with heq | ⟨name, hmissing⟩
    · cases hvalue : follow' reference arguments count with
      | error error =>
        rw [bind_of_error (heq.trans hvalue), bind_of_error hvalue]
        exact Or.inl rfl
      | ok pair =>
        obtain ⟨value, after⟩ := pair
        rw [bind_of_ok (heq.trans hvalue), bind_of_ok hvalue]
        exact ih value after
    · rw [bind_of_error hmissing]
      exact Or.inr ⟨name, rfl⟩

theorem Course.get?_of_missing {name : String} {given : Option (Table Value)}
    {references : List Reference} (hkeeps : course.Keeps given references)
    (hfollow : ∀ reference arguments count,
      follow reference arguments count = .error (.unknownVariable name) → params.get? name = none)
    {count : Nat} (h : course.run params follow count = .error (.unknownVariable name)) :
    params.get? name = none := by
  induction course generalizing count with
  | done result => cases h
  | fail error =>
    cases h
    exact hkeeps.elim
  | placeable next ih =>
    rw [Course.run] at h
    by_cases hlimit : count + 1 ≤ maxPlaceables
    · rw [bind_of_ok (countPlaceable_of_le hlimit)] at h
      exact ih hkeeps h
    · rw [bind_of_error (countPlaceable_of_lt (Nat.lt_of_not_le hlimit))] at h
      cases h
  | param asked next ih =>
    rw [Course.run] at h
    cases hvalue : params.get? asked with
    | none =>
      rw [hvalue] at h
      cases h
      exact hvalue
    | some value =>
      rw [hvalue] at h
      exact ih value (hkeeps.2 value) h
  | follow reference arguments next ih =>
    rw [Course.run] at h
    cases hvalue : follow reference arguments count with
    | error error =>
      rw [bind_of_error hvalue] at h
      cases h
      exact hfollow reference arguments count hvalue
    | ok pair =>
      obtain ⟨value, after⟩ := pair
      rw [bind_of_ok hvalue] at h
      exact ih value (hkeeps.2 value) h

theorem Course.run_eq_of_terms {given : Table Value} {references : List Reference}
    (hkeeps : course.Keeps (some given) references)
    (hterms : ∀ reference ∈ references, ¬reference.IsMessage)
    (hfollow : ∀ reference ∈ references, ∀ arguments count,
      follow reference (some arguments) count = follow' reference (some arguments) count)
    (count : Nat) : course.run params follow count = course.run others follow' count := by
  induction course generalizing count with
  | done result => rfl
  | fail error => rfl
  | placeable next ih =>
    rw [Course.run, Course.run]
    by_cases hlimit : count + 1 ≤ maxPlaceables
    · rw [bind_of_ok (countPlaceable_of_le hlimit), bind_of_ok (countPlaceable_of_le hlimit)]
      exact ih hkeeps (count + 1)
    · have hover : maxPlaceables < count + 1 := Nat.lt_of_not_le hlimit
      rw [bind_of_error (countPlaceable_of_lt hover), bind_of_error (countPlaceable_of_lt hover)]
  | param name next ih => cases hkeeps.1
  | follow reference arguments next ih =>
    obtain ⟨⟨hmem, hmessage⟩, hnext⟩ := hkeeps
    cases arguments with
    | none => exact absurd (hmessage rfl) (hterms reference hmem)
    | some arguments =>
      have heq := hfollow reference hmem arguments count
      rw [Course.run, Course.run]
      cases hvalue : follow' reference (some arguments) count with
      | error error => rw [bind_of_error (heq.trans hvalue), bind_of_error hvalue]
      | ok pair =>
        obtain ⟨value, after⟩ := pair
        rw [bind_of_ok (heq.trans hvalue), bind_of_ok hvalue]
        exact ih value (hnext value) after

end

section

variable (scope : Scope) (params others : Table Value)

theorem expandReference_eq_or_missing (around : List String) (depth : Nat) (reference : Reference)
    (arguments : Option (Table Value)) (count : Nat) :
    expandReference { scope with params := params } around depth reference arguments count =
        expandReference { scope with params := [] } around depth reference arguments count ∨
      ∃ name, expandReference { scope with params := [] } around depth reference arguments count =
        .error (.unknownVariable name) := by
  induction depth generalizing around reference arguments count with
  | zero => exact Or.inl rfl
  | succ depth ih =>
    rw [expandReference_succ, expandReference_succ]
    cases scope.catalog.pattern reference with
    | error error => exact Or.inl rfl
    | ok pattern =>
      dsimp only
      split
      · exact Or.inl rfl
      · exact Course.run_eq_or_missing (ih (reference.name :: around)) count

theorem get?_of_missing {around : List String} {depth : Nat} {reference : Reference}
    {arguments : Option (Table Value)} {count : Nat} {name : String}
    (h : expandReference { scope with params := params } around depth reference arguments count =
      .error (.unknownVariable name)) : params.get? name = none := by
  induction depth generalizing around reference arguments count with
  | zero => cases h
  | succ depth ih =>
    rw [expandReference_succ] at h
    cases hpattern : scope.catalog.pattern reference with
    | error error =>
      rw [hpattern] at h
      cases h
      exact (isAbsence_of_pattern hpattern).elim
    | ok pattern =>
      rw [hpattern] at h
      dsimp only at h
      split at h
      · cases h
      · exact Course.get?_of_missing (keeps_patternCourse scope arguments pattern)
          (fun _ _ _ => ih) h

theorem expandReference_eq_of_terms {reference : Reference}
    (hterms : ∀ reached, ReflTransGen scope.catalog.RefersTo reference reached →
      ¬reached.IsMessage)
    (around : List String) (depth : Nat) (arguments : Table Value) (count : Nat) :
    expandReference { scope with params := params } around depth reference (some arguments) count =
      expandReference { scope with params := others } around depth reference (some arguments)
        count := by
  induction depth generalizing around reference arguments count with
  | zero => rfl
  | succ depth ih =>
    rw [expandReference_succ, expandReference_succ]
    cases hpattern : scope.catalog.pattern reference with
    | error error => rfl
    | ok pattern =>
      dsimp only
      split
      · rfl
      · have hrefers : ∀ other ∈ patternReferences pattern,
            scope.catalog.RefersTo reference other := fun other hother => ⟨pattern, hpattern, hother⟩
        refine Course.run_eq_of_terms (keeps_patternCourse scope (some arguments) pattern)
          (fun other hother => hterms other (.single (hrefers other hother))) ?_ count
        intro other hother arguments count
        exact ih (fun reached hreached => hterms reached (.head (hrefers other hother) hreached))
          (reference.name :: around) arguments count

end

/-- A term is isolated from the params of the call just when, without params, no message behind it
misses one. It is where no message is behind it. -/
theorem isolated_iff (scope : Scope) (around : List String) (depth : Nat) (id : String)
    (attr : Option String) (arguments : Table Value) (count : Nat) :
    (scope.Isolated around depth (.term id attr) (some arguments) count ↔
      ∀ name, expandReference { scope with params := [] } around depth (.term id attr)
        (some arguments) count ≠ .error (.unknownVariable name)) ∧
      ((∀ reached, ReflTransGen scope.catalog.RefersTo (.term id attr) reached →
          ¬reached.IsMessage) →
        scope.Isolated around depth (.term id attr) (some arguments) count) := by
  refine ⟨⟨?_, ?_⟩, ?_⟩
  · intro hisolated name hmissing
    have hgiven := (hisolated [(name, .text "")] []).trans hmissing
    have hnone := get?_of_missing scope [(name, .text "")] hgiven
    simp [Table.get?] at hnone
  · intro hnone params others
    have hnot : ¬∃ name, expandReference { scope with params := [] } around depth (.term id attr)
        (some arguments) count = .error (.unknownVariable name) := not_exists.mpr hnone
    have hall (params : Table Value) := (expandReference_eq_or_missing scope params around depth
      (.term id attr) (some arguments) count).resolve_right hnot
    exact (hall params).trans (hall others).symm
  · intro hterms params others
    exact expandReference_eq_of_terms scope params others hterms around depth arguments count

def letters : Scope where
  catalog :=
    { messages := [("m", ⟨some [.placeable (.inline (.variable "x"))], []⟩)]
      terms :=
        [("t", ⟨[.placeable (.inline (.message "m" none))], []⟩),
          ("u", ⟨[.placeable (.inline (.term "v" none none))], []⟩),
          ("v", ⟨[.placeable (.inline (.variable "x"))], []⟩)] }
  locale := "en"
  key := "k"
  params := []
  isolating := false

theorem isolated_iff_letters :
    ¬letters.Isolated [] 101 (.term "t" none) (some []) 0 ∧
      letters.Isolated [] 101 (.term "u" none) (some []) 0 := by
  constructor
  · intro hisolated
    exact (isolated_iff letters [] 101 "t" none [] 0).1.mp hisolated "x" rfl
  · apply (isolated_iff letters [] 101 "u" none [] 0).2
    have hu : letters.catalog.pattern (.term "u" none) =
        .ok [.placeable (.inline (.term "v" none none))] := by rfl
    have hv : letters.catalog.pattern (.term "v" none) =
        .ok [.placeable (.inline (.variable "x"))] := by rfl
    intro reached hreached
    have hterm : reached = .term "u" none ∨ reached = .term "v" none := by
      induction hreached with
      | refl => exact Or.inl rfl
      | tail _ hrefers ih =>
        obtain ⟨pattern, hpattern, hmem⟩ := hrefers
        rcases ih with rfl | rfl
        · cases hu.symm.trans hpattern
          exact Or.inr (List.mem_singleton.mp hmem)
        · cases hv.symm.trans hpattern
          cases hmem
    rcases hterm with rfl | rfl <;> exact id

end TemplateMessages.Fluent
