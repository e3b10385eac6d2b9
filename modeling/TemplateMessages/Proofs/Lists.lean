import Mathlib.Data.List.Basic
import Mathlib.Data.List.Pairwise
import Mathlib.Logic.Basic

set_option autoImplicit false

/-!
# Lists

Members of a list without repetitions, of a list of results and of a list in some order.
-/

namespace TemplateMessages

variable {α β ε : Type} {x last : α} {xs rest seen : List α} {same : α → α → Bool}

/-- The loop gives only members of its lists, and all of them when what counts as the same is the
same. -/
theorem mem_eraseRepsByLoop (x last : α) (rest seen : List α) :
    (x ∈ List.eraseRepsBy.loop same last rest seen → x = last ∨ x ∈ rest ∨ x ∈ seen) ∧
      ((∀ a b, a = last ∨ a ∈ rest → b ∈ rest → same a b = true → a = b) →
        x = last ∨ x ∈ rest ∨ x ∈ seen → x ∈ List.eraseRepsBy.loop same last rest seen) := by
  induction rest generalizing last seen with
  | nil =>
    rw [List.eraseRepsBy.loop, List.mem_reverse, List.mem_cons]
    simp
  | cons next rest ih =>
    have hrest (hsame : ∀ a b, a = last ∨ a ∈ next :: rest → b ∈ next :: rest → same a b = true →
        a = b) : ∀ a b, a = next ∨ a ∈ rest → b ∈ rest → same a b = true → a = b :=
      fun a b ha hb => hsame a b (.inr (List.mem_cons.mpr ha)) (List.mem_cons_of_mem next hb)
    rw [List.eraseRepsBy.loop, List.mem_cons]
    cases hboth : same last next with
    | true =>
      obtain ⟨hgives, hkeeps⟩ := ih last seen
      refine ⟨fun h => (hgives h).imp_right fun h => ?_, fun hsame h => ?_⟩
      · exact h.imp_left .inr
      · obtain rfl := hsame last next (.inl rfl) List.mem_cons_self hboth
        exact hkeeps (hrest hsame) (by rwa [or_assoc, or_self_left] at h)
    | false =>
      obtain ⟨hgives, hkeeps⟩ := ih next (last :: seen)
      rw [List.mem_cons, or_left_comm (a := x ∈ rest), or_left_comm (a := x = next),
        ← or_assoc (a := x = next)] at hgives hkeeps
      exact ⟨hgives, fun hsame => hkeeps (hrest hsame)⟩

theorem mem_of_mem_eraseRepsBy (h : x ∈ xs.eraseRepsBy same) : x ∈ xs := by
  cases xs with
  | nil => exact h
  | cons first rest =>
    rw [List.mem_cons]
    exact ((mem_eraseRepsByLoop x first rest []).1 h).imp_right fun hrest =>
      hrest.resolve_right List.not_mem_nil

theorem mem_eraseRepsBy_iff (hsame : ∀ a ∈ xs, ∀ b ∈ xs, same a b = true → a = b) :
    x ∈ xs.eraseRepsBy same ↔ x ∈ xs := by
  refine ⟨mem_of_mem_eraseRepsBy, fun h => ?_⟩
  cases xs with
  | nil => exact h
  | cons first rest =>
    refine (mem_eraseRepsByLoop x first rest []).2 (fun a b ha hb => ?_)
      ((List.mem_cons.mp h).imp_right .inl)
    exact hsame a (List.mem_cons.mpr ha) b (List.mem_cons_of_mem first hb)

theorem exists_of_mem_mapM {f : α → Except ε β} {ys : List β} (h : xs.mapM f = .ok ys) {y : β}
    (hy : y ∈ ys) : ∃ x ∈ xs, f x = .ok y := by
  induction xs generalizing ys with
  | nil =>
    obtain rfl := Except.ok.inj h
    cases hy
  | cons x xs ih =>
    rw [List.mapM_cons] at h
    cases hx : f x with
    | error error =>
      rw [hx] at h
      cases h
    | ok first =>
      cases hxs : xs.mapM f with
      | error error =>
        rw [hx, hxs] at h
        cases h
      | ok rest =>
        rw [hx, hxs] at h
        obtain rfl := Except.ok.inj h
        rcases List.mem_cons.mp hy with rfl | hrest
        · exact ⟨x, List.mem_cons_self, hx⟩
        · obtain ⟨found, hfound, hy⟩ := ih hxs hrest
          exact ⟨found, List.mem_cons_of_mem x hfound, hy⟩

theorem before_of_find? {before : α → α → Prop} {p : α → Bool} (h : xs.Pairwise before)
    (hfind : xs.find? p = some x) : ∀ y ∈ xs, p y = true → y = x ∨ before x y := by
  obtain ⟨-, front, rest, rfl, hfront⟩ := List.find?_eq_some_iff_append.mp hfind
  intro y hy hp
  rcases List.mem_append.mp hy with hy | hy
  · have hnot := hfront y hy
    rw [hp] at hnot
    cases hnot
  · rcases List.mem_cons.mp hy with rfl | hy
    · exact Or.inl rfl
    · exact Or.inr ((List.pairwise_cons.mp (List.pairwise_append.mp h).2.1).1 y hy)

theorem flatMap_filter_isEmpty (f : α → List β) (xs : List α) :
    (xs.filter fun x => !(f x).isEmpty).flatMap f = xs.flatMap f := by
  induction xs with
  | nil => rfl
  | cons x xs ih =>
    rw [List.filter_cons, List.flatMap_cons]
    cases hx : f x with
    | nil => simpa [hx] using ih
    | cons found more => simp [hx, ih]

end TemplateMessages
