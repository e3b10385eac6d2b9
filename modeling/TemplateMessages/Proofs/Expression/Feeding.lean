import TemplateMessages.Expression.Nesting
import TemplateMessages.Text.Span

set_option autoImplicit false

/-!
# Feeding a text to a nesting

Only the quotes open and close a string. A nesting with one more bracket around it goes the same way
as without, up to the closer of that bracket. What stands in front of the closing bracket of a text
is therefore balanced by itself.
-/

namespace TemplateMessages.Expression

open TemplateMessages.Text

namespace Nesting

def feed? (nesting : Nesting) (c : Char) : Option Nesting :=
  match nesting.feed c with
  | (_, .mismatch) => none
  | (next, _) => some next

/-- The nesting after a text without a mismatch. -/
def feedAll? (nesting : Nesting) (text : List Char) : Option Nesting :=
  text.foldlM feed? nesting

def feedAll (nesting : Nesting) (text : List Char) : Nesting :=
  text.foldl (fun nesting c => (nesting.feed c).1) nesting

theorem quote_feed (nesting : Nesting) {c : Char} (h : Quote.ofChar? c = none) :
    (nesting.feed c).1.quote = nesting.quote := by
  obtain ⟨brackets, quote⟩ := nesting
  cases quote with
  | some quote =>
    have hne : c ≠ quote.toChar := by
      rintro rfl
      cases quote <;> exact absurd h (by decide)
    simp [feed, hne]
  | none =>
    simp only [feed, h]
    split
    · rfl
    · split
      · unfold close
        grind
      · rfl

@[simp] theorem feedAll_append (nesting : Nesting) (front text : List Char) :
    nesting.feedAll (front ++ text) = (nesting.feedAll front).feedAll text :=
  List.foldl_append

theorem quote_feedAll (nesting : Nesting) {text : List Char}
    (h : ∀ c ∈ text, Quote.ofChar? c = none) : (nesting.feedAll text).quote = nesting.quote := by
  induction text generalizing nesting with
  | nil => rfl
  | cons c cs ih =>
    rw [List.forall_mem_cons] at h
    exact (ih (nesting.feed c).1 h.2).trans (quote_feed nesting h.1)

/-- The nesting inside one more bracket. -/
def inside (bracket : Bracket) (nesting : Nesting) : Nesting :=
  ⟨nesting.brackets ++ [bracket], nesting.quote⟩

theorem feed_inside (bracket : Bracket) (nesting : Nesting) (c : Char) :
    (nesting.inside bracket).feed c =
      match nesting.feed? c with
      | some next => (next.inside bracket, .inside)
      | none =>
        if nesting = empty ∧ Bracket.closing? c = some bracket then (empty, .closed)
        else (nesting.inside bracket, .mismatch) := by
  obtain ⟨brackets, quote⟩ := nesting
  cases quote with
  | some quote =>
    by_cases hquote : c = quote.toChar <;> simp [feed?, feed, inside, hquote]
  | none =>
    cases hquote : Quote.ofChar? c with
    | some quote => simp [feed?, feed, inside, hquote]
    | none =>
      cases hopening : Bracket.opening? c with
      | some opened => simp [feed?, feed, inside, hquote, hopening]
      | none =>
        cases hclosing : Bracket.closing? c with
        | none => simp [feed?, feed, inside, hquote, hopening, hclosing]
        | some closed =>
          cases brackets with
          | nil =>
            by_cases heq : bracket = closed
            · simp [feed?, feed, close, inside, empty, hquote, hopening, hclosing, heq]
            · simp [feed?, feed, close, inside, empty, hquote, hopening, hclosing, heq, Ne.symm heq]
          | cons top outer =>
            by_cases heq : top = closed
            · cases outer <;>
                simp [feed?, feed, close, inside, hquote, hopening, hclosing, heq]
            · simp [feed?, feed, close, inside, empty, hquote, hopening, hclosing, heq]

theorem balanced_of_closingFrom {bracket : Bracket} {nesting : Nesting} {text : List Char}
    {length : Nat} (h : (nesting.inside bracket).closingFrom text = some length) :
    ∃ body closer rest, text = body ++ closer :: rest ∧ length = byteLength (body ++ [closer]) ∧
      nesting.feedAll? body = some empty ∧ Bracket.closing? closer = some bracket := by
  induction text generalizing nesting length with
  | nil => cases h
  | cons c cs ih =>
    rw [closingFrom, feed_inside] at h
    cases hfeed : nesting.feed? c with
    | some next =>
      simp only [hfeed] at h
      obtain ⟨inner, hinner, rfl⟩ := Option.map_eq_some_iff.mp h
      obtain ⟨body, closer, rest, rfl, rfl, hbody, hcloser⟩ := ih hinner
      refine ⟨c :: body, closer, rest, rfl, rfl, ?_, hcloser⟩
      rw [feedAll?, List.foldlM_cons, hfeed]
      exact hbody
    | none =>
      simp only [hfeed] at h
      by_cases hlast : nesting = empty ∧ Bracket.closing? c = some bracket
      · rw [if_pos hlast] at h
        obtain ⟨rfl, hcloser⟩ := hlast
        obtain rfl := Option.some.inj h
        exact ⟨[], c, cs, rfl, rfl, rfl, hcloser⟩
      · rw [if_neg hlast] at h
        cases h

end Nesting

theorem balanced_of_findClosing {text : List Char} {length : Nat}
    (h : findClosing text .round = some length) :
    ∃ body rest, text = body ++ ')' :: rest ∧ length = byteLength (body ++ [')']) ∧
      Nesting.empty.feedAll? body = some .empty := by
  have hinside : (Nesting.empty.inside .round).closingFrom text = some length := h
  obtain ⟨body, closer, rest, rfl, rfl, hbody, hcloser⟩ :=
    Nesting.balanced_of_closingFrom hinside
  obtain rfl : closer = ')' := by
    unfold Bracket.closing? at hcloser
    split at hcloser
    · rfl
    all_goals cases hcloser
  exact ⟨body, rest, rfl, rfl, hbody⟩

end TemplateMessages.Expression
