import TemplateMessages.Proofs.Expression.Passing

set_option autoImplicit false

/-!
# Splitting balanced texts

A text behind which nothing is open is split into parts that give the text with the separator between
them, and a separator behind it starts the next part. At the end of such a text a string that has no
quote of its own inside was opened by the quote in front of it.
-/

namespace TemplateMessages.Expression

open TemplateMessages.Text

@[simp] theorem Quote.ofChar?_eq_some_iff {c : Char} {quote : Quote} :
    Quote.ofChar? c = some quote ↔ c = quote.toChar := by
  constructor
  · intro h
    unfold Quote.ofChar? at h
    split at h
    · obtain rfl := Option.some.inj h
      assumption
    · split at h
      · obtain rfl := Option.some.inj h
        assumption
      · split at h
        · obtain rfl := Option.some.inj h
          assumption
        · cases h
  · rintro rfl
    cases quote <;> rfl

theorem Quote.eq_of_toChar_eq {a b : Quote} (h : a.toChar = b.toChar) : a = b := by
  have ha : Quote.ofChar? a.toChar = some a := ofChar?_eq_some_iff.mpr rfl
  rw [h, ofChar?_eq_some_iff.mpr rfl] at ha
  exact (Option.some.inj ha).symm

namespace Nesting

variable {separator c : Char} {nesting next : Nesting} {text : List Char}

@[simp] theorem isBalanced_iff : nesting.isBalanced = true ↔ nesting = empty := by
  obtain ⟨brackets, quote⟩ := nesting
  simp [isBalanced, empty]

@[simp] theorem feedAll?_cons (nesting : Nesting) (c : Char) (cs : List Char) :
    nesting.feedAll? (c :: cs) = (nesting.feed? c).bind (feedAll? · cs) :=
  rfl

@[simp] theorem feedAll?_append (nesting : Nesting) (text more : List Char) :
    nesting.feedAll? (text ++ more) = (nesting.feedAll? text).bind (feedAll? · more) :=
  List.foldlM_append

theorem feedAll?_of_pass? (h : nesting.pass? separator text = some next) :
    nesting.feedAll? text = some next := by
  induction text generalizing nesting with
  | nil => exact h
  | cons c cs ih =>
    rw [pass?_cons] at h
    obtain ⟨middle, hmiddle, hcs⟩ := Option.bind_eq_some_iff.mp h
    split at hmiddle
    · cases hmiddle
    · simp [hmiddle, ih hcs]

theorem consFirst_ne_nil (c : Char) (parts : List (List Char)) : consFirst c parts ≠ [] := by
  cases parts <;> exact List.cons_ne_nil _ _

theorem consFirst_append (c : Char) {parts : List (List Char)} (hne : parts ≠ [])
    (more : List (List Char)) : consFirst c (parts ++ more) = consFirst c parts ++ more := by
  cases parts with
  | nil => exact absurd rfl hne
  | cons part parts => rfl

theorem intercalate_consFirst (separator : List Char) (c : Char) {parts : List (List Char)}
    (hne : parts ≠ []) :
    separator.intercalate (consFirst c parts) = c :: separator.intercalate parts := by
  cases parts with
  | nil => exact absurd rfl hne
  | cons part parts =>
    cases parts with
    | nil => simp only [consFirst, List.intercalate_singleton]
    | cons other parts => simp only [consFirst, List.intercalate_cons_cons, List.cons_append]

/-- A text behind which nothing is open is split, and a separator behind it starts the next part. -/
theorem exists_splitFrom (hseparator : empty.feed? separator = some empty)
    (h : nesting.feedAll? text = some empty) :
    ∃ parts, nesting.splitFrom separator text = some parts ∧ parts ≠ [] ∧
      [separator].intercalate parts = text ∧
      ∀ rest, nesting.splitFrom separator (text ++ separator :: rest) =
        (empty.splitFrom separator rest).map (parts ++ ·) := by
  induction text generalizing nesting with
  | nil =>
    obtain rfl : nesting = empty := Option.some.inj h
    refine ⟨[[]], rfl, List.cons_ne_nil _ _, List.intercalate_singleton, fun rest => ?_⟩
    rw [List.nil_append, splitFrom_cons, if_pos ⟨rfl, rfl⟩]
    rfl
  | cons c cs ih =>
    rw [feedAll?_cons] at h
    obtain ⟨next, hnext, hcs⟩ := Option.bind_eq_some_iff.mp h
    obtain ⟨parts, hparts, hne, hwhole, hmore⟩ := ih hcs
    by_cases hcut : c = separator ∧ nesting.isBalanced = true
    · -- a separator leaves a balanced nesting as it is
      obtain ⟨rfl, hbalanced⟩ := hcut
      obtain rfl := isBalanced_iff.mp hbalanced
      obtain rfl : empty = next := Option.some.inj (hseparator.symm.trans hnext)
      refine ⟨[] :: parts, ?_, List.cons_ne_nil _ _, ?_, fun rest => ?_⟩
      · rw [splitFrom_cons, if_pos ⟨rfl, rfl⟩, hparts, Option.map_some]
      · rw [List.intercalate_cons_of_ne_nil hne, hwhole]
        rfl
      · rw [List.cons_append, splitFrom_cons, if_pos ⟨rfl, rfl⟩, hmore, Option.map_map]
        rfl
    · refine ⟨consFirst c parts, ?_, consFirst_ne_nil c parts, ?_, fun rest => ?_⟩
      · rw [splitFrom_cons, if_neg hcut, hnext, Option.bind_some, hparts, Option.map_some]
      · rw [intercalate_consFirst _ c hne, hwhole]
      · rw [List.cons_append, splitFrom_cons, if_neg hcut, hnext, Option.bind_some, hmore,
          Option.map_map]
        congr 1
        funext more
        exact consFirst_append c hne more

theorem feed?_of_other (hquote : Quote.ofChar? c = none) (hopening : Bracket.opening? c = none)
    (hclosing : Bracket.closing? c = none) (nesting : Nesting) :
    nesting.feed? c = some nesting := by
  obtain ⟨brackets, quote⟩ := nesting
  cases quote with
  | none => simp [feed?, feed, hquote, hopening, hclosing]
  | some quote =>
    have hne : c ≠ quote.toChar := by
      intro heq
      rw [Quote.ofChar?_eq_some_iff.mpr heq] at hquote
      cases hquote
    simp [feed?, feed, hne]

@[simp] theorem feed?_comma (nesting : Nesting) : nesting.feed? ',' = some nesting :=
  feed?_of_other rfl rfl rfl nesting

theorem feedAll?_blanks (h : ∀ c ∈ text, isBlank c = true) (nesting : Nesting) :
    nesting.feedAll? text = some nesting := by
  induction text with
  | nil => rfl
  | cons c cs ih =>
    rw [List.forall_mem_cons] at h
    have hmem := not_mem_delimiters_of_isBlank h.1
    simp only [delimiters, List.mem_cons, List.not_mem_nil, or_false, not_or] at hmem
    have hstays : nesting.feed? c = some nesting :=
      feed?_of_other (by simp [Quote.ofChar?, hmem]) (by simp [Bracket.opening?, hmem])
        (by simp [Bracket.closing?, hmem]) nesting
    simp [hstays, ih h.2]

@[simp] theorem feed?_string (brackets : List Bracket) (quote : Quote) (c : Char) :
    feed? ⟨brackets, some quote⟩ c =
      some ⟨brackets, if c = quote.toChar then none else some quote⟩ := by
  by_cases hquote : c = quote.toChar <;> simp [feed?, feed, hquote]

@[simp] theorem feed?_quote (brackets : List Bracket) (quote : Quote) :
    feed? ⟨brackets, none⟩ quote.toChar = some ⟨brackets, some quote⟩ := by
  cases quote <;> rfl

/-- A string in `quote` is opened and closed by that quote only. -/
theorem quote_feed?_iff {quote : Quote} (h : nesting.feed? c = some next)
    (hne : c ≠ quote.toChar) : next.quote = some quote ↔ nesting.quote = some quote := by
  obtain ⟨brackets, inside⟩ := nesting
  cases inside with
  | some other =>
    rw [feed?_string] at h
    obtain rfl := Option.some.inj h
    by_cases hclosed : c = other.toChar
    · have hother : other ≠ quote := fun heq => hne (hclosed.trans (congrArg _ heq))
      simp [hclosed, hother]
    · simp [hclosed]
  | none =>
    cases hopened : Quote.ofChar? c with
    | some other =>
      rw [Quote.ofChar?_eq_some_iff.mp hopened, feed?_quote] at h
      obtain rfl := Option.some.inj h
      have hother : other ≠ quote := fun heq =>
        hne ((Quote.ofChar?_eq_some_iff.mp hopened).trans (congrArg _ heq))
      simp [hother]
    | none =>
      have hquote := quote_feed ⟨brackets, none⟩ hopened
      have hnext : next.quote = none := by
        unfold feed? at h
        split at h
        · cases h
        · rename_i hfeed
          obtain rfl := Option.some.inj h
          rwa [hfeed] at hquote
      simp [hnext]

theorem quote_feedAll?_iff {quote : Quote} (h : nesting.feedAll? text = some next)
    (hmem : quote.toChar ∉ text) : next.quote = some quote ↔ nesting.quote = some quote := by
  induction text generalizing nesting with
  | nil =>
    obtain rfl := Option.some.inj h
    rfl
  | cons c cs ih =>
    rw [feedAll?_cons] at h
    obtain ⟨middle, hmiddle, hcs⟩ := Option.bind_eq_some_iff.mp h
    rw [List.mem_cons, not_or] at hmem
    exact (ih hcs hmem.2).trans (quote_feed?_iff hmiddle (Ne.symm hmem.1))

/-- Nothing is open in front of a string at the end of a text behind which nothing is open. -/
theorem eq_empty_of_string {quote : Quote} {inside : List Char} (hmem : quote.toChar ∉ inside)
    (h : nesting.feedAll? (quote.toChar :: (inside ++ [quote.toChar])) = some empty) :
    nesting = empty := by
  rw [feedAll?_cons] at h
  obtain ⟨first, hfirst, h⟩ := Option.bind_eq_some_iff.mp h
  rw [feedAll?_append] at h
  obtain ⟨last, hinside, hlast⟩ := Option.bind_eq_some_iff.mp h
  have hclosed : last.feed? quote.toChar = some empty := by
    rw [feedAll?_cons] at hlast
    obtain ⟨_, hclosed, heq⟩ := Option.bind_eq_some_iff.mp hlast
    obtain rfl := Option.some.inj heq
    exact hclosed
  -- the last quote closes a string, so it is one of its own kind
  have hopen : last.quote = some quote := by
    obtain ⟨brackets, _ | other⟩ := last
    · rw [feed?_quote] at hclosed
      cases hclosed
    · rw [feed?_string] at hclosed
      by_cases heq : quote.toChar = other.toChar
      · rw [Quote.eq_of_toChar_eq heq]
      · rw [if_neg heq] at hclosed
        cases hclosed
  have hopened := (quote_feedAll?_iff hinside hmem).mp hopen
  obtain ⟨brackets, _ | other⟩ := nesting
  · rw [feed?_quote] at hfirst
    obtain rfl := Option.some.inj hfirst
    have hpass : pass? ',' ⟨brackets, some quote⟩ inside = some ⟨brackets, some quote⟩ :=
      pass?_string brackets hmem
    have hsame := feedAll?_of_pass? hpass
    obtain rfl := Option.some.inj (hsame.symm.trans hinside)
    rw [feed?_string, if_pos rfl] at hclosed
    exact Option.some.inj hclosed
  · rw [feed?_string] at hfirst
    obtain rfl := Option.some.inj hfirst
    by_cases heq : quote.toChar = other.toChar
    · rw [if_pos heq] at hopened
      cases hopened
    · rw [if_neg heq] at hopened
      exact absurd (congrArg Quote.toChar (Option.some.inj hopened)).symm heq

end Nesting

end TemplateMessages.Expression
