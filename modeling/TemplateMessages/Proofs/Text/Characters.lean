import Mathlib.Data.List.TakeWhile
import TemplateMessages.Text.Blank
import TemplateMessages.Text.Search

set_option autoImplicit false

/-!
# Lists of characters

What holds of all characters of a list is decided character by character of the list, and not over
the characters there are. White space around a text is trimmed, and a text contains a phrase when
the phrase is a part of it.
-/

namespace TemplateMessages.Text

instance (priority := high) decidableAllOfList {p : Char → Prop} [DecidablePred p]
    (chars : List Char) : Decidable (∀ c, c ∈ chars → p c) :=
  List.decidableBAll p chars

theorem toNat_of_isDigit {c : Char} (h : c.isDigit = true) : 48 ≤ c.toNat ∧ c.toNat ≤ 57 := by
  simpa [Char.isDigit, UInt32.le_iff_toNat_le] using h

theorem mem_digits_of_isDigit {c : Char} (h : c.isDigit = true) :
    c ∈ ['0', '1', '2', '3', '4', '5', '6', '7', '8', '9'] := by
  have hbounds := toNat_of_isDigit h
  simp only [List.mem_cons, List.not_mem_nil, or_false, ← Char.toNat_inj]
  change c.toNat = 48 ∨ c.toNat = 49 ∨ c.toNat = 50 ∨ c.toNat = 51 ∨ c.toNat = 52 ∨
    c.toNat = 53 ∨ c.toNat = 54 ∨ c.toNat = 55 ∨ c.toNat = 56 ∨ c.toNat = 57
  omega

section

variable {before blanks : List Char} {c d : Char}

theorem eq_append_trim (text : List Char) :
    ∃ front back, text = front ++ (trim text ++ back) ∧ (∀ c ∈ front, isBlank c = true) ∧
      ∀ c ∈ back, isBlank c = true := by
  refine ⟨text.takeWhile isBlank, ((trimStart text).reverse.takeWhile isBlank).reverse, ?_, ?_, ?_⟩
  · rw [trim, trimEnd, ← List.reverse_append, List.takeWhile_append_dropWhile, List.reverse_reverse,
      trimStart, List.takeWhile_append_dropWhile]
  · intro c hc
    exact List.mem_takeWhile_imp hc
  · intro c hc
    exact List.mem_takeWhile_imp (List.mem_reverse.mp hc)

theorem eq_trimEnd_append (text : List Char) :
    ∃ blanks, text = trimEnd text ++ blanks ∧ isBlankText blanks = true := by
  refine ⟨(text.reverse.takeWhile isBlank).reverse, ?_, ?_⟩
  · rw [trimEnd, ← List.reverse_append, List.takeWhile_append_dropWhile, List.reverse_reverse]
  · exact List.all_eq_true.mpr fun c hc => List.mem_takeWhile_imp (List.mem_reverse.mp hc)

theorem isBlank_of_trim_eq_nil {text : List Char} (h : trim text = []) :
    ∀ c ∈ text, isBlank c = true := by
  obtain ⟨front, back, heq, hfront, hback⟩ := eq_append_trim text
  rw [h, List.nil_append] at heq
  intro c hc
  rw [heq] at hc
  exact (List.mem_append.mp hc).elim (hfront c) (hback c)

theorem trimEnd_append_blanks (text : List Char) (h : isBlankText blanks = true) :
    trimEnd (text ++ blanks) = trimEnd text := by
  unfold trimEnd
  rw [List.reverse_append, List.dropWhile_append_of_pos]
  intro c hc
  exact List.all_eq_true.mp h c (List.mem_reverse.mp hc)

theorem trimEnd_concat (text : List Char) {c : Char} (h : isBlank c = false) :
    trimEnd (text ++ [c]) = text ++ [c] := by
  unfold trimEnd
  rw [List.reverse_append, List.reverse_singleton, List.singleton_append,
    List.dropWhile_cons_of_neg (by simp [h]), List.reverse_cons, List.reverse_reverse]

theorem trim_between_blanks (text : List Char) (hbefore : isBlankText before = true)
    (hbehind : isBlankText blanks = true) (hfirst : isBlank c = false)
    (hlast : isBlank d = false) :
    trim (before ++ (c :: (text ++ [d])) ++ blanks) = c :: (text ++ [d]) := by
  have hstart : trimStart (before ++ (c :: (text ++ [d])) ++ blanks) =
      c :: text ++ [d] ++ blanks := by
    rw [trimStart, List.append_assoc,
      List.dropWhile_append_of_pos fun e he => List.all_eq_true.mp hbefore e he]
    exact List.dropWhile_cons_of_neg (by simp [hfirst])
  rw [trim, hstart, trimEnd_append_blanks _ hbehind, trimEnd_concat _ hlast, List.cons_append]

theorem trim_blanks_append (text : List Char) (h : ∀ c ∈ before, isBlank c = true) :
    trim (before ++ text) = trim text := by
  rw [trim, trimStart, List.dropWhile_append_of_pos h]
  rfl

theorem trim_append_blanks (text : List Char) (h : ∀ c ∈ blanks, isBlank c = true) :
    trim (text ++ blanks) = trim text := by
  unfold trim trimStart
  rw [List.dropWhile_append]
  split
  · rename_i hempty
    rw [List.isEmpty_iff.mp hempty, List.dropWhile_eq_nil_iff.mpr h]
  · exact trimEnd_append_blanks _ (List.all_eq_true.mpr h)

@[simp] theorem trim_trim (text : List Char) : trim (trim text) = trim text := by
  obtain ⟨front, back, heq, hfront, hback⟩ := eq_append_trim text
  have hsame := congrArg trim heq
  rw [trim_blanks_append _ hfront, trim_append_blanks _ hback] at hsame
  exact hsame.symm

end

section

variable {phrase text front rest : List Char}

theorem contains_iff : contains phrase text = true ↔ phrase <:+: text := by
  unfold contains
  induction text with
  | nil =>
    rw [breakOn?, List.infix_nil]
    cases phrase <;> simp
  | cons c cs ih =>
    rw [breakOn?, List.infix_cons_iff, ← List.isPrefixOf_iff_prefix, ← ih]
    split
    · rename_i h
      simp [h]
    · rename_i h
      simp [h]

theorem contains_cons {c : Char} :
    contains phrase (c :: text) = true ↔ phrase <+: c :: text ∨ contains phrase text = true := by
  rw [contains_iff, contains_iff, List.infix_cons_iff]

/-- The first occurrence stands right behind `front` when none lies in `front` and the phrase without
its last character. -/
theorem breakOn?_append_iff {c : Char} :
    breakOn? (phrase ++ [c]) (front ++ phrase ++ c :: rest) = some (front, rest) ↔
      contains (phrase ++ [c]) (front ++ phrase) = false := by
  induction front with
  | nil =>
    have hlong : contains (phrase ++ [c]) phrase = false := by
      rw [← Bool.not_eq_true, contains_iff]
      intro h
      have hlength := h.length_le
      rw [List.length_append, List.length_singleton] at hlength
      omega
    have hsplit : phrase ++ c :: rest = (phrase ++ [c]) ++ rest := by simp
    have hfirst : breakOn? (phrase ++ [c]) ((phrase ++ [c]) ++ rest) = some ([], rest) := by
      have hopens : (phrase ++ [c]).isPrefixOf ((phrase ++ [c]) ++ rest) = true :=
        List.isPrefixOf_iff_prefix.mpr (List.prefix_append _ _)
      obtain ⟨d, ds, hd⟩ : ∃ d ds, (phrase ++ [c]) ++ rest = d :: ds := by
        cases phrase <;> exact ⟨_, _, rfl⟩
      have hdrop : (d :: ds).drop (phrase ++ [c]).length = rest := by rw [← hd, List.drop_left]
      rw [hd] at hopens ⊢
      rw [breakOn?, if_pos hopens, hdrop]
    rw [List.nil_append, hlong, hsplit, hfirst]
    simp
  | cons d front ih =>
    have hwhole : d :: (front ++ phrase ++ c :: rest) =
        (d :: (front ++ phrase)) ++ c :: rest := by simp
    simp only [List.cons_append]
    rw [breakOn?]
    split
    · rename_i h
      -- an occurrence in front of the one behind `front` cannot reach as far as the latter's end
      have hinside : phrase ++ [c] <+: d :: (front ++ phrase) := by
        refine List.prefix_of_prefix_length_le (List.isPrefixOf_iff_prefix.mp h)
          (hwhole ▸ List.prefix_append _ _) ?_
        simp only [List.length_append, List.length_cons, List.length_nil]
        omega
      have hcontains := contains_cons.mpr (.inl hinside)
      rw [hcontains]
      simp
    · rename_i h
      have hnone : ¬phrase ++ [c] <+: d :: (front ++ phrase) := fun hopens =>
        h (List.isPrefixOf_iff_prefix.mpr (hwhole ▸ hopens.trans (List.prefix_append _ _)))
      rw [← Bool.not_eq_true, contains_cons, or_iff_right hnone, Bool.not_eq_true, ← ih]
      simp

/-- What is behind the first occurrence has no part in finding it. -/
theorem breakOn?_append_rest {c : Char} (h : breakOn? (phrase ++ [c]) text = some (front, rest))
    (rest' : List Char) :
    breakOn? (phrase ++ [c]) (front ++ (phrase ++ [c]) ++ rest') = some (front, rest') := by
  have htext := append_of_breakOn? h
  have hsplit (after : List Char) :
      front ++ (phrase ++ [c]) ++ after = front ++ phrase ++ c :: after := by simp
  rw [← htext, hsplit, breakOn?_append_iff] at h
  rw [hsplit, breakOn?_append_iff]
  exact h

theorem prefix_of_not_mem {c : Char} (hc : c ∉ phrase) (h : phrase <+: front ++ c :: rest) :
    phrase <+: front := by
  have hstop : front ++ [c] <+: front ++ c :: rest := ⟨rest, by simp⟩
  rcases List.prefix_or_prefix_of_prefix h hstop with hshort | hlong
  · rcases List.prefix_concat_iff.mp hshort with rfl | hfront
    · simp at hc
    · exact hfront
  · exact absurd (hlong.subset (by simp)) hc

/-- A phrase does not reach across a character that it does not hold. -/
theorem contains_append_of_not_mem {c : Char} (hc : c ∉ phrase)
    (h : contains phrase (front ++ c :: rest) = true) :
    contains phrase front = true ∨ contains phrase rest = true := by
  rw [contains_iff, contains_iff]
  rw [contains_iff] at h
  induction front with
  | nil =>
    rcases List.infix_cons_iff.mp h with hhere | hlater
    · have hnil := List.prefix_nil.mp (@prefix_of_not_mem phrase [] rest c hc hhere)
      exact .inl (hnil ▸ List.nil_infix)
    · exact .inr hlater
  | cons d front ih =>
    rcases List.infix_cons_iff.mp h with hhere | hlater
    · exact .inl (@prefix_of_not_mem phrase (d :: front) rest c hc hhere).isInfix
    · exact (ih hlater).imp List.infix_cons id

end

end TemplateMessages.Text
