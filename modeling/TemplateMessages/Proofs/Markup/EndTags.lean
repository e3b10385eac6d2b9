import TemplateMessages.Proofs.Markup.Locality
import TemplateMessages.Proofs.Text.Placement

set_option autoImplicit false

/-!
# End tags of an element

`IsEndTag` spells out the characters of an end tag. The search for one finds the first of them in
the text: none starts in front of it, and there is none when nothing is found.
-/

namespace TemplateMessages.Markup

open TemplateMessages.Text

/-- An end tag of the element: behind its name stands white space, and anything up to the next `>`,
or `>` itself. -/
def IsEndTag (name chars : List Char) : Prop :=
  ∃ inside, chars = '<' :: '/' :: name ++ inside ++ ['>'] ∧ '>' ∉ inside ∧
    ∀ c ∈ inside.head?, isBlank c = true

variable {name text chars rest : List Char}

theorem IsEndTag.ne_nil (h : IsEndTag name chars) : chars ≠ [] := by
  obtain ⟨inside, rfl, -⟩ := h
  exact List.cons_ne_nil _ _

theorem readEndTagOf?_eq_some_iff :
    readEndTagOf? name text = some (chars, rest) ↔ IsEndTag name chars ∧ chars ++ rest = text := by
  constructor
  · intro h
    refine ⟨?_, (append_of_readEndTagOf? h).1⟩
    unfold readEndTagOf? at h
    dsimp only at h
    split at h
    · split at h
      · cases h
      · rename_i c cs hdrop
        rw [hdrop] at h
        split at h
        · rename_i hfirst
          split at h
          · obtain ⟨rfl, rfl⟩ := Prod.mk.inj (Option.some.inj h)
            refine ⟨_, rfl, not_mem_takeWhile_ne (c :: cs), fun d hd => ?_⟩
            rw [List.takeWhile_cons] at hd
            split at hd
            · rename_i hne
              obtain rfl : c = d := Option.some.inj hd
              exact hfirst.resolve_left (by simpa using hne)
            · cases hd
          · cases h
        · cases h
    · cases h
  · rintro ⟨⟨inside, rfl, hbracket, hblank⟩, rfl⟩
    have hwhole : '<' :: '/' :: name ++ inside ++ ['>'] ++ rest =
        '<' :: '/' :: name ++ (inside ++ '>' :: rest) := by simp
    have hopens : ('<' :: '/' :: name).isPrefixOf ('<' :: '/' :: name ++ (inside ++ '>' :: rest)) =
        true := List.isPrefixOf_iff_prefix.mpr (List.prefix_append _ _)
    have hfirst : ∀ c ∈ (inside ++ '>' :: rest).head?, c = '>' ∨ isBlank c = true := by
      intro c hc
      cases inside with
      | nil => exact .inl (Option.some.inj hc).symm
      | cons d inside => exact .inr (hblank c hc)
    obtain ⟨c, cs, hcons⟩ : ∃ c cs, inside ++ '>' :: rest = c :: cs := by
      cases inside <;> exact ⟨_, _, rfl⟩
    rw [hwhole, readEndTagOf?]
    dsimp only
    rw [if_pos hopens, List.drop_left, hcons]
    dsimp only
    rw [hcons] at hfirst
    rw [if_pos (hfirst c rfl), ← hcons, takeWhile_ne_append hbracket, dropWhile_ne_append hbracket]
    rfl

theorem isEndTag_of_findEndTag? {before : List Char}
    (h : findEndTag? name text = some (before, chars, rest)) : IsEndTag name chars := by
  induction text generalizing before with
  | nil => cases h
  | cons c cs ih =>
    rw [findEndTag?] at h
    split at h
    · rename_i found
      obtain ⟨rfl, rfl, rfl⟩ := by simpa only [Option.some.injEq, Prod.mk.injEq] using h
      exact (readEndTagOf?_eq_some_iff.mp found).1
    · obtain ⟨⟨front, tag, tail⟩, inner, outer⟩ := Option.map_eq_some_iff.mp h
      obtain ⟨rfl, rfl, rfl⟩ := by simpa only [Prod.mk.injEq] using outer
      exact ih inner

theorem exists_findEndTag? (front : List Char) (h : IsEndTag name chars) (rest : List Char) :
    ∃ before first after, findEndTag? name (front ++ chars ++ rest) = some (before, first, after) ∧
      byteLength before ≤ byteLength front := by
  induction front with
  | nil =>
    have hread : readEndTagOf? name (chars ++ rest) = some (chars, rest) :=
      readEndTagOf?_eq_some_iff.mpr ⟨h, rfl⟩
    obtain ⟨c, cs, rfl⟩ := List.exists_cons_of_ne_nil h.ne_nil
    refine ⟨[], c :: cs, rest, ?_, Nat.le_refl _⟩
    rw [List.nil_append, List.cons_append, findEndTag?]
    rw [List.cons_append] at hread
    rw [hread]
  | cons c front ih =>
    obtain ⟨before, first, after, hfind, hle⟩ := ih
    rw [List.cons_append, List.cons_append, findEndTag?]
    cases hhere : readEndTagOf? name (c :: (front ++ chars ++ rest)) with
    | some found => exact ⟨[], found.1, found.2, rfl, Nat.zero_le _⟩
    | none =>
      refine ⟨c :: before, first, after, ?_, Nat.add_le_add_left hle _⟩
      rw [hfind]
      rfl

theorem le_start_of_findEndTag? {base : Nat} {before last : List Char} {span : Span}
    (hfind : findEndTag? name text = some (before, last, rest)) (h : IsEndTag name chars)
    (hspan : Covers base text span chars) : base + byteLength before ≤ span.start := by
  obtain ⟨front, after, rfl, rfl⟩ := hspan
  obtain ⟨first, _, _, hfirst, hle⟩ := exists_findEndTag? front h after
  rw [hfirst] at hfind
  obtain ⟨rfl, -, -⟩ := by simpa only [Option.some.injEq, Prod.mk.injEq] using hfind
  exact Nat.add_le_add_left hle base

theorem not_covers_of_findEndTag?_eq_none {base : Nat} {span : Span}
    (hfind : findEndTag? name text = none) (h : IsEndTag name chars) :
    ¬Covers base text span chars := by
  rintro ⟨front, after, rfl, -⟩
  obtain ⟨_, _, _, hfirst, -⟩ := exists_findEndTag? front h after
  rw [hfirst] at hfind
  cases hfind

end TemplateMessages.Markup
