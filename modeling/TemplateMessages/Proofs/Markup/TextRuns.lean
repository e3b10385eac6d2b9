import TemplateMessages.Proofs.Markup.TagSpans
import TemplateMessages.Proofs.Text.Validity

set_option autoImplicit false

/-!
# Text runs

A text run starts where no construct is read. It ends at the first place behind where one is read,
but for doctypes: a text run does not stop for them, and a doctype with text in front is part of the
text. The other texts of a scan are what was read of start tags that do not close.
-/

namespace TemplateMessages.Markup

open TemplateMessages.Text

variable {source chars text rest : List Char} {region span : Span} {position limit : Nat}
  {translate : Bool}

theorem isSome_readTag? (text : List Char) :
    (readTag? text).isSome = (readTagOpen? text).isSome := by
  unfold readTag?
  cases readTagOpen? text <;> rfl

theorem startsMarkup_iff :
    startsMarkup text = true ↔
      ∃ construct chars rest, readConstruct? text = some (construct, chars, rest) ∧
        construct ≠ .doctype := by
  constructor
  · intro h
    simp only [startsMarkup, Bool.or_eq_true, ← isSome_readTag?] at h
    rcases h with ((hopen | hopen) | hend) | htag
    · exact ⟨.comment, _, _, readConstruct?_comment (List.isPrefixOf_iff_prefix.mp hopen) rfl,
        by simp⟩
    · exact ⟨.comment, _, _, readConstruct?_section (List.isPrefixOf_iff_prefix.mp hopen) rfl,
        by simp⟩
    · obtain ⟨⟨name, chars, rest⟩, hend⟩ := Option.isSome_iff_exists.mp hend
      exact ⟨_, _, _, readConstruct?_of_readEndTag? hend, by simp⟩
    · obtain ⟨⟨tag, rest⟩, htag⟩ := Option.isSome_iff_exists.mp htag
      exact ⟨_, _, _, readConstruct?_of_readTag? htag, by simp⟩
  · rintro ⟨construct, chars, rest, hread, hdoctype⟩
    have hcase := readConstruct?_cases hread
    simp only [startsMarkup, Bool.or_eq_true, ← isSome_readTag?]
    cases construct with
    | comment =>
      rcases hcase with ⟨hopen, -⟩ | ⟨hopen, -⟩
      · exact .inl (.inl (.inl (List.isPrefixOf_iff_prefix.mpr hopen)))
      · exact .inl (.inl (.inr (List.isPrefixOf_iff_prefix.mpr hopen)))
    | doctype => exact absurd rfl hdoctype
    | endTag name =>
      obtain ⟨spelled, hend, -⟩ := hcase
      exact .inl (.inr (by rw [hend]; rfl))
    | startTag tag => exact .inr (by rw [hcase.1]; rfl)

theorem startsMarkup_of_readTag? {tag : TagText} (h : readTag? text = some (tag, rest)) :
    startsMarkup text = true :=
  startsMarkup_iff.mpr ⟨_, _, _, readConstruct?_of_readTag? h, by simp⟩

def constructAt? (source : List Char) (position limit : Nat) : Option Construct :=
  (readConstruct? (Span.slice ⟨position, limit⟩ source)).map (·.1)

theorem constructAt?_eq (h : Covers 0 source ⟨position, limit⟩ text) :
    constructAt? source position limit = (readConstruct? text).map (·.1) := by
  rw [constructAt?, h.slice_eq]

theorem startsMarkup_iff_constructAt? (h : Covers 0 source ⟨position, limit⟩ text) :
    startsMarkup text = true ↔
      ∃ construct, constructAt? source position limit = some construct ∧
        construct ≠ .doctype := by
  rw [startsMarkup_iff, constructAt?_eq h]
  constructor
  · rintro ⟨construct, chars, rest, hread, hdoctype⟩
    refine ⟨construct, ?_, hdoctype⟩
    rw [hread]
    rfl
  · rintro ⟨construct, hread, hdoctype⟩
    obtain ⟨⟨found, chars, rest⟩, hfound, rfl⟩ := Option.map_eq_some_iff.mp hread
    exact ⟨found, chars, rest, hfound, hdoctype⟩

inductive IsTextRun (source : List Char) (limit : Nat) : Span → Prop
  | read {position : Nat} {c : Char} {cs : List Char}
      (covers : Covers 0 source ⟨position, limit⟩ (c :: cs))
      (plain : readConstruct? (c :: cs) = none) :
      IsTextRun source limit ⟨position, position + byteLength (c :: (textRun cs).1)⟩

namespace IsTextRun

theorem constructAt?_start (h : IsTextRun source limit span) :
    constructAt? source span.start limit = none := by
  cases h with
  | read covers plain => rw [constructAt?_eq covers, plain, Option.map_none]

theorem exists_inside (h : IsTextRun source limit span) (hinside : IsInside source span position) :
    ∃ text, Covers 0 source ⟨position, limit⟩ text ∧ startsMarkup text = false := by
  cases h with
  | @read start c cs covers plain =>
    rw [← cons_textRun_append] at covers
    obtain ⟨front, back, hsplit, hfront, hback, rfl⟩ := hinside.exists_cut covers.split.1
    refine ⟨back ++ (textRun cs).2, ?_, ?_⟩
    · rw [← hsplit, List.append_assoc] at covers
      exact covers.tail
    · -- the run behind its first character goes on up to its end
      have hrun : textRun ((textRun cs).1 ++ (textRun cs).2) =
          ((textRun cs).1, (textRun cs).2) := by
        simp
      have hgoesOn := (textRun_append_iff (textRun_stops cs)).mp hrun
      cases front with
      | nil => exact absurd rfl hfront
      | cons d front => exact hgoesOn front back (List.cons.inj hsplit).2 hback

theorem exists_behind (h : IsTextRun source limit span) :
    ∃ text, Covers 0 source ⟨span.stop, limit⟩ text ∧
      (text = [] ∨ startsMarkup text = true) := by
  cases h with
  | @read start c cs covers plain =>
    rw [← cons_textRun_append] at covers
    exact ⟨(textRun cs).2, covers.tail, textRun_stops cs⟩

theorem eq_doctype_of_isInside (h : IsTextRun source limit span)
    (hinside : IsInside source span position) {construct : Construct}
    (hread : constructAt? source position limit = some construct) : construct = .doctype := by
  obtain ⟨text, hcovers, hmarkup⟩ := h.exists_inside hinside
  by_contra hdoctype
  rw [(startsMarkup_iff_constructAt? hcovers).mpr ⟨construct, hread, hdoctype⟩] at hmarkup
  cases hmarkup

theorem exists_constructAt?_stop (h : IsTextRun source limit span) (hstop : span.stop < limit) :
    ∃ construct, constructAt? source span.stop limit = some construct ∧
      construct ≠ .doctype := by
  obtain ⟨text, hcovers, hend⟩ := h.exists_behind
  apply (startsMarkup_iff_constructAt? hcovers).mp
  rcases hend with rfl | hmarkup
  · have hlimit := hcovers.stop_eq
    rw [byteLength] at hlimit
    dsimp only at hlimit
    omega
  · exact hmarkup

end IsTextRun

theorem isTextRun_or_unclosedTag (hregion : Covers 0 source region chars)
    (hmem : Token.text span translate ∈ (scan source region).tokens) :
    IsTextRun source region.stop span ∨
      ∃ tag, constructAt? source span.start region.stop = some (.startTag tag) ∧
        tag.close = .missing ∧ span.stop = span.start + byteLength tag.chars := by
  obtain ⟨position, frames, text, hreached, hgives⟩ := ScanReached.start.exists_gives hmem
  have hcovers := hreached.covers hregion
  cases hgives with
  | textRun whole plain =>
    subst whole
    exact .inl (.read hcovers plain)
  | @unclosedTag tag rest found close =>
    refine .inr ⟨tag, ?_, close, rfl⟩
    rw [constructAt?_eq hcovers, readConstruct?_of_readTag? found]
    rfl

theorem isTextRun_iff (hregion : Covers 0 source region chars)
    (hmem : Token.text span translate ∈ (scan source region).tokens) :
    IsTextRun source region.stop span ↔
      constructAt? source span.start region.stop = none := by
  constructor
  · exact IsTextRun.constructAt?_start
  · intro hplain
    rcases isTextRun_or_unclosedTag hregion hmem with hrun | ⟨tag, htag, -, -⟩
    · exact hrun
    · rw [hplain] at htag
      cases htag

/-- The span ends exactly where a construct begins: none begins inside, and one begins behind it,
unless the region ends there. -/
structure EndsAtConstruct (source : List Char) (region span : Span) : Prop where
  inside : ∀ position, IsInside source span position →
    constructAt? source position region.stop = none
  behind : span.stop < region.stop → (constructAt? source span.stop region.stop).isSome = true

/-- A text of a scan that is not what was read of a start tag ends exactly where a construct begins,
doctypes apart: only these can begin inside, and it ends for none. So it ends as it should just when
no doctype begins inside. -/
theorem endsAtConstruct_iff (hregion : region.Valid source)
    (hmem : Token.text span translate ∈ (scan source region).tokens)
    (hplain : constructAt? source span.start region.stop = none) :
    (∀ position construct, IsInside source span position →
        constructAt? source position region.stop = some construct → construct = .doctype) ∧
      (span.stop < region.stop → ∃ construct,
        constructAt? source span.stop region.stop = some construct ∧ construct ≠ .doctype) ∧
      (EndsAtConstruct source region span ↔
        ∀ position, IsInside source span position →
          constructAt? source position region.stop ≠ some .doctype) := by
  obtain ⟨chars, hchars⟩ := hregion.exists_covers
  have hrun := (isTextRun_iff hchars hmem).mpr hplain
  refine ⟨fun _ _ hinside hread => hrun.eq_doctype_of_isInside hinside hread,
    hrun.exists_constructAt?_stop, ?_⟩
  constructor
  · intro hends position hinside hdoctype
    rw [hends.inside position hinside] at hdoctype
    cases hdoctype
  · intro hnone
    refine ⟨fun position hinside => ?_, fun hstop => ?_⟩
    · cases hread : constructAt? source position region.stop with
      | none => rfl
      | some construct =>
        obtain rfl := hrun.eq_doctype_of_isInside hinside hread
        exact absurd hread (hnone position hinside)
    · obtain ⟨construct, hread, -⟩ := hrun.exists_constructAt?_stop hstop
      rw [hread]
      rfl

/-- A doctype behind a line of text that has a bracket, and in front of a start tag. -/
def lateDoctype : List Char :=
  "a < b\n<!DOCTYPE html>\n<p>".toList

theorem endsAtConstruct_iff_lateDoctype :
    (⟨0, 25⟩ : Span).Valid lateDoctype ∧
      Token.text ⟨0, 22⟩ true ∈ (scan lateDoctype ⟨0, 25⟩).tokens ∧
      constructAt? lateDoctype 0 25 = none ∧
      (∃ construct, constructAt? lateDoctype 22 25 = some construct ∧ construct ≠ .doctype) ∧
      ¬ EndsAtConstruct lateDoctype ⟨0, 25⟩ ⟨0, 22⟩ := by
  have hregion : (⟨0, 25⟩ : Span).Valid lateDoctype :=
    .of_boundaries (by decide) (by decide +kernel) (by decide +kernel)
  have hmem : Token.text ⟨0, 22⟩ true ∈ (scan lateDoctype ⟨0, 25⟩).tokens := by
    decide +kernel
  have hplain : constructAt? lateDoctype 0 25 = none := by
    decide +kernel
  obtain ⟨-, hbehind, hends⟩ := endsAtConstruct_iff hregion hmem hplain
  refine ⟨hregion, hmem, hplain, hbehind (by decide), ?_⟩
  rw [hends]
  intro hnone
  have hinside : IsInside lateDoctype ⟨0, 22⟩ 6 :=
    ⟨by decide +kernel, by decide, by decide⟩
  exact hnone 6 hinside (by decide +kernel)

end TemplateMessages.Markup
