import TemplateMessages.Proofs.Template.Parts
import TemplateMessages.Proofs.Text.Characters

set_option autoImplicit false

/-!
# The extent of an expression

An expression ends at the first pair of closing braces behind its first character, and starts at the
first pair of opening braces behind the last one. So the expressions of a rewritten text run are
read again as they were written when no rewritten expression has a pair of closing braces, alone or
with the one behind it, and no text in front has a pair of opening ones, alone or with the one behind
it.
-/

namespace TemplateMessages.Template

open TemplateMessages.Call (Candidate FunctionNames)
open TemplateMessages.Text
open TemplateMessages.Translation

def closes : List Char → Bool
  | [] => false
  | _ :: cs => !contains ['}', '}'] (cs ++ ['}'])

/-- The parts behind the text `front` are read again where they stand. -/
def Legible (front : List Char) : List Part → Prop
  | [] => interpolationsFrom 0 front = []
  | .text chars :: parts => Legible (front ++ chars) parts
  | .expression inner :: parts =>
    contains ['{', '{'] (front ++ ['{']) = false ∧ closes inner = true ∧ Legible [] parts

variable {source chars front rest inner : List Char} {names : FunctionNames}
  {translate : Candidate → Except TranslationError Replacement} {parts : List Part}
  {position : Nat}

theorem readInterpolation?_expression_iff (inner rest : List Char) :
    readInterpolation? ((Part.expression inner).chars ++ rest) = some (inner, rest) ↔
      closes inner = true := by
  cases inner with
  | nil => simp [readInterpolation?, Part.chars, closes]
  | cons c cs =>
    have hbreak : breakOn? (['}'] ++ ['}']) (cs ++ ['}'] ++ '}' :: rest) = some (cs, rest) ↔ _ :=
      breakOn?_append_iff
    rw [List.singleton_append] at hbreak
    have hread : readInterpolation? ((Part.expression (c :: cs)).chars ++ rest) =
        (breakOn? ['}', '}'] (cs ++ ['}'] ++ '}' :: rest)).map
          fun found => (c :: found.1, found.2) := by
      simp [readInterpolation?, Part.chars]
    rw [hread, closes, Bool.not_eq_true', ← hbreak]
    simp

theorem exists_readInterpolation? {text : List Char} (hopen : ['{', '{'] <+: text)
    (hclose : ['}', '}'] <:+: text.drop 3) :
    ∃ inner rest, readInterpolation? text = some (inner, rest) := by
  obtain ⟨tail, rfl⟩ := hopen
  cases tail with
  | nil => simp at hclose
  | cons c cs =>
    have hfound : contains ['}', '}'] cs = true := contains_iff.mpr (by simpa using hclose)
    obtain ⟨⟨before, after⟩, hbreak⟩ := Option.isSome_iff_exists.mp hfound
    exact ⟨c :: before, after, by simp [readInterpolation?, hbreak]⟩

theorem readInterpolation?_eq_none {text : List Char} (h : ¬['{', '{'] <+: text) :
    readInterpolation? text = none := by
  unfold readInterpolation?
  split
  · exact absurd (List.prefix_append ['{', '{'] _) h
  · rfl

theorem le_start_of_mem_located {found : Interpolation × List Char}
    (h : found ∈ located position parts) : position ≤ found.1.whole.start := by
  induction parts generalizing position with
  | nil => cases h
  | cons part parts ih =>
    cases part with
    | text chars => exact Nat.le_trans (Nat.le_add_right _ _) (ih h)
    | expression inner =>
      rcases List.mem_cons.mp h with rfl | hlater
      · exact Nat.le_refl _
      · have hle := ih hlater
        omega

theorem located_eq_nil_iff (position position' : Nat) :
    located position parts = [] ↔ located position' parts = [] := by
  induction parts generalizing position position' with
  | nil => exact Iff.rfl
  | cons part parts ih =>
    cases part with
    | text chars => exact ih _ _
    | expression inner => simp [located]

theorem located_partsOf_append (position : Nat) (tail : List Char)
    (h : contains ['{', '{'] (front ++ ['{']) = false) :
    located position (partsOf (front ++ '{' :: '{' :: tail)) =
      located (position + byteLength front) (partsOf ('{' :: '{' :: tail)) := by
  induction front generalizing position with
  | nil => rfl
  | cons c front ih =>
    rw [← Bool.not_eq_true, List.cons_append, contains_cons, not_or, Bool.not_eq_true] at h
    have hnone : ¬['{', '{'] <+: c :: (front ++ '{' :: '{' :: tail) := by
      intro hopens
      refine h.1 (List.prefix_of_prefix_length_le hopens ?_ ?_)
      · exact ⟨'{' :: tail, by simp⟩
      · simp
    rw [List.cons_append, partsOf_cons (readInterpolation?_eq_none hnone), located, ih _ h.2]
    simp only [byteLength, Nat.add_zero, Nat.add_assoc]

theorem exists_located_of_contains (position : Nat) (inner rest : List Char)
    (h : contains ['{', '{'] (front ++ ['{']) = true) :
    ∃ found later, located position (partsOf (front ++ ((Part.expression inner).chars ++ rest))) =
      found :: later ∧ found.1.whole.start < position + byteLength front := by
  induction front generalizing position with
  | nil =>
    have hnone : contains ['{', '{'] ([] ++ ['{']) = false := by decide
    rw [hnone] at h
    cases h
  | cons c front ih =>
    have hpositive := Char.utf8Size_pos c
    rw [List.cons_append]
    cases hread : readInterpolation? (c :: (front ++ ((Part.expression inner).chars ++ rest))) with
    | some read =>
      obtain ⟨other, after⟩ := read
      rw [partsOf_expression hread]
      refine ⟨_, _, rfl, ?_⟩
      simp only [byteLength]
      omega
    | none =>
      have hlater : contains ['{', '{'] (front ++ ['{']) = true := by
        rw [List.cons_append, contains_cons] at h
        refine h.resolve_left fun hopens => ?_
        -- the braces of the expression close what opens here, so something would be read
        have hopen : ['{', '{'] <+: c :: (front ++ ((Part.expression inner).chars ++ rest)) :=
          hopens.trans ⟨'{' :: inner ++ ['}', '}'] ++ rest, by simp [Part.chars]⟩
        have hclose : ['}', '}'] <:+:
            (c :: (front ++ ((Part.expression inner).chars ++ rest))).drop 3 := by
          have hsplit : c :: (front ++ ((Part.expression inner).chars ++ rest)) =
              (c :: front ++ '{' :: '{' :: inner) ++ ('}' :: '}' :: rest) := by simp [Part.chars]
          have hlong : 3 ≤ (c :: front ++ '{' :: '{' :: inner).length := by
            simp only [List.length_append, List.length_cons]
            omega
          rw [hsplit, List.drop_append_of_le_length hlong]
          exact ⟨(c :: front ++ '{' :: '{' :: inner).drop 3, rest, by simp⟩
        obtain ⟨_, _, hsome⟩ := exists_readInterpolation? hopen hclose
        rw [hread] at hsome
        cases hsome
      obtain ⟨found, later, heq, hstart⟩ := ih (position + c.utf8Size) hlater
      refine ⟨found, later, ?_, ?_⟩
      · rw [partsOf_cons hread]
        exact heq
      · simp only [byteLength]
        omega

theorem located_partsOf_expression_iff :
    (located position (partsOf ((Part.expression inner).chars ++ rest))).map (·.1) =
        (located position (.expression inner :: parts)).map (·.1) ↔
      closes inner = true ∧
        (located (position + 2 + byteLength inner + 2) (partsOf rest)).map (·.1) =
          (located (position + 2 + byteLength inner + 2) parts).map (·.1) := by
  rw [← readInterpolation?_expression_iff inner rest]
  cases hread : readInterpolation? ((Part.expression inner).chars ++ rest) with
  | none =>
    have hcons : (Part.expression inner).chars ++ rest =
        '{' :: ('{' :: (inner ++ ['}', '}'] ++ rest)) := by simp [Part.chars]
    rw [hcons] at hread ⊢
    rw [partsOf_cons hread, located]
    simp only [reduceCtorEq, false_and, iff_false, located, List.map_cons]
    intro heq
    -- the first expression would start behind the place where it has to
    obtain ⟨found, hfound, hfirst⟩ := List.mem_map.mp (heq ▸ List.mem_cons_self)
    have hstart := le_start_of_mem_located hfound
    rw [hfirst] at hstart
    have hbrace := Char.utf8Size_pos '{'
    simp only [byteLength] at hstart
    omega
  | some read =>
    obtain ⟨other, after⟩ := read
    have hwhole := append_of_readInterpolation? hread
    have hinner : byteLength other = byteLength inner → other = inner ∧ after = rest := by
      intro hlength
      simp only [Part.chars, List.cons_append, List.append_assoc, List.cons.injEq, true_and,
        List.nil_append] at hwhole
      obtain ⟨rfl, htail⟩ := append_inj_of_byteLength hwhole hlength
      simpa using htail
    rw [partsOf_expression hread, located, located]
    simp only [List.map_cons, List.cons.injEq, Interpolation.mk.injEq, Span.mk.injEq, true_and,
      Option.some.injEq, Prod.mk.injEq]
    constructor
    · rintro ⟨⟨hstop, -⟩, hlater⟩
      obtain ⟨rfl, rfl⟩ := hinner (by omega)
      exact ⟨⟨rfl, rfl⟩, hlater⟩
    · rintro ⟨⟨rfl, rfl⟩, hlater⟩
      exact ⟨⟨rfl, rfl⟩, hlater⟩

theorem located_partsOf_iff (position : Nat) (front : List Char) (parts : List Part) :
    (located position (partsOf (front ++ partChars parts))).map (·.1) =
        (located (position + byteLength front) parts).map (·.1) ↔
      Legible front parts := by
  induction parts generalizing position front with
  | nil =>
    rw [partChars_nil, List.append_nil, Legible, interpolationsFrom_eq, located, List.map_nil,
      List.map_eq_nil_iff, List.map_eq_nil_iff, located_eq_nil_iff position 0]
  | cons part parts ih =>
    cases part with
    | text chars =>
      have hparts := ih position (front ++ chars)
      rw [add_byteLength_append, List.append_assoc] at hparts
      exact hparts
    | expression inner =>
      rw [partChars_cons, Legible]
      cases hopen : contains ['{', '{'] (front ++ ['{']) with
      | true =>
        obtain ⟨found, later, heq, hstart⟩ :=
          exists_located_of_contains position inner (partChars parts) hopen
        rw [heq, located]
        simp only [List.map_cons, List.cons.injEq, Bool.true_eq_false, false_and, iff_false,
          not_and]
        intro hfirst
        rw [hfirst] at hstart
        exact absurd hstart (Nat.lt_irrefl _)
      | false =>
        have hskip := located_partsOf_append position (inner ++ ['}', '}'] ++ partChars parts) hopen
        have hchars : (Part.expression inner).chars ++ partChars parts =
            '{' :: '{' :: (inner ++ ['}', '}'] ++ partChars parts) := by simp [Part.chars]
        rw [← hchars] at hskip
        rw [hskip, located_partsOf_expression_iff]
        have hparts := ih (position + byteLength front + 2 + byteLength inner + 2) []
        rw [← hparts]
        simp

variable (names translate) in
/-- The expressions of a rewritten run are found where they were written, each with the whole of its
rewritten text between its braces, and no others, just when no rewritten expression ends early, no
text runs into the braces behind it, and no text behind the last expression has braces of its own. -/
theorem rewrittenRun_extent_iff {run : Span} (hrun : Covers 0 source run chars) :
    (interpolationsFrom 0 (rewrittenRun source names translate run)).map (fun found =>
        (found, found.inner.slice (rewrittenRun source names translate run))) =
        located 0 (rewrittenParts source names translate run.start (partsOf chars)) ↔
      Legible [] (rewrittenParts source names translate run.start (partsOf chars)) := by
  obtain ⟨-, heq⟩ := rewrittenRun_eq names translate hrun
  rw [heq]
  generalize rewrittenParts source names translate run.start (partsOf chars) = parts
  have hslices : (located 0 parts).map (fun found =>
      (found.1, found.1.inner.slice (partChars parts))) = located 0 parts := by
    have hslice : ∀ found ∈ located 0 parts,
        (found.1, found.1.inner.slice (partChars parts)) = id found := by
      intro found hfound
      rw [(covers_of_mem_located hfound).slice_eq]
      rfl
    rw [List.map_congr_left hslice, List.map_id]
  rw [← located_partsOf_iff 0 [], ← interpolationsFrom_eq]
  simp only [List.nil_append, byteLength, Nat.add_zero]
  constructor
  · intro h
    have hfirst := congrArg (List.map (·.1)) h
    rw [List.map_map] at hfirst
    exact (List.map_id _).symm.trans hfirst
  · intro h
    rw [h, List.map_map]
    exact hslices

def bracedMessage : Translator :=
  ⟨.catalog [("en", [("k", "a \x7d\x7d b")])], [("t", .translate)]⟩

def bracedRun : List Char :=
  "\x7b\x7b t('k') + x \x7d\x7d".toList

theorem rewrittenRun_extent_iff_bracedMessage :
    let translate := bracedMessage.translate ⟨"en", "en", []⟩
    let run := rewrittenRun bracedRun bracedMessage.functions translate ⟨0, 16⟩
    Covers 0 bracedRun ⟨0, 16⟩ bracedRun ∧
      run = "\x7b\x7b 'a \x7d\x7d b' + x \x7d\x7d".toList ∧
      (interpolationsFrom 0 run).map (fun found => (found, found.inner.slice run)) ≠
        located 0 [.expression " 'a \x7d\x7d b' + x ".toList] := by
  have hlength : byteLength bracedRun = 16 := by decide
  have hcovers : Covers 0 bracedRun ⟨0, 16⟩ bracedRun := by
    have hwhole := Covers.whole 0 bracedRun
    rwa [Nat.zero_add, hlength] at hwhole
  have hparts : rewrittenParts bracedRun bracedMessage.functions
      (bracedMessage.translate ⟨"en", "en", []⟩) 0 (partsOf bracedRun) =
        [.expression " 'a \x7d\x7d b' + x ".toList] := by
    decide +kernel
  have hiff := rewrittenRun_extent_iff bracedMessage.functions
    (bracedMessage.translate ⟨"en", "en", []⟩) hcovers
  have hcloses : closes " 'a \x7d\x7d b' + x ".toList = false := by decide
  rw [hparts, Legible, hcloses] at hiff
  refine ⟨hcovers, ?_, fun heq => ?_⟩
  · rw [(rewrittenRun_eq _ _ hcovers).2, hparts]
    decide
  · exact absurd (hiff.mp heq).2.1 (by decide)

end TemplateMessages.Template
