import TemplateMessages.Files.Pattern
import TemplateMessages.Proofs.Files.Places

set_option autoImplicit false

/-!
# Texts of paths

The text of a path starts with a slash just when the path is absolute. A pattern that is plain up to
two stars at its end, which fill the last part, stands for the texts that start with its plain part.
-/

namespace TemplateMessages.Files

namespace Path

variable {base path : Path} {text : String}

theorem isAbsolute_iff : path.isAbsolute = true ↔ ∃ part parts, path.parts = "" :: part :: parts := by
  unfold isAbsolute
  split
  · rename_i part parts hparts
    exact iff_of_true rfl ⟨part, parts, hparts⟩
  · rename_i hother
    refine iff_of_false Bool.false_ne_true ?_
    rintro ⟨part, parts, hparts⟩
    exact hother part parts hparts

theorem head?_text (h : path.isAbsolute = true) : path.text.toList.head? = some '/' := by
  obtain ⟨part, parts, hparts⟩ := isAbsolute_iff.mp h
  rw [text, hparts, String.intercalate_cons_cons]
  simp

theorem splitSlashes_ne_nil (chars : List Char) : splitSlashes chars ≠ [] := by
  cases chars with
  | nil => exact List.cons_ne_nil _ _
  | cons c cs =>
    rw [splitSlashes]
    split
    · exact List.cons_ne_nil _ _
    · split <;> exact List.cons_ne_nil _ _

theorem parts_ofString_ne_nil (text : String) : (ofString text).parts ≠ [] := by
  unfold ofString
  rw [Ne, List.map_eq_nil_iff]
  exact splitSlashes_ne_nil text.toList

/-- A text that starts with a slash is that of an absolute path. -/
theorem isAbsolute_ofString (h : text.toList.head? = some '/') :
    (ofString text).isAbsolute = true := by
  obtain ⟨chars, hchars⟩ := List.head?_eq_some_iff.mp h
  obtain ⟨part, parts, hparts⟩ := List.exists_cons_of_ne_nil (splitSlashes_ne_nil chars)
  refine isAbsolute_iff.mpr ⟨String.ofList part, parts.map String.ofList, ?_⟩
  rw [ofString, hchars, splitSlashes, if_pos rfl, hparts]
  rfl

theorem isAbsolute_behind (h : base.isAbsolute = true) {parts : List String} (hne : parts ≠ []) :
    (⟨base.partsBeforeSlash ++ parts⟩ : Path).isAbsolute = true := by
  obtain ⟨part, rest, hparts⟩ := isAbsolute_iff.mp h
  obtain ⟨first, others, rfl⟩ := List.exists_cons_of_ne_nil hne
  obtain ⟨front, hfront⟩ : ∃ front, base.partsBeforeSlash = "" :: front := by
    unfold partsBeforeSlash
    split
    · exact ⟨(part :: rest).dropLast, by rw [hparts]; rfl⟩
    · exact ⟨part :: rest, hparts⟩
  cases front with
  | nil => exact isAbsolute_iff.mpr ⟨first, others, by rw [hfront]; rfl⟩
  | cons next front => exact isAbsolute_iff.mpr ⟨next, front ++ first :: others, by rw [hfront]; rfl⟩

theorem isAbsolute_join (h : base.isAbsolute = true) (hne : path.parts ≠ []) :
    (base.join path).isAbsolute = true := by
  unfold join
  split
  · assumption
  · exact isAbsolute_behind h hne

end Path

namespace Pattern

/-- No character of the text has a meaning of its own in a pattern. -/
def IsPlain (text : List Char) : Prop :=
  ∀ c ∈ text, c ≠ '*' ∧ c ≠ '?' ∧ c ≠ '['

instance (text : List Char) : Decidable (IsPlain text) :=
  List.decidableBAll _ text

theorem isWild_of_isPlain {text : String} (h : IsPlain text.toList) : isWild text = false := by
  unfold isWild
  rw [List.any_eq_false]
  intro c hc
  obtain ⟨hstar, hquestion, -⟩ := h c hc
  simp [hstar, hquestion]

theorem readTokens_char (position : Nat) (before : Option Char) {c : Char} (text : List Char)
    (h : c ≠ '*' ∧ c ≠ '?' ∧ c ≠ '[') :
    readTokens position before (c :: text) =
      (readTokens (position + 1) (some c) text).map (.char c :: ·) := by
  obtain ⟨hstar, hquestion, hbracket⟩ := h
  rw [readTokens]
  · simpa using hquestion
  · simp [hstar]
  · simp [hstar]
  · simp [hstar]
  · simpa using hbracket

theorem readTokens_below (position : Nat) (before : Option Char) {text : List Char}
    (h : IsPlain text) :
    readTokens position before (text ++ ['/', '*', '*']) =
      .ok (text.map .char ++ [.char '/', .anyDirectories]) := by
  induction text generalizing position before with
  | nil =>
    rw [List.nil_append, readTokens_char _ _ _ (by decide), readTokens]
    rfl
  | cons c text ih =>
    rw [List.cons_append, readTokens_char _ _ _ (h c List.mem_cons_self),
      ih _ _ fun d hd => h d (List.mem_cons_of_mem c hd)]
    rfl

theorem tokensMatch_char {c : Char} {tokens : List PatternToken} {text : List Char} :
    tokensMatch (.char c :: tokens) text = true ↔
      ∃ rest, c :: rest = text ∧ tokensMatch tokens rest = true := by
  cases text with
  | nil => simp [tokensMatch]
  | cons d rest =>
    simp only [tokensMatch, accepts, Bool.and_eq_true, decide_eq_true_eq]
    constructor
    · rintro ⟨rfl, hrest⟩
      exact ⟨rest, rfl, hrest⟩
    · rintro ⟨_, hcons, hrest⟩
      obtain ⟨rfl, rfl⟩ := List.cons.inj hcons
      exact ⟨rfl, hrest⟩

theorem tokensMatch_append {plain : List Char} {tokens : List PatternToken} {text : List Char} :
    tokensMatch (plain.map .char ++ tokens) text = true ↔
      ∃ rest, plain ++ rest = text ∧ tokensMatch tokens rest = true := by
  induction plain generalizing text with
  | nil => simp
  | cons c plain ih =>
    rw [List.map_cons, List.cons_append, tokensMatch_char]
    constructor
    · rintro ⟨inner, rfl, hinner⟩
      obtain ⟨rest, rfl, hrest⟩ := ih.mp hinner
      exact ⟨rest, rfl, hrest⟩
    · rintro ⟨rest, rfl, hrest⟩
      exact ⟨plain ++ rest, rfl, ih.mpr ⟨rest, rfl, hrest⟩⟩

@[simp] theorem tokensMatch_anyDirectories (text : List Char) :
    tokensMatch [.anyDirectories] text = true := by
  rw [tokensMatch, List.any_append, Bool.or_eq_true]
  exact Or.inr rfl

/-- A plain path with two stars behind it stands for the texts that go on from it with a slash. -/
theorem exists_isMatch_below_iff {plain text : String} (h : IsPlain plain.toList) :
    (∃ pattern, parse (plain ++ "/**") = .ok pattern ∧ pattern.isMatch text = true) ↔
      (plain ++ "/").toList <+: text.toList := by
  have hparse : parse (plain ++ "/**") =
      .ok ⟨(plain ++ "/").toList.map .char ++ [.anyDirectories]⟩ := by
    unfold parse
    rw [String.toList_append, show "/**".toList = ['/', '*', '*'] from rfl, readTokens_below _ _ h,
      String.toList_append, List.map_append, List.append_assoc]
    rfl
  constructor
  · rintro ⟨pattern, hpattern, hmatch⟩
    obtain rfl := Except.ok.inj (hparse.symm.trans hpattern)
    obtain ⟨rest, hrest, -⟩ := tokensMatch_append.mp hmatch
    exact ⟨rest, hrest⟩
  · rintro ⟨rest, hrest⟩
    exact ⟨_, hparse, tokensMatch_append.mpr ⟨rest, hrest, tokensMatch_anyDirectories rest⟩⟩

@[simp] theorem isWild_below (plain : String) : isWild (plain ++ "/**") = true := by
  unfold isWild
  rw [String.toList_append, List.any_append, Bool.or_eq_true]
  exact Or.inr rfl

end Pattern

end TemplateMessages.Files
