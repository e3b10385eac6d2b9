import Mathlib.Data.List.TakeWhile
import TemplateMessages.Expression.Reader
import TemplateMessages.Proofs.Text.Characters

set_option autoImplicit false

/-!
# Plain names as expressions

Read as an expression, a plain name is one of the constants `true`, `false`, `null` and `undefined`,
or no constant. It is never a string or a number.
-/

namespace TemplateMessages.Expression

open TemplateMessages.Number (Binary64)
open TemplateMessages.Text (Rest Shorter firstBehind? isBlank skipBlanks toNat_of_isDigit)

variable {c : Char} {cs : List Char}

theorem toNat_of_isIdentifierStart (h : isIdentifierStart c = true) :
    c.toNat = 36 ∨ c.toNat = 95 ∨ 65 ≤ c.toNat ∧ c.toNat ≤ 90 ∨ 97 ≤ c.toNat ∧ c.toNat ≤ 122 := by
  rw [isIdentifierStart] at h
  delta Char.isAlpha Char.isUpper Char.isLower at h
  simp [UInt32.le_iff_toNat_le] at h
  rcases h with ((h | h) | rfl) | rfl
  · exact Or.inr (Or.inr (Or.inl h))
  · exact Or.inr (Or.inr (Or.inr h))
  · exact Or.inr (Or.inl rfl)
  · exact Or.inl rfl

theorem isBlank_of_isIdentifierStart (h : isIdentifierStart c = true) : isBlank c = false := by
  have hcode := toNat_of_isIdentifierStart h
  simp only [isBlank, Bool.or_eq_false_iff, Bool.and_eq_false_iff, decide_eq_false_iff_not,
    beq_eq_false_iff_ne]
  omega

theorem isDigit_eq_false_of_isIdentifierStart (h : isIdentifierStart c = true) : c.isDigit = false := by
  cases hdigit : c.isDigit with
  | false => rfl
  | true =>
    have hcode := toNat_of_isIdentifierStart h
    have hbounds := toNat_of_isDigit hdigit
    omega

theorem isIdentifierStart_or_isDigit (h : isIdentifierChar c = true) :
    isIdentifierStart c = true ∨ c.isDigit = true := by
  cases hstart : isIdentifierStart c with
  | true => exact Or.inl rfl
  | false =>
    simp only [isIdentifierStart, isIdentifierChar, Char.isAlphanum, Bool.or_eq_false_iff,
      Bool.or_eq_true] at hstart h
    simpa [hstart] using h

theorem ne_of_isIdentifierStart (h : isIdentifierStart c = true) {d : Char}
    (hd : isIdentifierStart d = false) : c ≠ d := by
  rintro rfl
  exact Bool.false_ne_true (hd.symm.trans h)

/-- A word, and neither a string nor a number. -/
def Literal.IsWord : Literal → Prop
  | string _ => False
  | number _ => False
  | _ => True

theorem isWord_of_readPrimary (hstart : isIdentifierStart c = true)
    (hcs : ∀ d ∈ cs, isIdentifierChar d = true) {value : Literal} {rest : Shorter (c :: cs)}
    (h : readPrimary c cs = .ok (value, rest)) : value.IsWord ∧ rest.val = [] := by
  have hdrop : (skipName c cs).val = [] := List.dropWhile_eq_nil_iff.mpr hcs
  have hquotes : ¬(c = '\x27' ∨ c = '\x22' ∨ c = '\x60') := by
    rintro (rfl | rfl | rfl) <;> revert hstart <;> decide
  have hnumber : ¬(c.isDigit = true ∨ c = '.') := by
    rw [isDigit_eq_false_of_isIdentifierStart hstart]
    rintro (h | rfl)
    · cases h
    · revert hstart
      decide
  rw [readPrimary.eq_def, if_neg hquotes, if_neg hnumber,
    if_neg (ne_of_isIdentifierStart hstart (by decide)),
    if_neg (ne_of_isIdentifierStart hstart (by decide)),
    if_neg (ne_of_isIdentifierStart hstart (by decide)), if_pos hstart] at h
  split at h
  · cases h
    exact ⟨trivial, hdrop⟩
  · cases h
    exact ⟨trivial, hdrop⟩
  · cases h
    exact ⟨trivial, hdrop⟩
  · cases h
    exact ⟨trivial, hdrop⟩
  · cases h

theorem isWord_of_evaluate {name : String} (hname : isIdentifier name.toList = true)
    {value : Literal} (h : evaluate name = .ok value) : value.IsWord := by
  rw [evaluate] at h
  match heq : name.toList with
  | [] =>
    rw [heq] at hname
    cases hname
  | c :: cs =>
    rw [heq] at hname h
    obtain ⟨hstart, hcs⟩ := Bool.and_eq_true_iff.mp hname
    have hfirst : firstBehind? isBlank (c :: cs) = some (c, .tail c cs) := by
      rw [firstBehind?, isBlank_of_isIdentifierStart hstart]
      rfl
    have hsign : ¬(c = '-' ∨ c = '+') := by
      rintro (rfl | rfl) <;> revert hstart <;> decide
    unfold evaluateChars at h
    rw [readSum.eq_def, readTerm.eq_def, hfirst] at h
    dsimp only [Shorter.tail] at h
    rw [if_neg hsign] at h
    cases hread : readPrimary c cs with
    | error stop =>
      rw [hread] at h
      cases h
    | ok result =>
      obtain ⟨word, rest⟩ := result
      obtain ⟨hword, hrest⟩ := isWord_of_readPrimary hstart (List.all_eq_true.mp hcs) hread
      obtain ⟨rest, hlength⟩ := rest
      obtain rfl : rest = [] := hrest
      rw [hread] at h
      dsimp only [Shorter.within] at h
      rw [readSumFrom.eq_def] at h
      obtain rfl : word = value := Except.ok.inj h
      exact hword

end TemplateMessages.Expression
