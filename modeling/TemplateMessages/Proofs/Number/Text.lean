import Mathlib.Data.List.TakeWhile
import TemplateMessages.Number.Decimal

set_option autoImplicit false

/-!
# The text of a number

The text of a number is `NaN`, or a numeral or `Infinity` with perhaps a minus sign in front. A
numeral is made of digits with at most points among them, and starts with a digit.
-/

namespace TemplateMessages.Number

/-- A digit, then digits and points. -/
def IsNumeral (text : List Char) : Prop :=
  ∃ c cs, text = c :: cs ∧ c.isDigit = true ∧ ∀ d ∈ cs, d.isDigit = true ∨ d = '.'

theorem isNumeral_of_digits {digits rest : List Char} (hne : digits ≠ [])
    (hdigits : ∀ d ∈ digits, d.isDigit = true) (hrest : ∀ d ∈ rest, d.isDigit = true ∨ d = '.') :
    IsNumeral (digits ++ rest) := by
  cases digits with
  | nil => exact absurd rfl hne
  | cons c cs =>
    refine ⟨c, cs ++ rest, rfl, hdigits c List.mem_cons_self, ?_⟩
    intro d hd
    rcases List.mem_append.mp hd with hfront | hback
    · exact Or.inl (hdigits d (List.mem_cons_of_mem c hfront))
    · exact hrest d hback

theorem isDigit_of_mem_toDigits {n : Nat} {c : Char} (h : c ∈ Nat.toDigits 10 n) :
    c.isDigit = true :=
  Nat.isDigit_of_mem_toDigits (by omega) (by omega) h

theorem isNumeral_toDigits (n : Nat) : IsNumeral (Nat.toDigits 10 n) := by
  have h : IsNumeral (Nat.toDigits 10 n ++ []) :=
    isNumeral_of_digits Nat.toDigits_ne_nil (fun _ => isDigit_of_mem_toDigits) (by simp)
  rwa [List.append_nil] at h

theorem isNumeral_positional (decimal : Decimal) :
    IsNumeral (Decimal.positional decimal).toList := by
  have zero {d : Char} {n : Nat} (h : d ∈ List.replicate n '0') : d.isDigit = true := by
    rw [List.eq_of_mem_replicate h]
    rfl
  unfold Decimal.positional
  dsimp only
  split
  · rw [String.toList_ofList]
    exact isNumeral_of_digits Nat.toDigits_ne_nil (fun _ => isDigit_of_mem_toDigits)
      (fun d hd => Or.inl (zero hd))
  · rename_i hnegative
    generalize hplaces : (-decimal.exponent).toNat = places
    generalize hpadded : List.replicate (places + 1 - (Nat.toDigits 10 decimal.digits).length) '0' ++
      Nat.toDigits 10 decimal.digits = padded
    have hdigit : ∀ d ∈ padded, d.isDigit = true := by
      intro d hd
      rw [← hpadded] at hd
      rcases List.mem_append.mp hd with hzero | hdigit
      · exact zero hzero
      · exact isDigit_of_mem_toDigits hdigit
    have hlength : places < padded.length := by
      rw [← hpadded, List.length_append, List.length_replicate]
      omega
    rw [String.toList_ofList]
    apply isNumeral_of_digits
    · rw [ne_eq, List.take_eq_nil_iff, not_or]
      refine ⟨by omega, ?_⟩
      rintro rfl
      simp at hlength
    · intro d hd
      exact hdigit d (List.mem_of_mem_take hd)
    · intro d hd
      rcases List.mem_cons.mp hd with rfl | hback
      · exact Or.inr rfl
      · exact Or.inl (hdigit d (List.mem_of_mem_drop hback))

theorem isNumeral_unsigned (whole : Bool) (n : Nat) (decimal : Decimal) :
    IsNumeral (if whole = true then toString n else decimal.positional).toList := by
  cases whole with
  | true =>
    rw [if_pos rfl, Nat.toString_eq_ofList_toDigits, String.toList_ofList]
    exact isNumeral_toDigits n
  | false => exact isNumeral_positional decimal

/-- The absolute value in text is a numeral or `Infinity`. -/
def IsMagnitude (text : List Char) : Prop :=
  text = "Infinity".toList ∨ IsNumeral text

namespace Binary64

theorem equals_iff (a b : Binary64) :
    a.equals b = true ↔
      a ≠ nan ∧ b ≠ nan ∧ (a = b ∨ a.isZero = true ∧ b.isZero = true) := by
  cases a <;> cases b <;> simp [equals]

theorem ne_nan_of_equals {a b : Binary64} (h : a.equals b = true) : b ≠ nan :=
  ((equals_iff a b).mp h).2.1

theorem equals_of_equals {a b : Binary64} (h : a.equals b = true) (other : Binary64) :
    other.equals a = b.equals other := by
  obtain ⟨ha, hb, heq⟩ := (equals_iff a b).mp h
  rw [Bool.eq_iff_iff, equals_iff, equals_iff]
  rcases heq with rfl | ⟨hzero, hzero'⟩
  · constructor
    · rintro ⟨hother, _, heq⟩
      exact ⟨ha, hother, heq.imp Eq.symm And.symm⟩
    · rintro ⟨_, hother, heq⟩
      exact ⟨hother, ha, heq.imp Eq.symm And.symm⟩
  · constructor
    · rintro ⟨hother, _, rfl | ⟨hz, _⟩⟩
      · exact ⟨hb, hother, Or.inr ⟨hzero', hzero⟩⟩
      · exact ⟨hb, hother, Or.inr ⟨hzero', hz⟩⟩
    · rintro ⟨_, hother, rfl | ⟨_, hz⟩⟩
      · exact ⟨hother, ha, Or.inr ⟨hzero', hzero⟩⟩
      · exact ⟨hother, ha, Or.inr ⟨hz, hzero⟩⟩

theorem text_finite {negative : Bool} {significand scale : Nat}
    (h : (finite negative significand scale).isZero = false) :
    ∃ unsigned : String, IsNumeral unsigned.toList ∧
      (finite negative significand scale).text =
        if negative = true then "-" ++ unsigned else unsigned := by
  rw [text]
  dsimp only
  rw [h, if_neg Bool.false_ne_true]
  refine ⟨_, ?_, rfl⟩
  exact isNumeral_unsigned _ _ _

theorem text_shape {value : Binary64} (h : value ≠ nan) :
    ∃ body, IsMagnitude body ∧ (value.text.toList = body ∨ value.text.toList = '-' :: body) := by
  cases value with
  | nan => exact absurd rfl h
  | infinity negative =>
    refine ⟨"Infinity".toList, Or.inl rfl, ?_⟩
    cases negative with
    | true => exact Or.inr rfl
    | false => exact Or.inl rfl
  | finite negative significand scale =>
    cases hzero : (finite negative significand scale).isZero with
    | true =>
      refine ⟨['0'], Or.inr ⟨'0', [], rfl, rfl, by simp⟩, Or.inl ?_⟩
      rw [text]
      dsimp only
      rw [hzero, if_pos rfl]
      rfl
    | false =>
      obtain ⟨unsigned, hunsigned, htext⟩ := text_finite hzero
      refine ⟨unsigned.toList, Or.inr hunsigned, ?_⟩
      rw [htext]
      cases negative with
      | true =>
        right
        rw [if_pos rfl, String.toList_append]
        rfl
      | false => exact Or.inl rfl

@[simp] theorem ofDecimal_whole (n : Nat) : ofDecimal false n 0 = ofNat n := by
  unfold ofDecimal ofNat
  by_cases hzero : n = 0
  · subst hzero
    rw [if_pos rfl, ofRatio, Nat.zero_mul]
    rfl
  · rw [if_neg hzero, if_neg (by decide), if_pos (by decide)]
    have hone : n * Nat.pow 10 (0 : Int).toNat = n := Nat.mul_one n
    rw [hone]

@[simp] theorem ofText?_toDigits (n : Nat) : ofText? (Nat.toDigits 10 n) = some (ofNat n) := by
  obtain ⟨c, cs, hdigits, hc, _⟩ := isNumeral_toDigits n
  have hall : ∀ d ∈ Nat.toDigits 10 n, d.isDigit = true := fun _ => isDigit_of_mem_toDigits
  have hdecimal : Decimal.ofText? (Nat.toDigits 10 n) = some ⟨n, 0⟩ := by
    have htake : (Nat.toDigits 10 n).takeWhile Char.isDigit = Nat.toDigits 10 n :=
      List.takeWhile_eq_self_iff.mpr hall
    have hdrop : (Nat.toDigits 10 n).dropWhile Char.isDigit = [] :=
      List.dropWhile_eq_nil_iff.mpr hall
    have hvalue : Decimal.digitsValue (Nat.toDigits 10 n) = n := by
      rw [Decimal.digitsValue, ← Nat.ofDigitChars_eq_foldl, Nat.ofDigitChars_ten_toDigits]
    have hne : (Nat.toDigits 10 n).isEmpty = false := by
      rw [hdigits]
      rfl
    simp [Decimal.ofText?, htake, hdrop, hvalue, hne]
  have hunsigned : ofText? (Nat.toDigits 10 n) =
      (Decimal.ofText? (Nat.toDigits 10 n)).map fun d => ofDecimal false d.digits d.exponent := by
    rw [hdigits, ofText?.eq_def]
    split
    · rename_i heq
      obtain rfl := (List.cons.inj heq).1
      exact absurd hc (by decide)
    · rename_i heq
      obtain rfl := (List.cons.inj heq).1
      exact absurd hc (by decide)
    · rfl
  rw [hunsigned, hdecimal, Option.map_some]
  exact congrArg some (ofDecimal_whole n)

end Binary64

end TemplateMessages.Number
