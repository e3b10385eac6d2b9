import TemplateMessages.Fluent.Expansion
import TemplateMessages.Proofs.Script.Reading

set_option autoImplicit false

/-!
# What the code of a selector computes

The index that the generated code finds is that of the first matching variant other than the default
one, and the default one's when no other variant matches.
-/

namespace TemplateMessages.Fluent

open TemplateMessages.Expression (quoted quotedChars)
open TemplateMessages.Number (Binary64 isNumeral_toDigits)
open TemplateMessages.Script (Names IsEquality IsOr IsExpression)

/-- The number of the key is printed so that a script reads an equal number. -/
def VariantKey.ReadsBack : VariantKey → Prop
  | .name _ => True
  | .number text => ∃ value back, Binary64.ofText? text.toList = some value ∧
      Script.run [] value.text.toList = some (.number back) ∧ back.equals value = true

/-- The names that the code of a selector uses. -/
def selectorNames (subject category : Script.Value) : Names :=
  [("s".toList, subject), ("c".toList, category)]

/-- A constant selector, what the names of the code stand for, and the keys that match it. -/
inductive Subject (scope : Scope) : Value → Names → (VariantKey → Bool) → Prop
  | number {value : Binary64} {category : Plural.Category}
      (found : scope.category value = .ok category) :
      Subject scope (.number value)
        (selectorNames (.number value) (.string category.name.toList))
        (·.matchesNumber value category)
  | text (value : String) :
      Subject scope (.text value) (selectorNames (.string value.toList) .null)
        (·.matchesText value)

def returnedIndex (default : Nat) (matching : VariantKey → Bool) : (index : Nat) →
    List Variant → Nat
  | _, [] => default
  | index, variant :: variants =>
    if index ≠ default ∧ matching variant.key = true then index
    else returnedIndex default matching (index + 1) variants

variable {scope : Scope} {value : Value} {names : Names} {matching : VariantKey → Bool}

theorem isOperand_subject : Script.IsOperand "s".toList (.name "s".toList) :=
  Script.isOperand_name (by decide) (List.all_eq_true.mp (by decide))

theorem isOperand_category : Script.IsOperand "c".toList (.name "c".toList) :=
  Script.isOperand_name (by decide) (List.all_eq_true.mp (by decide))

@[simp] theorem toList_quoted (text : String) : (quoted text).toList = quotedChars text.toList := by
  rw [quoted, String.toList_ofList]

section

variable (subject category : Script.Value)

@[simp] theorem eval_subject :
    Script.eval (selectorNames subject category) (.name "s".toList) = some subject :=
  rfl

@[simp] theorem eval_category :
    Script.eval (selectorNames subject category) (.name "c".toList) = some category :=
  rfl

@[simp] theorem lookup_infinity :
    (selectorNames subject category).lookup "Infinity".toList = none :=
  rfl

end

section

variable {left right : Script.Expr} {a b : Script.Value} {p q : Bool}

theorem eval_strictEquals (h : Script.eval names left = some a)
    (h' : Script.eval names right = some b) :
    Script.eval names (.strictEquals left right) = some (.bool (a.strictEquals b)) := by
  rw [Script.eval, h, h']
  rfl

theorem eval_or (h : Script.eval names left = some (.bool p))
    (h' : Script.eval names right = some (.bool q)) :
    Script.eval names (.or left right) = some (.bool (p || q)) := by
  rw [Script.eval, h, h']
  cases p with
  | true => rfl
  | false => rfl

end

@[simp] theorem toList_beq_toList (a b : String) : (a.toList == b.toList) = (b == a) := by
  rw [Bool.eq_iff_iff, beq_iff_eq, beq_iff_eq, String.toList_inj, eq_comm]

theorem isOr_conditionCode {key : VariantKey} (subject : Subject scope value names matching)
    (hkey : key.ReadsBack) :
    ∃ expr result, IsOr key.conditionCode.toList expr ∧
      Script.eval names expr = some result ∧ result.truthy = matching key := by
  cases key with
  | number text =>
    obtain ⟨number, back, hnumber, hrun, hback⟩ := hkey
    obtain ⟨expr, hexpr, heval⟩ := Script.isOperand_number (Binary64.ne_nan_of_equals hback)
    have hvalue : Script.eval [] expr = some (.number back) := by
      rw [← hrun]
      exact (Script.run_of_isExpression [] hexpr.isEquality.isOr.isExpression).symm
    have hcode : (VariantKey.number text).conditionCode.toList =
        "s".toList ++ ' ' :: ("===".toList ++ ' ' :: number.text.toList) := by
      rw [VariantKey.conditionCode, hnumber, String.toList_append]
      rfl
    rw [hcode]
    cases subject with
    | @number value category found =>
      refine ⟨_, _, (isOperand_subject.strictEquals hexpr).isOr,
        eval_strictEquals (eval_subject _ _) ((heval _ (lookup_infinity _ _)).trans hvalue), ?_⟩
      change value.equals back = (Binary64.ofText? text.toList).any (·.equals value)
      rw [hnumber, Binary64.equals_of_equals hback]
      rfl
    | text value =>
      exact ⟨_, _, (isOperand_subject.strictEquals hexpr).isOr,
        eval_strictEquals (eval_subject _ _) ((heval _ (lookup_infinity _ _)).trans hvalue), rfl⟩
  | name id =>
    have hcode : (VariantKey.name id).conditionCode.toList =
        ("s".toList ++ ' ' :: ("===".toList ++ ' ' :: quotedChars id.toList)) ++
          ' ' :: ("||".toList ++ ' ' ::
            ("c".toList ++ ' ' :: ("===".toList ++ ' ' :: quotedChars id.toList))) := by
      simp [VariantKey.conditionCode]
    have hid := Script.isOperand_string id.toList
    have hread := (isOperand_subject.strictEquals hid).or (isOperand_category.strictEquals hid)
    rw [hcode]
    cases subject with
    | @number value category found =>
      refine ⟨_, _, hread, eval_or (eval_strictEquals (eval_subject _ _) rfl)
        (eval_strictEquals (eval_category _ _) rfl), ?_⟩
      exact toList_beq_toList category.name id
    | text value =>
      refine ⟨_, _, hread, eval_or (eval_strictEquals (eval_subject _ _) rfl)
        (eval_strictEquals (eval_category _ _) rfl), ?_⟩
      change (value.toList == id.toList || false) = (id == value)
      simp

theorem isExpression_indexCode (subject : Subject scope value names matching) (default : Nat)
    {variants : List Variant} (hkeys : ∀ variant ∈ variants, variant.key.ReadsBack) (index : Nat) :
    ∃ expr, IsExpression (indexCode default index variants).toList expr ∧
      Script.eval names expr =
        some (.number (.ofNat (returnedIndex default matching index variants))) := by
  have hnumeral (n : Nat) : IsExpression (toString n).toList (.numeral (Nat.toDigits 10 n)) ∧
      Script.eval names (.numeral (Nat.toDigits 10 n)) = some (.number (.ofNat n)) := by
    rw [Nat.toString_eq_ofList_toDigits, String.toList_ofList, Script.eval,
      Binary64.ofText?_toDigits]
    exact ⟨(Script.isOperand_numeral (isNumeral_toDigits n)).isEquality.isOr.isExpression, rfl⟩
  induction variants generalizing index with
  | nil => exact ⟨_, hnumeral default⟩
  | cons variant variants ih =>
    obtain ⟨rest, hrest, hvalue⟩ := ih (fun later hlater =>
      hkeys later (List.mem_cons_of_mem variant hlater)) (index + 1)
    by_cases hdefault : index = default
    · rw [indexCode, returnedIndex, if_pos hdefault, if_neg (by simp [hdefault])]
      exact ⟨rest, hrest, hvalue⟩
    · obtain ⟨test, result, htest, heval, htruthy⟩ :=
        isOr_conditionCode subject (hkeys variant List.mem_cons_self)
      obtain ⟨hindex, hindexValue⟩ := hnumeral index
      have hcode : (indexCode default index (variant :: variants)).toList =
          variant.key.conditionCode.toList ++ ' ' :: (['?'] ++ ' ' :: ((toString index).toList ++
            ' ' :: ([':'] ++ ' ' :: (indexCode default (index + 1) variants).toList))) := by
        rw [indexCode, if_neg hdefault]
        simp
      refine ⟨_, hcode ▸ htest.conditional hindex hrest, ?_⟩
      rw [Script.eval, heval, returnedIndex]
      by_cases hmatch : matching variant.key = true
      · rw [if_pos ⟨hdefault, hmatch⟩, ← hindexValue]
        simp [htruthy, hmatch]
      · rw [if_neg (by simp [hmatch]), ← hvalue]
        simp [htruthy, hmatch]

theorem run_indexCode (subject : Subject scope value names matching) (default : Nat)
    {variants : List Variant} (hkeys : ∀ variant ∈ variants, variant.key.ReadsBack) :
    Script.run names (indexCode default 0 variants).toList =
      some (.number (.ofNat (returnedIndex default matching 0 variants))) := by
  obtain ⟨expr, hexpr, hvalue⟩ := isExpression_indexCode subject default hkeys 0
  rw [Script.run_of_isExpression names hexpr, hvalue]

end TemplateMessages.Fluent
