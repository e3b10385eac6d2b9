import TemplateMessages.Proofs.Fluent.ValueCode
import TemplateMessages.Proofs.Script.SumReading

set_option autoImplicit false

/-!
# Texts of values at run time

A value stands for a text when it is a constant that prints as the text, or code that has the text as
its value. What values in a row stand for is what they stand for when they are joined into one.
-/

namespace TemplateMessages.Fluent

open TemplateMessages.Expression (Literal quoted quotedChars isIdentifier)
open TemplateMessages.Script.Sum (Names IsOperand IsExpression isPrimary_name isOperand_quoted
  isText_of_isOperand run run_of_isExpression IsReserved)

variable {names : Names} {text : String}

/-- Code that becomes an operand without parentheses is one operand. -/
def Value.Stands (names : Names) (text : String) : Value → Prop
  | .text value => value = text
  | .number value => value.text = text
  | .code source => IsExpression names source.toList (.string text) ∧
      (source.toList.all isPlainChar = true → IsOperand names source.toList (.string text))
  | .formatted .. => False

/-- Each of the values stands for the text at its place. -/
def StandFor (names : Names) : List Value → List String → Prop :=
  List.Forall₂ fun value text => value.Stands names text

namespace Value

theorem Stands.constantText? {value : Value} {constant : String} (h : value.Stands names text)
    (hconstant : value.constantText? = some constant) : constant = text := by
  cases value with
  | text value => exact (Option.some.inj hconstant).symm.trans h
  | number value => exact (Option.some.inj hconstant).symm.trans h
  | code source => cases hconstant
  | formatted source argument options => cases h

theorem Stands.operandCode {value : Value} (h : value.Stands names text) :
    IsOperand names value.operandCode.toList (.string text) := by
  cases value with
  | text value =>
    obtain rfl : value = text := h
    exact isOperand_quoted names value
  | number value =>
    obtain rfl : value.text = text := h
    exact isOperand_quoted names value.text
  | code source =>
    obtain ⟨hexpression, hoperand⟩ := h
    change IsOperand names (parenthesize source).toList (.string text)
    unfold parenthesize
    by_cases hplain : source.toList.all isPlainChar = true
    · rw [if_pos hplain]
      exact hoperand hplain
    · have hcode : ("(" ++ source ++ ")").toList = '(' :: (source.toList ++ [')']) := by simp
      rw [if_neg hplain, hcode]
      exact hexpression.parentheses.isOperand
  | formatted source argument options => cases h

theorem Stands.resultCode {value : Value} (h : value.Stands names text) :
    run names (resultCode value) = some (.string text) := by
  apply run_of_isExpression
  unfold Fluent.resultCode
  split
  · rename_i constant hconstant
    obtain rfl := h.constantText? hconstant
    exact (isOperand_quoted names constant).isExpression
  · cases value with
    | text value => exact h.operandCode.isExpression
    | number value => exact h.operandCode.isExpression
    | code source => exact h.1
    | formatted source argument options => cases h

theorem stands_name {name : String} (hname : isIdentifier name.toList = true)
    (hreserved : ¬IsReserved name.toList) (h : names name.toList = some (.string text)) :
    (Value.code name).Stands names text := by
  have hoperand := (isPrimary_name hname hreserved h).isOperand
  exact ⟨hoperand.isExpression, fun _ => hoperand⟩

end Value

theorem standFor_joinConstants {parts : List Value} {texts : List String}
    (h : StandFor names parts texts) :
    ∃ joined, StandFor names (Value.joinConstants parts) joined ∧
      String.join joined = String.join texts := by
  induction h with
  | nil => exact ⟨[], .nil, rfl⟩
  | @cons value text parts texts hvalue _ ih =>
    obtain ⟨joined, hjoined, heq⟩ := ih
    rw [Value.joinConstants]
    split
    · exact ⟨text :: joined, .cons hvalue hjoined, by rw [String.join_cons, String.join_cons, heq]⟩
    · rename_i front back values hconstant hback
      obtain rfl := hvalue.constantText? hconstant
      rw [hback] at hjoined
      cases hjoined with
      | cons hfirst hrest =>
        obtain rfl := hfirst
        refine ⟨_ :: _, .cons rfl hrest, ?_⟩
        rw [String.join_cons, String.join_cons, ← heq, String.join_cons, String.append_assoc]
    · rename_i front hconstant _
      obtain rfl := hvalue.constantText? hconstant
      exact ⟨front :: joined, .cons rfl hjoined, by rw [String.join_cons, String.join_cons, heq]⟩

theorem standFor_filter {parts : List Value} {texts : List String}
    (h : StandFor names parts texts) :
    ∃ kept, StandFor names (parts.filter (!·.isEmptyText)) kept ∧
      String.join kept = String.join texts := by
  induction h with
  | nil => exact ⟨[], .nil, rfl⟩
  | @cons value text parts texts hvalue _ ih =>
    obtain ⟨kept, hkept, heq⟩ := ih
    rw [List.filter_cons]
    split
    · exact ⟨text :: kept, .cons hvalue hkept, by rw [String.join_cons, String.join_cons, heq]⟩
    · rename_i hempty
      have htext : text = "" := by
        cases value with
        | text value =>
          obtain rfl := hvalue
          simpa [Value.isEmptyText] using hempty
        | _ => exact absurd rfl hempty
      refine ⟨kept, hkept, ?_⟩
      rw [String.join_cons, htext, String.empty_append, heq]

theorem isText_sumCode {parts : List Value} {texts : List String} (h : StandFor names parts texts) :
    Script.Sum.IsText names (Value.sumCode parts).toList (String.join texts) := by
  have hoperands {values : List Value} {added : List String} (hvalues : StandFor names values added) :
      List.Forall₂ (fun operand added => ∃ value, IsOperand names operand.toList value ∧
        value.primitiveText? = some added) (values.map Value.operandCode) added := by
    rw [List.forall₂_map_left_iff]
    exact hvalues.imp fun value added hvalue => ⟨_, hvalue.operandCode, rfl⟩
  unfold Value.sumCode
  split
  · cases h with
    | cons hfirst hrest =>
      obtain rfl := hfirst
      rw [List.map_cons, String.join_cons]
      exact (isText_of_isOperand (isOperand_quoted names _)).intercalate (hoperands hrest)
  · have hstart := (isText_of_isOperand (isOperand_quoted names "")).intercalate (hoperands h)
    rwa [String.empty_append] at hstart

theorem not_all_isPlainChar_sumCode {parts : List Value} (hlength : 2 ≤ parts.length) :
    ¬(Value.sumCode parts).toList.all isPlainChar = true := by
  obtain ⟨front, back, _, heq⟩ := sumCode_eq hlength
  intro hplain
  have hquote : '\x27' ∈ (Value.sumCode parts).toList := by
    rw [heq]
    simp [quoted, quotedChars]
  have hchar := List.all_eq_true.mp hplain _ hquote
  revert hchar
  decide

theorem stands_concat {parts : List Value} {texts : List String} (h : StandFor names parts texts) :
    (Value.concat parts).Stands names (String.join texts) := by
  obtain ⟨joined, hjoined, hjoin⟩ := standFor_joinConstants h
  obtain ⟨kept, hkept, hkeep⟩ := standFor_filter hjoined
  rw [← hjoin, ← hkeep]
  unfold Value.concat
  generalize (Value.joinConstants parts).filter (!·.isEmptyText) = values at hkept ⊢
  match values, hkept with
  | [], .nil => exact String.join_nil.symm
  | [value], .cons hvalue .nil =>
    rw [String.join_cons, String.join_nil, String.append_empty]
    exact hvalue
  | first :: second :: values, hkept =>
    have hlength : 2 ≤ (first :: second :: values).length := by simp
    have hsum := isText_sumCode hkept
    exact ⟨hsum.isTest.isExpression, fun hplain => absurd hplain (not_all_isPlainChar_sumCode hlength)⟩

end TemplateMessages.Fluent
