import TemplateMessages.Catalog.Template
import TemplateMessages.Proofs.Script.SumReading

set_option autoImplicit false

/-!
# Messages filled in at run time

The function that a message with placeholders becomes returns, for a record, the text that the
message has when the values of the record are put in at once.
-/

namespace TemplateMessages.Catalog

open TemplateMessages.Expression (Literal quoted)
open TemplateMessages.Script.Sum

def IsPrintable : Literal → Prop
  | .string _ => True
  | .bool _ => True
  | .number _ => True
  | _ => False

/-- The record has a string, a boolean or a number for every placeholder. -/
def Provides (entries : List (String × Literal)) (parts : List Part) : Prop :=
  ∀ name, .placeholder name ∈ parts →
    ∃ value, Table.get? entries (String.ofList name) = some value ∧ IsPrintable value

def Part.filled (entries : List (String × Literal)) : Part → String
  | text chars => String.ofList chars
  | placeholder name => (Table.get? entries (String.ofList name)).elim "" Literal.text

/-- The parts in a row, with the values as they are. -/
def filled (entries : List (String × Literal)) (parts : List Part) : String :=
  String.join (parts.map (Part.filled entries))

section

variable {entries : List (String × Literal)} {parts : List Part} {part : Part}

theorem Provides.tail (h : Provides entries (part :: parts)) : Provides entries parts :=
  fun name hname => h name (.tail _ hname)

theorem primitiveText?_of_isPrintable {value : Literal} (h : IsPrintable value) :
    value.primitiveText? = some value.text := by
  cases value with
  | string text => rfl
  | bool value => rfl
  | number value => rfl
  | _ => cases h

theorem substitute_eq_filled (h : Provides entries parts) (key : String) :
    substitute parts key (.object entries) = .ok (filled entries parts) := by
  induction parts with
  | nil => rfl
  | cons part parts ih =>
    have hrest := ih h.tail
    unfold filled
    rw [List.map_cons, String.join_cons]
    cases part with
    | text chars =>
      rw [substitute, hrest]
      rfl
    | placeholder name =>
      obtain ⟨value, hget, hprintable⟩ := h name List.mem_cons_self
      have hfilled : (Part.placeholder name).filled entries = value.text := by
        rw [Part.filled, hget]
        rfl
      rw [substitute, Literal.get?, hget, hrest, hfilled]
      cases value with
      | string text => rfl
      | bool value => rfl
      | number value => rfl
      | _ => cases hprintable

def functionCode (parts : List Part) : String :=
  "(function(p)\x7breturn " ++ " + ".intercalate (operands parts) ++ ";\x7d)"

theorem runtimeCode_eq (parts : List Part) (params : String) :
    runtimeCode parts params = functionCode parts ++ "(" ++ params ++ ")" := by
  unfold runtimeCode functionCode
  generalize " + ".intercalate (operands parts) = body
  apply String.toList_inj.mp
  simp only [String.toList_append, List.append_assoc]
  rfl

def recordNames (entries : List (String × Literal)) : Names :=
  fun name => if name = ['p'] then some (.object entries) else none

theorem isOperand_entry {name : String} {value : Literal}
    (h : Table.get? entries name = some value) :
    IsOperand (recordNames entries) ("p[" ++ quoted name ++ "]").toList value := by
  have hrecord : IsPrimary (recordNames entries) ['p'] (.object entries) :=
    isPrimary_name (by decide) (by decide) (if_pos rfl)
  have hentry := hrecord.entry (isOperand_quoted _ name).isExpression h
  rw [String.toList_append, String.toList_append, List.append_assoc]
  exact hentry

theorem isOperand_part (h : Provides entries [part]) :
    ∃ value, IsOperand (recordNames entries) part.operand.toList value ∧
      value.primitiveText? = some (part.filled entries) := by
  cases part with
  | text chars => exact ⟨_, isOperand_quoted _ (String.ofList chars), rfl⟩
  | placeholder name =>
    obtain ⟨value, hget, hprintable⟩ := h name List.mem_cons_self
    have hentry := isOperand_entry hget
    have htest : IsTest (recordNames entries) _ (.bool false) :=
      hentry.isNull (by rintro rfl; cases hprintable) (by rintro rfl; cases hprintable)
    have hcode := htest.conditional (isOperand_quoted _ "").isExpression hentry.isExpression
    have hwhole : (Part.placeholder name).operand.toList =
        '(' :: (("p[" ++ quoted (String.ofList name) ++ "]").toList ++ " == null".toList ++
          " ? ".toList ++ (quoted "").toList ++ " : ".toList ++
          ("p[" ++ quoted (String.ofList name) ++ "]").toList ++ [')']) := by
      have hempty : quoted "" = "''" := by decide
      rw [Part.operand, hempty]
      simp
    refine ⟨value, ?_, ?_⟩
    · rw [hwhole]
      exact hcode.parentheses.isOperand
    · rw [Part.filled, hget]
      exact primitiveText?_of_isPrintable hprintable

theorem isText_operands (h : Provides entries parts) :
    IsText (recordNames entries) (" + ".intercalate (operands parts)).toList
      (filled entries parts) := by
  have hoperands (rest : List Part) (hrest : rest ⊆ parts) :
      List.Forall₂ (fun operand added => ∃ value, IsOperand (recordNames entries) operand.toList value ∧
        value.primitiveText? = some added) (rest.map Part.operand)
          (rest.map (Part.filled entries)) := by
    rw [List.forall₂_map_left_iff, List.forall₂_map_right_iff, List.forall₂_same]
    intro part hpart
    apply isOperand_part
    intro name hname
    rw [← List.mem_singleton.mp hname] at hpart
    exact h name (hrest hpart)
  unfold operands filled
  split
  · rename_i chars part parts
    have hfirst := isText_of_isOperand (isOperand_quoted (recordNames entries) (String.ofList chars))
    rw [List.map_cons, String.join_cons]
    exact hfirst.intercalate (hoperands (part :: parts) (List.subset_cons_self _ _))
  · have hstart := (isText_of_isOperand (isOperand_quoted (recordNames entries) "")).intercalate
      (hoperands parts (List.Subset.refl _))
    rwa [String.empty_append] at hstart

end

/-- What is put in at once is what the function returns. -/
theorem substitute_eq_call (message key params : String) (entries : List (String × Literal))
    (h : Provides entries (parts message.toList)) :
    ∃ text, substitute (parts message.toList) key (.object entries) = .ok text ∧
      text = filled entries (parts message.toList) ∧
      runtimeCode (parts message.toList) params =
        functionCode (parts message.toList) ++ "(" ++ params ++ ")" ∧
      call (functionCode (parts message.toList)) (.object entries) = some (.string text) :=
  ⟨_, substitute_eq_filled h key, rfl, runtimeCode_eq _ params,
    call_of_isExpression (isText_operands h).isTest.isExpression⟩

def bracesMessage : String :=
  "\x7bwho\x7d's \\ \x7b \x7bn\x7d\x7bok\x7d"

def bracesRecord : List (String × Literal) :=
  [("who", .string "\x7bn\x7d"), ("n", .number (.ofNat 5)), ("ok", .bool true)]

theorem substitute_eq_call_braces :
    Provides bracesRecord (parts bracesMessage.toList) ∧
      substitute (parts bracesMessage.toList) "key" (.object bracesRecord) =
        .ok "\x7bn\x7d's \\ \x7b 5true" ∧
      call (functionCode (parts bracesMessage.toList)) (.object bracesRecord) =
        some (.string "\x7bn\x7d's \\ \x7b 5true") := by
  have hparts : parts bracesMessage.toList =
      [.placeholder "who".toList, .text "'s \\ \x7b ".toList, .placeholder "n".toList,
        .placeholder "ok".toList] := by
    decide +kernel
  have hprovides : Provides bracesRecord (parts bracesMessage.toList) := by
    intro name hname
    rw [hparts] at hname
    simp only [List.mem_cons, Part.placeholder.injEq, reduceCtorEq, List.not_mem_nil, or_false,
      false_or] at hname
    rcases hname with rfl | rfl | rfl
    · exact ⟨.string "\x7bn\x7d", rfl, trivial⟩
    · exact ⟨.number (.ofNat 5), rfl, trivial⟩
    · exact ⟨.bool true, rfl, trivial⟩
  have hfilled : filled bracesRecord (parts bracesMessage.toList) =
      "\x7bn\x7d's \\ \x7b 5true" := by
    rw [hparts]
    decide +kernel
  obtain ⟨text, hsubstitute, rfl, _, hcall⟩ :=
    substitute_eq_call bracesMessage "key" "params" bracesRecord hprovides
  rw [hfilled] at hsubstitute hcall
  exact ⟨hprovides, hsubstitute, hcall⟩

end TemplateMessages.Catalog
