import TemplateMessages.Proofs.Call.Search
import TemplateMessages.Proofs.Text.Characters

set_option autoImplicit false

/-!
# The form of candidates

A candidate is a function name, white space and balanced arguments in parentheses, where an operand
can stand. The candidates of an expression stand one behind the other in it, and where the
expression itself starts only shifts their spans.
-/

namespace TemplateMessages.Call

open TemplateMessages.Expression (Nesting)
open TemplateMessages.Text

def BeforeOperand (front : List Char) : Prop :=
  trimEnd front = [] ∨ ∃ operator ∈ operators, operator.toList <:+ trimEnd front

/-- A call of one of the functions, in an expression that starts at `base`. -/
structure Candidate.CallIn (names : FunctionNames) (expression : List Char) (base : Nat)
    (candidate : Candidate) : Prop where
  slice : (Span.slice ⟨candidate.span.start - base, candidate.span.stop - base⟩ expression) =
    candidate.content.toList
  written : ∃ gap, isBlankText gap = true ∧ candidate.content.toList =
    candidate.name.toList ++ gap ++ '(' :: (candidate.arguments ++ [')'])
  named : (candidate.name, candidate.function) ∈ names
  operand : BeforeOperand (takeBytes (candidate.span.start - base) expression)
  balanced : ∃ nesting, Nesting.empty.feedAll? candidate.arguments = some nesting ∧
    nesting.isBalanced = true

def Candidate.shift (candidate : Candidate) (base : Nat) : Candidate :=
  { candidate with span := candidate.span.shift base }

variable {names : FunctionNames} {place : Place} {expression front text chars : List Char}
  {base : Nat} {cursor : Cursor} {candidate : Candidate}

theorem exists_concat_of_mem_operators {operator : String} (h : operator ∈ operators) :
    ∃ front last, operator.toList = front ++ [last] ∧ isBlank last = false := by
  have hall : ∀ operator ∈ operators,
      operator.toList = operator.toList.dropLast ++ [operator.toList.getLastD ' '] ∧
        isBlank (operator.toList.getLastD ' ') = false := by
    decide
  exact ⟨_, _, hall operator h⟩

theorem trimEnd_append_operator {operator : String} (h : operator ∈ operators)
    {blanks : List Char} (hblanks : isBlankText blanks = true) (front : List Char) :
    trimEnd (front ++ (operator.toList ++ blanks)) = front ++ operator.toList := by
  obtain ⟨more, last, hoperator, hlast⟩ := exists_concat_of_mem_operators h
  rw [← List.append_assoc, trimEnd_append_blanks _ hblanks, hoperator, ← List.append_assoc,
    trimEnd_concat _ hlast]

theorem beforeOperand_of_isLead {lead : List Char} (h : IsLead front.isEmpty lead) :
    BeforeOperand (front ++ lead) := by
  obtain ⟨operator, blanks, rfl, hblanks, ⟨hstart, rfl⟩ | ⟨listed, hlisted, rfl⟩⟩ := h
  · left
    rw [List.isEmpty_iff.mp hstart, List.nil_append]
    exact trimEnd_append_blanks [] hblanks
  · right
    refine ⟨listed, hlisted, ?_⟩
    rw [trimEnd_append_operator hlisted hblanks]
    exact List.suffix_append _ _

theorem arguments_eq {name gap arguments : List Char} (hname : '(' ∉ name)
    (hgap : isBlankText gap = true)
    (h : candidate.content.toList = name ++ gap ++ '(' :: (arguments ++ [')'])) :
    candidate.arguments = arguments := by
  have hfront : ∀ c ∈ name ++ gap, decide (c ≠ '(') = true := by
    intro c hc
    rw [decide_eq_true_eq]
    rintro rfl
    rcases List.mem_append.mp hc with hmem | hmem
    · exact hname hmem
    · exact absurd (List.all_eq_true.mp hgap '(' hmem) (by decide)
  rw [Candidate.arguments, h, List.dropWhile_append_of_pos hfront,
    List.dropWhile_cons_of_neg (by decide), List.drop_one, List.tail_cons, List.dropLast_concat]

theorem callIn_of_mem_candidates (hnames : ∀ entry ∈ names, '(' ∉ entry.1.toList)
    (h : candidate ∈ candidates names expression base place) :
    candidate.CallIn names expression base := by
  have hcovers := covers_of_mem_candidates h
  obtain ⟨front, text, head, rest, cursor, hreaches, hcursor, hhead, hcall, -⟩ :=
    exists_reaches_of_mem_candidates h
  obtain ⟨hlead, hnamed, hgap⟩ := of_head? hhead
  have hstart := hcursor.start_of_candidate? hcall
  obtain ⟨-, -, arguments, after, rfl, hbalanced, rfl⟩ := of_candidate? hcall
  have hnamed := mem_longestFirst.mp hnamed
  have harguments : (head.call place (cursor.position + byteLength head.lead) arguments
      (cursor.blankBefore && isBlankText head.lead && isBlankText after)).arguments = arguments :=
    arguments_eq (hnames _ hnamed) hgap (String.toList_ofList)
  constructor
  · obtain ⟨before, behind, heq, hspan⟩ := hcovers
    apply Covers.slice_eq
    refine ⟨before, behind, heq, ?_⟩
    rw [hspan, Span.mk.injEq]
    dsimp only
    omega
  · refine ⟨head.gap, hgap, ?_⟩
    rw [harguments]
    exact String.toList_ofList
  · exact hnamed
  · rw [hstart, Nat.add_sub_cancel_left, hreaches.takeBytes_eq hhead]
    exact beforeOperand_of_isLead hlead
  · rw [harguments]
    exact ⟨_, hbalanced, rfl⟩

structure Cursor.Shifted (base : Nat) (cursor other : Cursor) : Prop where
  position : other.position = cursor.position + base
  atStart : other.atStart = cursor.atStart
  blankBefore : other.blankBefore = cursor.blankBefore
  lastStop : other.lastStop = cursor.lastStop + base ∨
    cursor.lastStop ≤ cursor.position ∧ other.lastStop ≤ other.position

namespace Cursor.Shifted

variable {other : Cursor}

theorem move (h : cursor.Shifted base other) (chars : List Char) :
    (cursor.move chars).Shifted base (other.move chars) where
  position := by
    simp only [Cursor.move, h.position]
    omega
  atStart := rfl
  blankBefore := by simp only [Cursor.move, h.blankBefore]
  lastStop := h.lastStop.imp id fun hle =>
    ⟨Nat.le_add_right_of_le hle.1, Nat.le_add_right_of_le hle.2⟩

theorem candidate?_eq (h : cursor.Shifted base other) (head : Head) (rest : List Char) :
    candidate? place other head rest =
      (candidate? place cursor head rest).map (·.shift base) := by
  unfold candidate?
  have hposition : other.position < other.lastStop ↔ cursor.position < cursor.lastStop := by
    have := h.position
    rcases h.lastStop with heq | hle <;> omega
  by_cases hlast : cursor.position < cursor.lastStop
  · rw [if_pos hlast, if_pos (hposition.mpr hlast), Option.map_none]
  · rw [if_neg hlast, if_neg (mt hposition.mp hlast), Option.map_map]
    congr 1
    funext length
    simp only [Function.comp_apply, Candidate.shift, Span.shift, h.position, h.blankBefore,
      Candidate.mk.injEq, Span.mk.injEq, and_self, and_true]
    omega

end Cursor.Shifted

theorem candidatesFrom_shift (cursor : Cursor) (text : List Char) : ∀ {other : Cursor},
    cursor.Shifted base other → candidatesFrom names place other text =
      (candidatesFrom names place cursor text).map (·.shift base) := by
  fun_induction candidatesFrom names place cursor text with
  | case1 cursor hnone =>
    intro other h
    rw [← h.atStart] at hnone
    exact candidatesFrom_nil hnone
  | case2 cursor c cs hnone ih =>
    intro other h
    rw [← h.atStart] at hnone
    rw [candidatesFrom_skip hnone]
    exact ih (h.move [c])
  | case3 =>
    rename_i cursor text head rest hhead _ next hcall ih
    intro other h
    rw [← h.atStart] at hhead
    rw [candidatesFrom_past hhead (by rw [h.candidate?_eq, hcall]; rfl)]
    exact ih (h.move head.chars)
  | case4 =>
    rename_i cursor text head rest hhead _ next found hcall ih
    intro other h
    rw [← h.atStart] at hhead
    rw [candidatesFrom_call hhead (by rw [h.candidate?_eq, hcall]; rfl), List.map_cons]
    congr 1
    exact ih ⟨(h.move head.chars).position, rfl, (h.move head.chars).blankBefore, .inl rfl⟩

theorem candidates_shift (names : FunctionNames) (expression : List Char) (base : Nat)
    (place : Place) :
    candidates names expression base place =
      (candidates names expression 0 place).map (·.shift base) := by
  unfold candidates
  split
  · rfl
  · exact candidatesFrom_shift _ _
      ⟨(Nat.zero_add base).symm, rfl, rfl, .inr ⟨Nat.le_refl _, Nat.zero_le _⟩⟩

/-- The candidates of an expression are calls of the functions in it, where an operand can stand and
with balanced arguments. They stand one behind the other, none inside another one, and depend on the
start of the expression by their spans only. -/
theorem candidates_calls (hnames : ∀ entry ∈ names, '(' ∉ entry.1.toList)
    (expression : List Char) (base : Nat) (place : Place) :
    (candidates names expression base place).Pairwise
        (fun a b => a.span.stop ≤ b.span.start ∧ ¬a.span.Within b.span ∧ ¬b.span.Within a.span) ∧
      (∀ candidate ∈ candidates names expression base place,
        candidate.span.Within ⟨base, base + byteLength expression⟩ ∧
          candidate.CallIn names expression base) ∧
      candidates names expression base place =
        (candidates names expression 0 place).map (·.shift base) := by
  refine ⟨?_, ?_, candidates_shift names expression base place⟩
  · refine candidates_ascending.imp_of_mem fun {a b} ha hb hle => ?_
    have hfilled : ∀ candidate ∈ candidates names expression base place,
        candidate.span.start < candidate.span.stop := by
      intro candidate hmem
      rw [(covers_of_mem_candidates hmem).stop_eq]
      exact Nat.lt_add_of_pos_right (byteLength_pos (content_ne_nil_of_mem_candidates hmem))
    have hstart := hfilled a ha
    have hstop := hfilled b hb
    unfold Span.Within
    omega
  · intro candidate hmem
    exact ⟨(covers_of_mem_candidates hmem).within, callIn_of_mem_candidates hnames hmem⟩

def aliasNames : FunctionNames := [("has", .exists?), ("$t", .translate)]

theorem longestFirst_aliasNames : aliasNames.longestFirst = aliasNames :=
  List.mergeSort_of_pairwise (by decide)

/-- A call with another one in its params, and a call behind an operator. -/
def nestedCalls : List Char :=
  "$t('a)', \x7b n: has('b') \x7d) + has ('c')".toList

theorem candidates_calls_nested :
    (∀ entry ∈ aliasNames, '(' ∉ entry.1.toList) ∧
      (candidates aliasNames nestedCalls 7 .text).map (fun found => (found.span, found.name)) =
        [(⟨7, 32⟩, "$t"), (⟨35, 44⟩, "has")] ∧
      ∀ found ∈ candidates aliasNames nestedCalls 7 .text,
        found.CallIn aliasNames nestedCalls 7 := by
  have hnames : ∀ entry ∈ aliasNames, '(' ∉ entry.1.toList := by decide
  obtain ⟨-, hcalls, -⟩ := candidates_calls hnames nestedCalls 7 .text
  refine ⟨hnames, ?_, fun found hmem => (hcalls found hmem).2⟩
  unfold candidates
  rw [longestFirst_aliasNames]
  decide +kernel

end TemplateMessages.Call
