import TemplateMessages.Call.Candidate
import TemplateMessages.Proofs.Text.Placement

set_option autoImplicit false

/-!
# Spans of calls

The span of a candidate covers its content in the expression.
-/

namespace TemplateMessages.Expression

open TemplateMessages.Text

/-- A closing bracket is found behind whole characters. -/
theorem Nesting.prefix_of_closingFrom {nesting : Nesting} {text : List Char} {length : Nat}
    (h : nesting.closingFrom text = some length) :
    ∃ front rest, front ++ rest = text ∧ byteLength front = length := by
  induction text generalizing nesting length with
  | nil => simp [Nesting.closingFrom] at h
  | cons c cs ih =>
    rw [Nesting.closingFrom] at h
    split at h
    · obtain rfl := Option.some.inj h
      exact ⟨[c], cs, rfl, by simp⟩
    · simp at h
    · obtain ⟨inner, hinner, rfl⟩ := Option.map_eq_some_iff.mp h
      obtain ⟨front, rest, rfl, rfl⟩ := ih hinner
      exact ⟨c :: front, rest, rfl, rfl⟩

end TemplateMessages.Expression

namespace TemplateMessages.Call

open TemplateMessages.Expression (Nesting findClosing)
open TemplateMessages.Text

variable {names : FunctionNames} {place : Place} {cursor : Cursor} {text : List Char}
  {candidate : Candidate}

theorem covers_of_candidate? {head : Head} {rest : List Char}
    (h : candidate? place cursor head rest = some candidate) :
    Covers cursor.position (head.chars ++ rest) candidate.span candidate.content.toList := by
  unfold candidate? at h
  split at h
  · simp at h
  · obtain ⟨length, hclosing, rfl⟩ := Option.map_eq_some_iff.mp h
    obtain ⟨arguments, after, rfl, rfl⟩ := Nesting.prefix_of_closingFrom hclosing
    have hcontent : Covers (cursor.position + byteLength head.lead)
        (head.name.toList ++ head.gap ++ ['('] ++ arguments ++ after) _ _ := Covers.head _ _ _
    dsimp only
    rw [takeBytes_byteLength_append, String.toList_ofList, ← add_byteLength_append]
    have hwhole : head.chars ++ (arguments ++ after) =
        head.lead ++ (head.name.toList ++ head.gap ++ ['('] ++ arguments ++ after) := by
      simp [Head.chars]
    rw [hwhole]
    exact hcontent.behind

theorem covers_of_mem_candidatesFrom (h : candidate ∈ candidatesFrom names place cursor text) :
    Covers cursor.position text candidate.span candidate.content.toList := by
  fun_induction candidatesFrom names place cursor text with
  | case1 => cases h
  | case2 cursor c cs _ ih =>
    have inner := ih h
    simp only [Cursor.move, byteLength, Nat.add_zero] at inner
    exact inner.behind_cons c
  | case3 cursor text head rest hhead _ next _ ih =>
    have inner := ih h
    rw [← append_of_head? hhead]
    exact inner.behind
  | case4 cursor text head rest hhead _ next found hfound ih =>
    rw [← append_of_head? hhead]
    rcases List.mem_cons.mp h with rfl | hlater
    · exact covers_of_candidate? hfound
    · exact (ih hlater).behind

theorem covers_of_mem_candidates {expression : List Char} {base : Nat}
    (h : candidate ∈ candidates names expression base place) :
    Covers base expression candidate.span candidate.content.toList := by
  unfold candidates at h
  split at h
  · cases h
  · exact covers_of_mem_candidatesFrom h

theorem content_ne_nil_of_candidate? {head : Head} {rest : List Char}
    (h : candidate? place cursor head rest = some candidate) : candidate.content.toList ≠ [] := by
  unfold candidate? at h
  split at h
  · cases h
  · obtain ⟨length, _, rfl⟩ := Option.map_eq_some_iff.mp h
    simp

theorem content_ne_nil_of_mem_candidatesFrom
    (h : candidate ∈ candidatesFrom names place cursor text) : candidate.content.toList ≠ [] := by
  fun_induction candidatesFrom names place cursor text with
  | case1 => cases h
  | case2 cursor c cs _ ih => exact ih h
  | case3 cursor text head rest hhead _ next _ ih => exact ih h
  | case4 cursor text head rest hhead _ next found hfound ih =>
    rcases List.mem_cons.mp h with rfl | hlater
    · exact content_ne_nil_of_candidate? hfound
    · exact ih hlater

theorem content_ne_nil_of_mem_candidates {expression : List Char} {base : Nat}
    (h : candidate ∈ candidates names expression base place) : candidate.content.toList ≠ [] := by
  unfold candidates at h
  split at h
  · cases h
  · exact content_ne_nil_of_mem_candidatesFrom h

theorem le_start_of_candidate? {head : Head} {rest : List Char}
    (h : candidate? place cursor head rest = some candidate) :
    cursor.lastStop ≤ candidate.span.start := by
  unfold candidate? at h
  split at h
  · cases h
  · obtain ⟨length, _, rfl⟩ := Option.map_eq_some_iff.mp h
    dsimp only
    omega

theorem le_start_of_mem_candidatesFrom (h : candidate ∈ candidatesFrom names place cursor text) :
    cursor.lastStop ≤ candidate.span.start := by
  fun_induction candidatesFrom names place cursor text with
  | case1 => cases h
  | case2 cursor c cs _ ih => exact ih h
  | case3 cursor text head rest hhead _ next _ ih => exact ih h
  | case4 cursor text head rest hhead _ next found hfound ih =>
    have hstart := le_start_of_candidate? hfound
    rcases List.mem_cons.mp h with rfl | hlater
    · exact hstart
    · have hstop := (covers_of_candidate? hfound).start_le_stop
      have hnext := ih hlater
      dsimp only at hnext
      omega

theorem candidatesFrom_ascending :
    (candidatesFrom names place cursor text).Pairwise fun a b => a.span.stop ≤ b.span.start := by
  fun_induction candidatesFrom names place cursor text with
  | case1 => exact List.Pairwise.nil
  | case2 cursor c cs _ ih => exact ih
  | case3 cursor text head rest hhead _ next _ ih => exact ih
  | case4 cursor text head rest hhead _ next found hfound ih =>
    exact List.Pairwise.cons (fun later hlater => le_start_of_mem_candidatesFrom hlater) ih

/-- The candidates of an expression stand one behind the other. -/
theorem candidates_ascending {expression : List Char} {base : Nat} :
    (candidates names expression base place).Pairwise fun a b => a.span.stop ≤ b.span.start := by
  unfold candidates
  split
  · exact List.Pairwise.nil
  · exact candidatesFrom_ascending

end TemplateMessages.Call
