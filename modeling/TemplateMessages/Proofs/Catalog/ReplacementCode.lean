import TemplateMessages.Catalog.Translation
import TemplateMessages.Proofs.Script.Outline
import TemplateMessages.Proofs.Text.Characters

set_option autoImplicit false

/-!
# The code of catalog messages

A message of a catalog becomes a string literal, or the call of a function in parentheses. Both are
one operand.
-/

namespace TemplateMessages.Catalog

open TemplateMessages.Expression (quoted)
open TemplateMessages.Script (Scan IsBalanced SelfContained outline? delimiters
  not_mem_delimiters isBalanced_quoted selfContained_of_outline? selfContained_quoted
  selfContained_boolText)
open TemplateMessages.Text (isBlank takeBytes dropBytes trim eq_append_trim isBlank_of_trim_eq_nil)
open TemplateMessages.Translation

theorem Part.isBalanced_operand (part : Part) : IsBalanced part.operand.toList := by
  cases part with
  | text chars => exact isBalanced_quoted _
  | placeholder name =>
    obtain ⟨value, hvalue⟩ : ∃ value, value = "p[" ++ quoted (String.ofList name) ++ "]" := ⟨_, rfl⟩
    have hcode : (placeholder name).operand =
        "(" ++ (value ++ " == null ? '' : " ++ value) ++ ")" := by
      rw [hvalue]
      rfl
    have hp : IsBalanced ['p'] := by decide
    have htest : IsBalanced " == null ? '' : ".toList := by decide
    have hbalanced : IsBalanced value.toList := by
      rw [hvalue, String.toList_append, String.toList_append]
      exact hp.append (isBalanced_quoted (String.ofList name)).squares
    rw [hcode, String.toList_append, String.toList_append, String.toList_append,
      String.toList_append]
    exact ((hbalanced.append htest).append hbalanced).parentheses

theorem isBalanced_sum (parts : List Part) :
    IsBalanced (" + ".intercalate (operands parts)).toList := by
  have hplus : IsBalanced " + ".toList := by decide
  have hoperand : ∀ code ∈ operands parts, IsBalanced code.toList := by
    intro code hcode
    unfold operands at hcode
    split at hcode
    · rename_i chars part parts
      have hmem : ∃ other ∈ Part.text chars :: part :: parts, other.operand = code :=
        List.mem_map.mp hcode
      obtain ⟨other, _, rfl⟩ := hmem
      exact other.isBalanced_operand
    · rcases List.mem_cons.mp hcode with rfl | hmem
      · decide
      · obtain ⟨part, _, rfl⟩ := List.mem_map.mp hmem
        exact part.isBalanced_operand
  rw [String.toList_intercalate]
  apply hplus.intercalate
  intro text htext
  obtain ⟨code, hcode, rfl⟩ := List.mem_map.mp htext
  exact hoperand code hcode

theorem toList_runtimeCode (parts : List Part) (params : String) :
    (runtimeCode parts params).toList = "(function(p)\x7breturn ".toList ++
      ((" + ".intercalate (operands parts)).toList ++
        (";\x7d)(".toList ++ (params.toList ++ ")".toList))) := by
  unfold runtimeCode
  rw [String.toList_append, String.toList_append, String.toList_append, String.toList_append,
    List.append_assoc, List.append_assoc, List.append_assoc]

/-- A message with placeholders is a function in parentheses and a call. -/
theorem selfContained_runtimeCode (parts : List Part) {params : String}
    (hparams : IsBalanced params.toList) : SelfContained (runtimeCode parts params).toList := by
  have hrun : Scan.start.run? "(function(p)\x7breturn ".toList = some ⟨[.curly, .round], none⟩ := by
    decide
  have hrun₁ : Scan.run? ⟨[.curly, .round], none⟩ ";\x7d)(".toList = some ⟨[.round], none⟩ := by
    decide
  have hend : Scan.outline? ⟨[.round], none⟩ ")".toList = some [] := by decide
  have houtline : outline? (runtimeCode parts params).toList = some [.group, .group] := by
    rw [toList_runtimeCode, outline?, Scan.outline?_append hrun,
      (isBalanced_sum parts).outline?_inside, Scan.outline?_append hrun₁, hparams.outline?_inside,
      hend]
    decide
  exact selfContained_of_outline? houtline rfl

@[simp] theorem takeBytes_append_dropBytes (n : Nat) (text : List Char) :
    takeBytes n text ++ dropBytes n text = text := by
  fun_induction dropBytes n text with
  | case1 cs => simp [takeBytes]
  | case2 n => rfl
  | case3 n c cs ih => rw [takeBytes, List.cons_append, ih]

theorem not_mem_delimiters_of_isBlank {c : Char} (h : isBlank c = true) : c ∉ delimiters :=
  not_mem_delimiters (by decide) h

theorem isBalanced_trim {text : List Char} (h : IsBalanced text) : IsBalanced (trim text) := by
  obtain ⟨front, back, heq, hfront, hback⟩ := eq_append_trim text
  rw [heq] at h
  exact Script.IsBalanced.inner (fun c hc => not_mem_delimiters_of_isBlank (hfront c hc))
    (fun c hc => not_mem_delimiters_of_isBlank (hback c hc)) h

/-- The object literal of balanced params is balanced when nothing is behind it. -/
theorem isBalanced_of_splitParams {params : List Char} {object : String}
    (h : Call.splitParams params = .ok (object, "")) (hparams : IsBalanced params) :
    IsBalanced object.toList := by
  unfold Call.splitParams at h
  dsimp only at h
  split at h
  · split at h
    · rename_i length _
      obtain ⟨rfl, hrest⟩ := by simpa only [Except.ok.injEq, Prod.mk.injEq] using h
      have hblank : ∀ c ∈ dropBytes (length + 1) (trim params), isBlank c = true := by
        apply isBlank_of_trim_eq_nil
        rw [← String.toList_ofList (l := trim _), hrest]
        rfl
      have htrim := isBalanced_trim hparams
      rw [← takeBytes_append_dropBytes (length + 1) (trim params)] at htrim
      have hnil : ∀ c ∈ ([] : List Char), c ∉ delimiters := fun c hc => nomatch hc
      rw [String.toList_ofList]
      exact Script.IsBalanced.inner hnil
        (fun c hc => not_mem_delimiters_of_isBlank (hblank c hc)) htrim
    · cases h
  · cases h

theorem selfContained_replacement {message key : String} {params : Option String}
    {replacement : Replacement} (h : Catalog.replacement message key params = .ok replacement)
    (hparams : ∀ given, params = some given → IsBalanced given.toList) :
    SelfContained replacement.code.toList := by
  cases params with
  | none =>
    unfold Catalog.replacement at h
    dsimp only at h
    split at h
    · cases h
    · cases h
      exact selfContained_quoted message
  | some params =>
    unfold Catalog.replacement at h
    dsimp only at h
    split at h
    · cases h
    · rename_i object trailing hsplit
      split at h
      · cases h
      · rename_i htrailing
        obtain rfl := not_ne_iff.mp htrailing
        split at h
        · cases h
          exact selfContained_quoted message
        · split at h
          · rename_i entries _
            cases hfilled : substitute (parts message.toList) key (.object entries) with
            | error error =>
              rw [hfilled] at h
              cases h
            | ok text =>
              rw [hfilled] at h
              cases h
              exact selfContained_quoted text
          · cases h
          · cases h
            exact selfContained_runtimeCode _
              (isBalanced_of_splitParams hsplit (hparams params rfl))

theorem selfContained_translate {messages : LocaleMessages} {context : Context}
    {candidate : Call.Candidate} {replacement : Replacement}
    (h : Catalog.translate messages context candidate = .ok replacement)
    (hparams : ∀ arguments, Call.Arguments.parse candidate.arguments = .ok arguments →
      ∀ given, arguments.params = some given → IsBalanced given.toList) :
    SelfContained replacement.code.toList := by
  unfold Catalog.translate at h
  cases hparse : Call.Arguments.parse candidate.arguments with
  | error error =>
    rw [hparse] at h
    cases h
  | ok arguments =>
    rw [hparse] at h
    cases hfunction : candidate.function with
    | exists? =>
      rw [hfunction] at h
      cases h
      exact selfContained_boolText _
    | translate =>
      rw [hfunction] at h
      dsimp only [bind, Except.bind, Except.mapError] at h
      split at h
      · cases h
      · exact selfContained_replacement h (hparams arguments hparse)

end TemplateMessages.Catalog
