import Mathlib.Data.List.Induction
import TemplateMessages.Proofs.Call.HeadParts

set_option autoImplicit false

/-!
# Missed calls

A call where an operand can stand, with arguments that close, is a candidate or inside one, with one
exception. A head whose arguments do not close takes its parenthesis from the text behind it, and a
call that has no other operator in front is not found there.
-/

namespace TemplateMessages.Call

open TemplateMessages.Expression (findClosing)
open TemplateMessages.Text

/-- One of the functions is called behind `front`, where an operand can stand, and the arguments
close. -/
inductive CallAt (names : FunctionNames) (expression front : List Char) : Prop
  | intro (name : String) (function : Function) (gap rest : List Char)
      (named : (name, function) ∈ names) (isGap : isBlankText gap = true)
      (whole : front ++ (name.toList ++ gap ++ ['('] ++ rest) = expression)
      (closes : findClosing rest .round ≠ none) (operand : BeforeOperand front)

/-- A candidate starts in front of the place and stops behind it. -/
def InCandidate (names : FunctionNames) (expression : List Char) (base : Nat) (place : Place)
    (front : List Char) : Prop :=
  ∃ candidate ∈ candidates names expression base place,
    candidate.span.start < base + byteLength front ∧ base + byteLength front < candidate.span.stop

/-- The operator in front of the place is the parenthesis of a head that the search comes by, and
the arguments of that head do not close. -/
def Swallowed (names : FunctionNames) (expression front : List Char) : Prop :=
  ∃ before text head rest, Reaches names.longestFirst expression before text ∧
    head? names.longestFirst before.isEmpty text = some (head, rest) ∧
    findClosing rest .round = none ∧ trimEnd front = before ++ head.chars

inductive InHead (names : FunctionNames) (expression front : List Char) : Prop
  | intro (before : List Char) (head : Head) (rest within behind : List Char)
      (reached : Reaches names expression before (head.chars ++ rest))
      (found : head? names before.isEmpty (head.chars ++ rest) = some (head, rest))
      (front_eq : front = before ++ within) (chars_eq : head.chars = within ++ behind)
      (within_ne : within ≠ []) (behind_ne : behind ≠ [])

variable {names : FunctionNames} {place : Place}
  {expression front front' text text' before between behind rest : List Char} {base : Nat}
  {head : Head} {candidate : Candidate}

theorem Reaches.past_or_inHead {within : List Char} {c : Char}
    (h : Reaches names expression before (head.chars ++ rest))
    (hhead : head? names before.isEmpty (head.chars ++ rest) = some (head, rest))
    (hchars : head.chars = within ++ c :: behind) :
    Reaches names expression (before ++ within ++ [c]) (behind ++ rest) ∨
      InHead names expression (before ++ within ++ [c]) := by
  have hfront : before ++ within ++ [c] = before ++ (within ++ [c]) := List.append_assoc ..
  cases behind with
  | nil =>
    rw [hfront, ← hchars]
    exact .inl (.past h hhead)
  | cons d behind =>
    exact .inr ⟨before, head, rest, within ++ [c], d :: behind, h, hhead, hfront,
      by rw [hchars, List.append_cons], by simp, List.cons_ne_nil _ _⟩

theorem reaches_or_inHead (names : FunctionNames) (expression front : List Char) :
    ∀ text, front ++ text = expression →
      Reaches names expression front text ∨ InHead names expression front := by
  induction front using List.reverseRecOn with
  | nil =>
    rintro _ rfl
    exact .inl .start
  | append_singleton front c ih =>
    intro text htext
    rcases ih (c :: text) (by simpa using htext) with
      hreaches | ⟨before, head, rest, within, behind, hreaches, hhead, rfl, hchars, -, hbehind⟩
    · cases hhead : head? names front.isEmpty (c :: text) with
      | none => exact .inl (.skip hreaches hhead)
      | some found =>
        obtain ⟨head, rest⟩ := found
        have happend := append_of_head? hhead
        obtain ⟨d, ds, hchars⟩ := List.exists_cons_of_ne_nil head.chars_ne_nil
        rw [← happend] at hhead hreaches
        rw [hchars] at happend
        obtain ⟨rfl, rfl⟩ := List.cons.inj happend
        have hnext := hreaches.past_or_inHead hhead (hchars.trans (List.nil_append _).symm)
        rwa [List.append_nil] at hnext
    · obtain ⟨d, ds, rfl⟩ := List.exists_cons_of_ne_nil hbehind
      have hsame : d :: (ds ++ rest) = c :: text := by
        have happend := hreaches.append
        rw [← htext, hchars] at happend
        simpa using happend
      obtain ⟨rfl, rfl⟩ := List.cons.inj hsame
      exact hreaches.past_or_inHead hhead hchars

theorem Reaches.le_or_past (h : Reaches names expression front text)
    (hhead : head? names front.isEmpty text = some (head, rest))
    (h' : Reaches names expression front' text') :
    front'.length ≤ front.length ∨ (front ++ head.chars).length ≤ front'.length := by
  -- each step to the second place is compared to the first place, or the other way round
  induction hn : front.length + front'.length using Nat.strong_induction_on
    generalizing front text front' text' head rest with
  | _ n ih =>
    have hsame {before text' : List Char} (h' : Reaches names expression before text')
        (hlength : before.length = front.length) : before = front ∧ text' = text :=
      List.append_inj (h'.append.trans h.append.symm) hlength
    subst hn
    cases h' with
    | start => exact .inl (Nat.zero_le _)
    | @skip before cs c here hnone =>
      rw [List.length_append, List.length_singleton] at ih ⊢
      rcases ih _ (by omega) h hhead here rfl with hle | hle
      · rcases Nat.lt_or_eq_of_le hle with hlt | heq
        · exact .inl hlt
        · obtain ⟨rfl, rfl⟩ := hsame here heq
          rw [hhead] at hnone
          cases hnone
      · exact .inr (by omega)
    | @past before text' rest' head' here hfound =>
      have hpos := List.length_pos_of_ne_nil head'.chars_ne_nil
      rw [List.length_append] at ih ⊢
      rcases ih _ (by omega) h hhead here rfl with hle | hle
      · rcases Nat.lt_or_eq_of_le hle with hlt | heq
        · have hpast := ih _ (by omega) here hfound h rfl
          rw [List.length_append] at hpast
          exact .inl (hpast.resolve_left (Nat.not_le.mpr hlt))
        · obtain ⟨rfl, rfl⟩ := hsame here heq
          rw [hhead] at hfound
          cases hfound
          exact .inr (Nat.le_of_eq (List.length_append ..))
      · exact .inr (by omega)

theorem Reaches.not_inHead (h : Reaches names expression front text) :
    ¬InHead names expression front := by
  rintro ⟨before, head, rest, within, behind, hreaches, hhead, rfl, hchars, hwithin, hbehind⟩
  have hplace := hreaches.le_or_past hhead h
  have hwithin := List.length_pos_of_ne_nil hwithin
  have hbehind := List.length_pos_of_ne_nil hbehind
  simp only [hchars, List.length_append] at hplace
  omega

theorem not_mem_of_isBlankText {blanks : List Char} (h : isBlankText blanks = true) :
    ')' ∉ blanks :=
  fun hc => absurd (List.all_eq_true.mp h _ hc) (by decide)

theorem not_mem_of_isLead {lead : List Char} {atStart : Bool} (h : IsLead atStart lead) :
    ')' ∉ lead := by
  obtain ⟨operator, blanks, rfl, hblanks, hoperator⟩ := h
  intro hc
  rcases List.mem_append.mp hc with hc | hc
  · exact absurd (mem_operatorChars_of_listed hoperator _ hc) (by decide +kernel)
  · exact not_mem_of_isBlankText hblanks hc

theorem covers_parenthesis (h : candidate ∈ candidates names expression base place) :
    ∃ last, candidate.span.stop = last + 1 ∧ Covers base expression ⟨last, last + 1⟩ [')'] := by
  have hcovers := covers_of_mem_candidates h
  obtain ⟨_, _, head, _, _, -, -, -, hcall, -⟩ := exists_reaches_of_mem_candidates h
  obtain ⟨-, -, arguments, after, -, -, hcandidate⟩ := of_candidate? hcall
  have hcontent : candidate.content.toList =
      head.name.toList ++ head.gap ++ '(' :: arguments ++ [')'] := by
    rw [hcandidate]
    simp [Head.call]
  have hstop := hcovers.stop_eq
  rw [hcontent] at hcovers hstop
  rw [add_byteLength_append] at hstop
  exact ⟨_, hstop, hcovers.split.2⟩

theorem lt_stop_of_not_mem (h : candidate ∈ candidates names expression base place)
    (hwhole : before ++ (between ++ behind) = expression) (hnone : ')' ∉ between)
    (hlt : base + byteLength before < candidate.span.stop) :
    base + byteLength (before ++ between) < candidate.span.stop := by
  obtain ⟨last, hstop, hcovers⟩ := covers_parenthesis h
  rw [hstop] at hlt ⊢
  by_contra hle
  rw [← hwhole] at hcovers
  have hbehind := hcovers.of_behind (Nat.le_of_lt_succ hlt)
  have hbetween := hbehind.of_before (by rw [byteLength_append] at hle; dsimp only; omega)
  obtain ⟨front, rest, heq, -⟩ := hbetween
  exact hnone (by rw [← heq]; simp)

theorem Reaches.exists_around (h : Reaches names.longestFirst expression front text)
    (hhead : head? names.longestFirst front.isEmpty text = some (head, rest))
    (hclosing : findClosing rest .round ≠ none) (base : Nat) (place : Place) :
    ∃ candidate ∈ candidates names expression base place,
      candidate.span.start ≤ base + byteLength (front ++ head.lead) ∧
        base + byteLength (front ++ head.lead) < candidate.span.stop := by
  obtain ⟨candidate, hmem, hstart⟩ | ⟨candidate, hmem, hstart, hstop⟩ :
      (∃ candidate ∈ candidates names expression base place, candidate.span.start = _) ∨ _ :=
    h.candidate_or_inside hhead hclosing
  · have hcovers := covers_of_mem_candidates hmem
    have hpos := byteLength_pos (content_ne_nil_of_mem_candidates hmem)
    have hstop := hcovers.stop_eq
    exact ⟨candidate, hmem, hstart.le, by omega⟩
  · have hwhole : front ++ (head.lead ++ (head.name.toList ++ head.gap ++ ['('] ++ rest)) =
        expression := by
      rw [← h.append, ← append_of_head? hhead]
      simp [Head.chars]
    refine ⟨candidate, hmem, ?_, lt_stop_of_not_mem hmem hwhole ?_ hstop⟩
    · simp
      omega
    · exact not_mem_of_isLead (of_head? hhead).1

theorem exists_lead_of_beforeOperand (h : BeforeOperand front) :
    ∃ before operator blanks, front = before ++ (operator ++ blanks) ∧ isBlankText blanks = true ∧
      (before = [] ∧ operator = [] ∨ ∃ listed ∈ operators, operator = listed.toList) := by
  obtain ⟨blanks, hfront, hblanks⟩ := eq_trimEnd_append front
  rcases h with hnil | ⟨listed, hlisted, before, hbefore⟩
  · rw [hnil] at hfront
    exact ⟨[], [], blanks, hfront, hblanks, .inl ⟨rfl, rfl⟩⟩
  · rw [← hbefore, List.append_assoc] at hfront
    exact ⟨before, _, blanks, hfront, hblanks, .inr ⟨listed, hlisted, rfl⟩⟩

theorem CallAt.exists_parts (hnames : ∀ entry ∈ names, IsName entry.1.toList)
    (h : CallAt names expression front) :
    ∃ before, ∃ parts : HeadParts, ∃ rest, before ++ (parts.chars ++ rest) = expression ∧
      front = before ++ (parts.operator ++ parts.blanks) ∧ parts.Leads before.isEmpty ∧
      (∃ entry ∈ names, parts.name = entry.1.toList) ∧ findClosing rest .round ≠ none := by
  obtain ⟨name, function, gap, rest, hnamed, hgap, hwhole, hclosing, hoperand⟩ := h
  obtain ⟨before, operator, blanks, rfl, hblanks, hoperator⟩ :=
    exists_lead_of_beforeOperand hoperand
  refine ⟨before, ⟨operator, blanks, name.toList, gap, mem_operatorChars_of_listed hoperator, hblanks,
    hnames _ hnamed, hgap⟩, rest, ?_, rfl, ?_, ⟨_, hnamed, rfl⟩, hclosing⟩
  · rw [← hwhole]
    simp [HeadParts.chars, HeadParts.called]
  · exact hoperator.imp (fun hnone => ⟨List.isEmpty_iff.mpr hnone.1, hnone.2⟩) id

theorem Reaches.candidate_of_outside (h : Reaches names.longestFirst expression front text)
    (hhead : head? names.longestFirst front.isEmpty text = some (head, rest))
    (hclosing : findClosing rest .round ≠ none)
    (houtside : ¬InCandidate names expression base place (front ++ head.lead)) :
    ∃ candidate ∈ candidates names expression base place,
      candidate.span.start = base + byteLength (front ++ head.lead) := by
  obtain ⟨candidate, hmem, hstart, hstop⟩ := h.exists_around hhead hclosing base place
  refine ⟨candidate, hmem, Nat.le_antisymm hstart (Nat.not_lt.mp fun hlt => ?_)⟩
  exact houtside ⟨candidate, hmem, hlt, hstop⟩

theorem Reaches.in_candidate_or_open (hnames : ∀ entry ∈ names, IsName entry.1.toList)
    (h : Reaches names.longestFirst expression front text)
    (hhead : head? names.longestFirst front.isEmpty text = some (head, between ++ behind))
    (hblanks : isBlankText between = true) :
    InCandidate names expression base place (front ++ head.chars ++ between) ∨
      findClosing (between ++ behind) .round = none := by
  by_cases hclosing : findClosing (between ++ behind) .round = none
  · exact .inr hclosing
  · left
    obtain ⟨candidate, hmem, hstart, hstop⟩ := h.exists_around hhead hclosing base place
    obtain ⟨-, hnamed, hgap⟩ := of_head? hhead
    have hname : ')' ∉ head.name.toList :=
      not_mem_of_isName (hnames _ (mem_longestFirst.mp hnamed)) (by decide)
    have hnone : ')' ∉ head.name.toList ++ head.gap ++ ['('] ++ between := by
      simp [hname, not_mem_of_isBlankText hgap, not_mem_of_isBlankText hblanks]
    have hwhole : front ++ head.lead ++
        (head.name.toList ++ head.gap ++ ['('] ++ between ++ behind) = expression := by
      rw [← h.append, ← append_of_head? hhead]
      simp [Head.chars]
    have hsame : front ++ head.lead ++ (head.name.toList ++ head.gap ++ ['('] ++ between) =
        front ++ head.chars ++ between := by
      simp [Head.chars]
    have hbehind := lt_stop_of_not_mem hmem hwhole hnone hstop
    rw [hsame] at hbehind
    refine ⟨candidate, hmem, hstart.trans_lt ?_, hbehind⟩
    rw [← hsame, byteLength_append _ (_ ++ between)]
    have hpos : 0 < byteLength (head.name.toList ++ head.gap ++ ['('] ++ between) :=
      byteLength_pos (by simp)
    omega

theorem eq_parenthesis {operator : String} (h : operator ∈ operators)
    (hend : operator.toList.head? = some '(' ∨ operator.toList.getLast? = some '(') :
    operator.toList = ['('] := by
  have hall : ∀ listed ∈ operators,
      listed.toList.head? = some '(' ∨ listed.toList.getLast? = some '(' →
        listed.toList = ['('] := by
    decide
  exact hall operator h hend

theorem exists_cons_of_mem_operators {operator : String} (h : operator ∈ operators) :
    ∃ c cs, operator.toList = c :: cs := by
  obtain ⟨more, last, heq, -⟩ := exists_concat_of_mem_operators h
  exact List.exists_cons_of_ne_nil (by simp [heq])

theorem HeadParts.eq_or_behind {whole parts : HeadParts} {within ending : List Char}
    (hlisted : ∃ listed ∈ operators, parts.operator = listed.toList) (hending : ending ≠ [])
    (hwhole : whole.chars = within ++ ending) (hsame : ending ++ behind = parts.chars ++ rest) :
    (whole.operator ++ whole.blanks = within ++ (parts.operator ++ parts.blanks) ∧ behind = rest) ∨
      parts.operator = ['('] ∧ ending = ['('] ∧
        behind = parts.blanks ++ (parts.called ++ rest) := by
  obtain ⟨listed, hlisted, hoperator⟩ := hlisted
  obtain ⟨c, cs, hcons⟩ := exists_cons_of_mem_operators hlisted
  obtain ⟨d, ends, rfl⟩ := List.exists_cons_of_ne_nil hending
  obtain rfl : d = c := by
    rw [HeadParts.chars, hoperator, hcons] at hsame
    exact (List.cons.inj hsame).1
  have hd : d ∈ operatorChars := parts.isOperator d (by simp [hoperator, hcons])
  rcases whole.of_chars_eq_append hwhole hd with hround | ⟨later, hwithin, hblanks, hlater⟩
  · right
    have hparenthesis : parts.operator = ['('] := by
      rw [hoperator]
      refine eq_parenthesis hlisted (.inl ?_)
      rw [hcons, (List.cons.inj hround).1]
      rfl
    refine ⟨hparenthesis, hround, ?_⟩
    rw [hround, HeadParts.chars, hparenthesis] at hsame
    simpa using hsame
  · left
    rw [← hlater] at hsame
    obtain ⟨rfl, rfl⟩ := HeadParts.unique hsame
    exact ⟨by rw [hwithin, hblanks, List.append_assoc], rfl⟩

theorem CallAt.candidate_or_swallowed (hnames : ∀ entry ∈ names, IsName entry.1.toList)
    (h : CallAt names expression front)
    (houtside : ¬InCandidate names expression base place front) :
    (∃ candidate ∈ candidates names expression base place,
      candidate.span.start = base + byteLength front) ∨ Swallowed names expression front := by
  obtain ⟨before, parts, rest, hparts, rfl, hleads, ⟨entry, hentry, hname⟩, hclosing⟩ :=
    h.exists_parts hnames
  have hall : ∀ entry ∈ names.longestFirst, IsName entry.1.toList := fun entry hentry =>
    hnames entry (mem_longestFirst.mp hentry)
  -- the search comes by the place in front of the operator, or that place is in a head found before
  rcases reaches_or_inHead names.longestFirst expression before _ hparts with
    hreaches |
      ⟨outer, head, behind, within, ending, hreaches, hhead, hbefore, hsplit, hwithin, hending⟩
  · obtain ⟨head, hhead, hlead⟩ :=
      parts.exists_head hall hleads hname (mem_longestFirst.mpr hentry) rest
    rw [← hlead] at houtside ⊢
    exact .inl (hreaches.candidate_of_outside hhead hclosing houtside)
  · have hsame : ending ++ behind = parts.chars ++ rest := by
      have happend := hreaches.append.trans hparts.symm
      rw [hbefore, hsplit] at happend
      simpa using happend
    have hlisted := hleads.resolve_left fun hstart => by
      rw [hbefore] at hstart
      simp [hwithin] at hstart
    obtain ⟨whole, hlead, hchars⟩ := exists_parts_of_head? hall hhead
    rcases whole.eq_or_behind hlisted hending (hchars.trans hsplit) hsame with
      ⟨hcall, rfl⟩ | ⟨hround, rfl, rfl⟩
    · left
      have hfront : before ++ (parts.operator ++ parts.blanks) = outer ++ head.lead := by
        rw [hbefore, ← hlead, hcall, List.append_assoc]
      rw [hfront] at houtside ⊢
      exact hreaches.candidate_of_outside hhead hclosing houtside
    · right
      have hfront : outer ++ head.chars = before ++ parts.operator := by
        rw [hbefore, hsplit, hround, List.append_assoc]
      have hopen := (hreaches.in_candidate_or_open hnames hhead parts.isBlank).resolve_left (by
        rw [hfront, List.append_assoc]
        exact houtside)
      refine ⟨outer, _, head, _, hreaches, hhead, hopen, ?_⟩
      obtain ⟨listed, hmem, hoperator⟩ := hlisted
      rw [hfront, hoperator]
      exact trimEnd_append_operator hmem parts.isBlank before

theorem not_swallowed (hnames : ∀ entry ∈ names, IsName entry.1.toList)
    (hmem : candidate ∈ candidates names expression base place)
    (hwhole : front ++ behind = expression)
    (hstart : candidate.span.start = base + byteLength front) :
    ¬Swallowed names expression front := by
  rintro ⟨before, text, head, rest, hreaches, hhead, -, htrim⟩
  obtain ⟨front', text', head', rest', cursor, hreaches', hcursor, hhead', hcall, -⟩ :=
    exists_reaches_of_mem_candidates hmem
  have hfront : front = front' ++ head'.lead := by
    have hsplit : front' ++ head'.lead ++ (head'.name.toList ++ head'.gap ++ ['('] ++ rest') =
        expression := by
      rw [← hreaches'.append, ← append_of_head? hhead']
      simp [Head.chars]
    refine (append_inj_of_byteLength (hwhole.trans hsplit.symm) ?_).1
    rw [hcursor.start_of_candidate? hcall] at hstart
    omega
  obtain ⟨⟨operator, blanks, hlead, hblanks, hoperator⟩, -⟩ := of_head? hhead'
  rw [hfront, hlead] at htrim
  rcases hoperator with ⟨hnil, rfl⟩ | ⟨listed, hlisted, rfl⟩
  · rw [List.isEmpty_iff.mp hnil, List.nil_append, List.nil_append] at htrim
    rw [show trimEnd blanks = [] from trimEnd_append_blanks [] hblanks] at htrim
    simp [Head.chars] at htrim
  · rw [trimEnd_append_operator hlisted hblanks] at htrim
    have hround : listed.toList = ['('] := by
      refine eq_parenthesis hlisted (.inr ?_)
      obtain ⟨more, last, hconcat, -⟩ := exists_concat_of_mem_operators hlisted
      have hlast := congrArg List.getLast? htrim
      rw [hconcat] at hlast ⊢
      simpa [Head.chars] using hlast
    rw [hround] at htrim
    -- so the head of the candidate starts at the parenthesis, in the middle of the other head
    have hplace : front' = before ++ (head.lead ++ head.name.toList ++ head.gap) := by
      rw [Head.chars, ← List.append_assoc] at htrim
      exact List.append_cancel_right htrim
    have hname := (hnames _ (mem_longestFirst.mp (of_head? hhead).2.1)).1
    rw [← append_of_head? hhead] at hreaches hhead
    exact hreaches'.not_inHead ⟨before, head, rest, _, ['('], hreaches, hhead, hplace, rfl,
      by simp [hname], List.cons_ne_nil _ _⟩

/-- A call where an operand can stand, with arguments that close, is found when it is in no
candidate, except where the operator in front of it is the parenthesis of a head whose arguments do
not close. -/
theorem CallAt.exists_candidate_iff (hnames : ∀ entry ∈ names, IsName entry.1.toList)
    (h : CallAt names expression front)
    (houtside : ¬InCandidate names expression base place front) :
    (∃ candidate ∈ candidates names expression base place,
      candidate.span.start = base + byteLength front) ↔ ¬Swallowed names expression front := by
  constructor
  · rintro ⟨candidate, hmem, hstart⟩
    obtain ⟨_, _, _, _, -, -, hwhole, -, -⟩ := h
    exact not_swallowed hnames hmem hwhole hstart
  · exact (h.candidate_or_swallowed hnames houtside).resolve_right

def openedTwice : List Char :=
  "t(t('a')".toList

theorem CallAt.exists_candidate_iff_openedTwice :
    (∀ entry ∈ FunctionNames.default, IsName entry.1.toList) ∧
      CallAt .default openedTwice "t(".toList ∧
      candidates .default openedTwice 0 .text = [] ∧
      ¬InCandidate .default openedTwice 0 .text "t(".toList ∧
      Swallowed .default openedTwice "t(".toList := by
  have hnames : ∀ entry ∈ FunctionNames.default, IsName entry.1.toList :=
    List.forall_mem_singleton.mpr (isName_of_isIdentifier (by decide))
  have hcall : CallAt .default openedTwice "t(".toList :=
    .intro "t" .translate [] "'a')".toList List.mem_cons_self rfl rfl (by decide)
      (.inr ⟨"(", by decide, by decide⟩)
  have hnone : candidates .default openedTwice 0 .text = [] := by
    decide +kernel
  have houtside : ¬InCandidate .default openedTwice 0 .text "t(".toList := by
    rintro ⟨candidate, hmem, -⟩
    rw [hnone] at hmem
    cases hmem
  refine ⟨hnames, hcall, hnone, houtside, ?_⟩
  by_contra hfree
  obtain ⟨candidate, hmem, -⟩ := (hcall.exists_candidate_iff hnames houtside).mpr hfree
  rw [hnone] at hmem
  cases hmem

end TemplateMessages.Call
