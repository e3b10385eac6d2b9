import Mathlib.Data.List.TakeWhile
import TemplateMessages.Proofs.Call.CandidateSpans
import TemplateMessages.Proofs.Expression.Feeding

set_option autoImplicit false

/-!
# The search for calls

The extraction goes through an expression from left to right: behind a head where one starts, and
behind one character where none does. Each candidate has its head at a place that the search comes
by, and ends at the parenthesis that closes its arguments.
-/

namespace TemplateMessages.Call

open TemplateMessages.Expression (Nesting findClosing balanced_of_findClosing)
open TemplateMessages.Text

@[simp] theorem mem_longestFirst {names : FunctionNames} {entry : String × Function} :
    entry ∈ names.longestFirst ↔ entry ∈ names :=
  List.mem_mergeSort

def IsLead (atStart : Bool) (lead : List Char) : Prop :=
  ∃ operator blanks, lead = operator ++ blanks ∧ isBlankText blanks = true ∧
    (atStart = true ∧ operator = [] ∨ ∃ listed ∈ operators, operator = listed.toList)

section

variable {names : FunctionNames} {text rest lead : List Char} {head : Head}

@[simp] theorem isBlankText_takeWhile (text : List Char) :
    isBlankText (text.takeWhile isBlank) = true :=
  List.all_eq_true.mpr fun _ hc => List.mem_takeWhile_imp hc

theorem of_headOf? (h : headOf? names lead text = some (head, rest)) :
    head.lead = lead ∧ (head.name, head.function) ∈ names ∧ isBlankText head.gap = true := by
  obtain ⟨⟨name, function⟩, hmem, found⟩ := List.exists_of_findSome?_eq_some h
  dsimp only at found
  unfold headNamed? at found
  split at found
  · dsimp only at found
    split at found
    · cases found
      exact ⟨rfl, hmem, isBlankText_takeWhile _⟩
    · cases found
  · cases found

theorem of_headAfterBlanks? {blanks : Nat} (hblanks : isBlankText (text.take blanks) = true)
    (h : headAfterBlanks? names lead text blanks = some (head, rest)) :
    (∃ more, head.lead = lead ++ more ∧ isBlankText more = true) ∧
      (head.name, head.function) ∈ names ∧ isBlankText head.gap = true := by
  induction blanks with
  | zero =>
    obtain ⟨hlead, hrest⟩ := of_headOf? h
    exact ⟨⟨[], by rw [hlead, List.append_nil], rfl⟩, hrest⟩
  | succ blanks ih =>
    rw [headAfterBlanks?] at h
    split at h
    · rename_i found heq
      obtain rfl : found = (head, rest) := Option.some.inj h
      obtain ⟨hlead, hrest⟩ := of_headOf? heq
      exact ⟨⟨_, hlead, hblanks⟩, hrest⟩
    · refine ih (List.all_eq_true.mpr fun c hc => ?_) h
      exact List.all_eq_true.mp hblanks c (List.take_subset_take_left text (Nat.le_succ _) hc)

theorem of_head? {atStart : Bool} (h : head? names atStart text = some (head, rest)) :
    IsLead atStart head.lead ∧ (head.name, head.function) ∈ names ∧
      isBlankText head.gap = true := by
  obtain ⟨operator, hoperator, found⟩ := List.exists_of_findSome?_eq_some h
  unfold headAfter? at found
  split at found
  · dsimp only at found
    have htake : ∀ rest : List Char,
        rest.take (rest.takeWhile isBlank).length = rest.takeWhile isBlank := fun rest =>
      (List.prefix_iff_eq_take.mp (List.takeWhile_prefix isBlank)).symm
    obtain ⟨⟨blanks, hlead, hblanks⟩, hrest⟩ :=
      of_headAfterBlanks? (by rw [htake]; exact isBlankText_takeWhile _) found
    refine ⟨⟨operator, blanks, hlead, hblanks, ?_⟩, hrest⟩
    have hlisted : operator ∈ operators.map String.toList →
        ∃ listed ∈ operators, operator = listed.toList := by
      intro hmem
      obtain ⟨listed, hlisted, rfl⟩ := List.mem_map.mp hmem
      exact ⟨listed, hlisted, rfl⟩
    cases atStart with
    | true =>
      rcases List.mem_cons.mp hoperator with rfl | hmem
      · exact .inl ⟨rfl, rfl⟩
      · exact .inr (hlisted hmem)
    | false => exact .inr (hlisted hoperator)
  · cases found

theorem Head.chars_ne_nil (head : Head) : head.chars ≠ [] := by
  simp [Head.chars]

end

section

/-- The search for calls in an expression comes by the place between two parts of it. -/
inductive Reaches (names : FunctionNames) (expression : List Char) :
    (front text : List Char) → Prop
  | start : Reaches names expression [] expression
  | skip {front cs : List Char} {c : Char} (here : Reaches names expression front (c :: cs))
      (none : head? names front.isEmpty (c :: cs) = none) :
      Reaches names expression (front ++ [c]) cs
  | past {front text rest : List Char} {head : Head} (here : Reaches names expression front text)
      (found : head? names front.isEmpty text = some (head, rest)) :
      Reaches names expression (front ++ head.chars) rest

structure Cursor.Behind (base : Nat) (front : List Char) (cursor : Cursor) : Prop where
  position : cursor.position = base + byteLength front
  atStart : cursor.atStart = front.isEmpty
  blankBefore : cursor.blankBefore = isBlankText front

variable {names : FunctionNames} {place : Place} {expression front text rest chars : List Char}
  {base : Nat} {cursor : Cursor} {head : Head} {candidate : Candidate}

theorem Reaches.append (h : Reaches names expression front text) : front ++ text = expression := by
  induction h with
  | start => rfl
  | skip _ _ ih => rw [List.append_assoc, List.singleton_append, ih]
  | past _ found ih => rw [List.append_assoc, append_of_head? found, ih]

theorem Reaches.takeBytes_eq {all : FunctionNames} {atStart : Bool}
    (h : Reaches names expression front text) (hhead : head? all atStart text = some (head, rest)) :
    takeBytes (byteLength (front ++ head.lead)) expression = front ++ head.lead := by
  have hsplit : expression =
      front ++ head.lead ++ (head.name.toList ++ head.gap ++ '(' :: rest) := by
    rw [← h.append, ← append_of_head? hhead]
    simp [Head.chars]
  rw [hsplit, takeBytes_byteLength_append]

namespace Cursor.Behind

theorem move (h : cursor.Behind base front) (hne : chars ≠ []) :
    (cursor.move chars).Behind base (front ++ chars) where
  position := by simp [Cursor.move, h.position, Nat.add_assoc]
  atStart := by simp [Cursor.move, hne]
  blankBefore := by simp [Cursor.move, h.blankBefore, isBlankText]

theorem withLastStop (h : cursor.Behind base front) (stop : Nat) :
    Cursor.Behind base front { cursor with lastStop := stop } :=
  ⟨h.position, h.atStart, h.blankBefore⟩

end Cursor.Behind

/-- The candidate with that head and these arguments. -/
def Head.call (head : Head) (place : Place) (start : Nat) (arguments : List Char)
    (sole : Bool) : Candidate :=
  let chars := head.name.toList ++ head.gap ++ '(' :: (arguments ++ [')'])
  { span := ⟨start, start + byteLength chars⟩
    content := String.ofList chars
    name := head.name
    function := head.function
    place := place
    sole := sole }

theorem of_candidate? (h : candidate? place cursor head rest = some candidate) :
    cursor.lastStop ≤ cursor.position ∧ (findClosing rest .round).isSome = true ∧
      ∃ arguments after, rest = arguments ++ ')' :: after ∧
        Nesting.empty.feedAll? arguments = some .empty ∧
        candidate = head.call place (cursor.position + byteLength head.lead) arguments
          (cursor.blankBefore && isBlankText head.lead && isBlankText after) := by
  unfold candidate? at h
  split at h
  · cases h
  · rename_i hposition
    obtain ⟨length, hclosing, rfl⟩ := Option.map_eq_some_iff.mp h
    refine ⟨Nat.le_of_not_lt hposition, by rw [hclosing]; rfl, ?_⟩
    obtain ⟨arguments, after, rfl, rfl, hbalanced⟩ := balanced_of_findClosing hclosing
    refine ⟨arguments, after, rfl, hbalanced, ?_⟩
    have hsplit : arguments ++ ')' :: after = (arguments ++ [')']) ++ after := by simp
    rw [hsplit, takeBytes_byteLength_append, dropBytes_byteLength_append]
    simp [Head.call, Nat.add_assoc]

theorem Cursor.Behind.start_of_candidate? (h : cursor.Behind base front)
    (hcall : candidate? place cursor head rest = some candidate) :
    candidate.span.start = base + byteLength (front ++ head.lead) := by
  obtain ⟨-, -, arguments, after, -, -, rfl⟩ := of_candidate? hcall
  rw [add_byteLength_append, ← h.position]
  rfl

theorem candidatesFrom_nil (h : head? names cursor.atStart [] = none) :
    candidatesFrom names place cursor [] = [] := by
  rw [candidatesFrom.eq_def]
  split
  · rfl
  · rename_i hsome
    rw [h] at hsome
    cases hsome

theorem candidatesFrom_skip {c : Char} {cs : List Char}
    (h : head? names cursor.atStart (c :: cs) = none) :
    candidatesFrom names place cursor (c :: cs) =
      candidatesFrom names place (cursor.move [c]) cs := by
  rw [candidatesFrom.eq_def]
  split
  · rfl
  · rename_i hsome
    rw [h] at hsome
    cases hsome

theorem candidatesFrom_past (h : head? names cursor.atStart text = some (head, rest))
    (hcall : candidate? place cursor head rest = none) :
    candidatesFrom names place cursor text =
      candidatesFrom names place (cursor.move head.chars) rest := by
  rw [candidatesFrom.eq_def]
  split
  · rename_i hnone
    rw [h] at hnone
    cases hnone
  · rename_i hsome
    rw [h] at hsome
    cases hsome
    simp only [hcall]

theorem candidatesFrom_call (h : head? names cursor.atStart text = some (head, rest))
    (hcall : candidate? place cursor head rest = some candidate) :
    candidatesFrom names place cursor text = candidate ::
      candidatesFrom names place { cursor.move head.chars with lastStop := candidate.span.stop }
        rest := by
  rw [candidatesFrom.eq_def]
  split
  · rename_i hnone
    rw [h] at hnone
    cases hnone
  · rename_i hsome
    rw [h] at hsome
    cases hsome
    simp only [hcall]

theorem exists_reaches_of_mem_candidatesFrom
    (h : candidate ∈ candidatesFrom names place cursor text) : ∀ {front : List Char},
    Reaches names expression front text → cursor.Behind base front →
      ∃ front text' head rest reached, Reaches names expression front text' ∧
        reached.Behind base front ∧ head? names front.isEmpty text' = some (head, rest) ∧
        candidate? place reached head rest = some candidate ∧
        cursor.lastStop ≤ reached.lastStop ∧
        ∀ other ∈ candidatesFrom names place cursor text,
          other.span.stop ≤ reached.lastStop ∨ candidate.span.start ≤ other.span.start := by
  fun_induction candidatesFrom names place cursor text with
  | case1 => cases h
  | case2 cursor c cs hnone ih =>
    intro front hreaches hcursor
    rw [hcursor.atStart] at hnone
    exact ih h (.skip hreaches hnone) (hcursor.move (List.cons_ne_nil _ _))
  | case3 cursor text head rest hhead _ next _ ih =>
    intro front hreaches hcursor
    rw [hcursor.atStart] at hhead
    exact ih h (.past hreaches hhead) (hcursor.move head.chars_ne_nil)
  | case4 cursor text head rest hhead _ next found hfound ih =>
    intro front hreaches hcursor
    rw [hcursor.atStart] at hhead
    have hstop := (covers_of_candidate? hfound).start_le_stop
    rcases List.mem_cons.mp h with rfl | hlater
    · refine ⟨front, text, head, rest, cursor, hreaches, hcursor, hhead, hfound, Nat.le_refl _, ?_⟩
      intro other hother
      rcases List.mem_cons.mp hother with rfl | hother
      · exact .inr (Nat.le_refl _)
      · exact .inr (hstop.trans (le_start_of_mem_candidatesFrom hother))
    · obtain ⟨front', text', head', rest', reached, hreaches', hreached, hhead', hcall, hle, hall⟩ :=
        ih hlater (.past hreaches hhead) ((hcursor.move head.chars_ne_nil).withLastStop _)
      refine ⟨front', text', head', rest', reached, hreaches', hreached, hhead', hcall, ?_, ?_⟩
      · exact ((le_start_of_candidate? hfound).trans hstop).trans hle
      · intro other hother
        rcases List.mem_cons.mp hother with rfl | hother
        · exact .inl hle
        · exact hall other hother

theorem exists_reaches_of_mem_candidates (h : candidate ∈ candidates names expression base place) :
    ∃ front text head rest cursor, Reaches names.longestFirst expression front text ∧
      cursor.Behind base front ∧ head? names.longestFirst front.isEmpty text = some (head, rest) ∧
      candidate? place cursor head rest = some candidate ∧
      ∀ other ∈ candidates names expression base place,
        other.span.stop ≤ cursor.lastStop ∨ candidate.span.start ≤ other.span.start := by
  unfold candidates at h ⊢
  split at h
  · cases h
  · rename_i hnames
    rw [if_neg hnames]
    obtain ⟨front, text, head, rest, cursor, hreaches, hcursor, hhead, hcall, -, hall⟩ :=
      exists_reaches_of_mem_candidatesFrom h .start ⟨rfl, rfl, rfl⟩
    exact ⟨front, text, head, rest, cursor, hreaches, hcursor, hhead, hcall, hall⟩

/-- Where the search comes by, the candidates in front are found, and the last stop is the one of a
candidate in front. -/
theorem Reaches.exists_cursor (h : Reaches names expression front text) (place : Place)
    (base : Nat) :
    ∃ done cursor, cursor.Behind base front ∧
      candidatesFrom names place ⟨base, true, true, 0⟩ expression =
        done ++ candidatesFrom names place cursor text ∧
      (cursor.lastStop = 0 ∨ ∃ candidate ∈ done,
        candidate.span.start < cursor.position ∧ candidate.span.stop = cursor.lastStop) := by
  induction h with
  | start => exact ⟨[], _, ⟨rfl, rfl, rfl⟩, rfl, .inl rfl⟩
  | @skip front cs c _ hnone ih =>
    obtain ⟨done, cursor, hcursor, hfrom, hlast⟩ := ih
    rw [← hcursor.atStart] at hnone
    rw [candidatesFrom_skip hnone] at hfrom
    refine ⟨done, cursor.move [c], hcursor.move (List.cons_ne_nil _ _), hfrom, ?_⟩
    exact hlast.imp id fun ⟨candidate, hmem, hstart, hstop⟩ =>
      ⟨candidate, hmem, Nat.lt_add_right _ hstart, hstop⟩
  | @past front text rest head _ hhead ih =>
    obtain ⟨done, cursor, hcursor, hfrom, hlast⟩ := ih
    rw [← hcursor.atStart] at hhead
    cases hcall : candidate? place cursor head rest with
    | none =>
      rw [candidatesFrom_past hhead hcall] at hfrom
      refine ⟨done, cursor.move head.chars, hcursor.move head.chars_ne_nil, hfrom, ?_⟩
      exact hlast.imp id fun ⟨candidate, hmem, hstart, hstop⟩ =>
        ⟨candidate, hmem, Nat.lt_add_right _ hstart, hstop⟩
    | some found =>
      rw [candidatesFrom_call hhead hcall] at hfrom
      refine ⟨done ++ [found], _, (hcursor.move head.chars_ne_nil).withLastStop found.span.stop,
        by rw [hfrom, List.append_cons], .inr ⟨found, by simp, ?_, rfl⟩⟩
      have hpos : 0 < byteLength ['('] := by decide
      rw [hcursor.start_of_candidate? hcall]
      simp only [Cursor.move, Head.chars, byteLength_append, hcursor.position]
      omega

theorem Reaches.candidate_or_inside (h : Reaches names.longestFirst expression front text)
    (hhead : head? names.longestFirst front.isEmpty text = some (head, rest))
    (hclosing : findClosing rest .round ≠ none) :
    (∃ candidate ∈ candidates names expression base place,
      candidate.span.start = base + byteLength (front ++ head.lead)) ∨
      ∃ candidate ∈ candidates names expression base place,
        candidate.span.start < base + byteLength front ∧
          base + byteLength front < candidate.span.stop := by
  have hnames : names.isEmpty = false := by
    cases names with
    | nil => cases mem_longestFirst.mp (of_head? hhead).2.1
    | cons => rfl
  obtain ⟨done, cursor, hcursor, hfrom, hlast⟩ := h.exists_cursor place base
  rw [candidates, hnames, if_neg Bool.false_ne_true, hfrom]
  rw [← hcursor.position]
  by_cases hposition : cursor.position < cursor.lastStop
  · right
    rcases hlast with hzero | ⟨candidate, hmem, hstart, hstop⟩
    · omega
    · exact ⟨candidate, List.mem_append_left _ hmem, hstart, hstop ▸ hposition⟩
  · left
    obtain ⟨length, hlength⟩ := Option.ne_none_iff_exists'.mp hclosing
    obtain ⟨found, hcall⟩ : ∃ found, candidate? place cursor head rest = some found := by
      simp [candidate?, hposition, hlength]
    refine ⟨found, List.mem_append_right _ ?_, ?_⟩
    · rw [candidatesFrom_call (hcursor.atStart ▸ hhead) hcall]
      exact List.mem_cons_self
    · exact hcursor.start_of_candidate? hcall

end

section

variable {names : FunctionNames} {place : Place} {expression : List Char} {base : Nat}
  {candidate : Candidate}

theorem blank_around_of_sole (h : candidate ∈ candidates names expression base place)
    (hsole : candidate.sole = true) :
    ∃ before after, before ++ candidate.content.toList ++ after = expression ∧
      isBlankText before = true ∧ isBlankText after = true ∧
      candidate.span.start = base + byteLength before := by
  obtain ⟨front, text, head, rest, cursor, hreaches, hcursor, hhead, hcall, -⟩ :=
    exists_reaches_of_mem_candidates h
  have hstart := hcursor.start_of_candidate? hcall
  obtain ⟨-, -, arguments, after, rfl, -, rfl⟩ := of_candidate? hcall
  obtain ⟨⟨hblank, hlead⟩, hafter⟩ : (isBlankText front = true ∧ isBlankText head.lead = true) ∧
      isBlankText after = true := by
    simpa only [Head.call, Bool.and_eq_true, hcursor.blankBefore] using hsole
  refine ⟨front ++ head.lead, after, ?_, ?_, hafter, hstart⟩
  · rw [← hreaches.append, ← append_of_head? hhead]
    simp [Head.call, Head.chars]
  · rw [isBlankText, List.all_append, Bool.and_eq_true]
    exact ⟨hblank, hlead⟩

theorem parenthesis_mem_content (h : candidate ∈ candidates names expression base place) :
    '(' ∈ candidate.content.toList := by
  obtain ⟨front, text, head, rest, cursor, -, -, -, hcall, -⟩ :=
    exists_reaches_of_mem_candidates h
  obtain ⟨-, -, arguments, after, -, -, rfl⟩ := of_candidate? hcall
  simp [Head.call]

theorem not_covers_of_blank {other : Candidate} {position : Nat} {blanks : List Char}
    (h : other ∈ candidates names expression base place) (hblank : isBlankText blanks = true) :
    ¬Covers position blanks other.span other.content.toList := by
  rintro ⟨front, rest, rfl, -⟩
  have hparenthesis := List.all_eq_true.mp hblank '(' (by simp [parenthesis_mem_content h])
  exact absurd hparenthesis (by decide)

theorem candidates_eq_singleton (h : candidate ∈ candidates names expression base place)
    (hsole : candidate.sole = true) : candidates names expression base place = [candidate] := by
  obtain ⟨before, after, hexpression, hbefore, hafter, hstart⟩ := blank_around_of_sole h hsole
  have hstop := (covers_of_mem_candidates h).stop_eq
  obtain ⟨done, later, hall⟩ := List.append_of_mem h
  have hascending : (candidates names expression base place).Pairwise
      fun a b => a.span.stop ≤ b.span.start := candidates_ascending
  rw [hall, List.pairwise_append, List.pairwise_cons] at hascending
  have hcovers : ∀ other ∈ done ++ candidate :: later,
      other ∈ candidates names expression base place ∧
        Covers base expression other.span other.content.toList := by
    intro other hother
    rw [← hall] at hother
    exact ⟨hother, covers_of_mem_candidates hother⟩
  have hdone : done = [] := by
    refine List.eq_nil_iff_forall_not_mem.mpr fun other hother => ?_
    have hle := hascending.2.2 other hother candidate List.mem_cons_self
    obtain ⟨hmem, hother⟩ := hcovers other (List.mem_append_left _ hother)
    rw [← hexpression, List.append_assoc] at hother
    exact not_covers_of_blank hmem hbefore (hother.of_before (hstart ▸ hle))
  have hlater : later = [] := by
    refine List.eq_nil_iff_forall_not_mem.mpr fun other hother => ?_
    have hle := hascending.2.1.1 other hother
    obtain ⟨hmem, hother⟩ :=
      hcovers other (List.mem_append_right _ (List.mem_cons_of_mem _ hother))
    rw [← hexpression] at hother
    refine not_covers_of_blank hmem hafter (hother.of_behind ?_)
    simp
    omega
  rw [hall, hdone, hlater, List.nil_append]

end

section

open TemplateMessages.Expression (Quote)

/-- Behind this text a string in single or double quotes is open. The search looks for a call behind
an operator wherever that stands: it follows the strings of an expression in the arguments of a call
only. -/
def InString (front : List Char) : Prop :=
  (Nesting.empty.feedAll front).quote = some .single ∨
    (Nesting.empty.feedAll front).quote = some .double

instance (front : List Char) : Decidable (InString front) :=
  inferInstanceAs (Decidable (_ ∨ _))

variable {front lead : List Char}

theorem ofChar?_of_isBlank {c : Char} (h : isBlank c = true) : Quote.ofChar? c = none := by
  unfold Quote.ofChar?
  split_ifs with hsingle hdouble hback
  · subst hsingle
    exact absurd h (by decide)
  · subst hdouble
    exact absurd h (by decide)
  · subst hback
    exact absurd h (by decide)
  · rfl

theorem ofChar?_of_isLead {atStart : Bool} (h : IsLead atStart lead) :
    ∀ c ∈ lead, Quote.ofChar? c = none := by
  obtain ⟨operator, blanks, rfl, hblanks, hoperator⟩ := h
  intro c hc
  rcases List.mem_append.mp hc with hc | hc
  · rcases hoperator with ⟨-, rfl⟩ | ⟨listed, hlisted, rfl⟩
    · cases hc
    · have hall : ∀ listed ∈ operators,
          (listed.toList.all fun c => (Quote.ofChar? c).isNone) = true := by
        decide
      exact Option.isNone_iff_eq_none.mp (List.all_eq_true.mp (hall listed hlisted) c hc)
  · exact ofChar?_of_isBlank (List.all_eq_true.mp hblanks c hc)

theorem inString_append_iff {atStart : Bool} (h : IsLead atStart lead) :
    InString (front ++ lead) ↔ InString front := by
  unfold InString
  simp [Nesting.quote_feedAll _ (ofChar?_of_isLead h)]

/-- No candidate starts in a string just when every head of a call that the search meets in a string
has no closed arguments or is inside a candidate. -/
theorem candidates_outside_strings_iff (names : FunctionNames) (expression : List Char) (base : Nat)
    (place : Place) :
    (∀ candidate ∈ candidates names expression base place,
        ¬InString (takeBytes (candidate.span.start - base) expression)) ↔
      ∀ front text head rest, Reaches names.longestFirst expression front text →
        head? names.longestFirst front.isEmpty text = some (head, rest) → InString front →
          findClosing rest .round = none ∨
            ∃ candidate ∈ candidates names expression base place,
              candidate.span.start < base + byteLength front ∧
                base + byteLength front < candidate.span.stop := by
  constructor
  · intro houtside front text head rest hreaches hhead hstring
    by_cases hclosing : findClosing rest .round = none
    · exact .inl hclosing
    · refine .inr ((hreaches.candidate_or_inside hhead hclosing).resolve_left ?_)
      rintro ⟨candidate, hmem, hstart⟩
      refine houtside candidate hmem ?_
      rw [hstart, Nat.add_sub_cancel_left, hreaches.takeBytes_eq hhead]
      exact (inString_append_iff (of_head? hhead).1).mpr hstring
  · intro hheads candidate hmem hstring
    obtain ⟨front, text, head, rest, cursor, hreaches, hcursor, hhead, hcall, hall⟩ :=
      exists_reaches_of_mem_candidates hmem
    have hstart := hcursor.start_of_candidate? hcall
    rw [hstart, Nat.add_sub_cancel_left, hreaches.takeBytes_eq hhead,
      inString_append_iff (of_head? hhead).1] at hstring
    obtain ⟨hposition, hclosing, -⟩ := of_candidate? hcall
    rcases hheads front text head rest hreaches hhead hstring with
      hnone | ⟨other, hother, hbefore, hbehind⟩
    · rw [hnone] at hclosing
      cases hclosing
    · -- the candidates in front stop in front of the head, and the others start behind it
      rw [byteLength_append] at hstart
      have hfront := hcursor.position
      rcases hall other hother with hle | hle <;> omega

/-- A call that is the end of a string. -/
def quotedCall : List Char :=
  "'a + t(b)'".toList

theorem candidates_outside_strings_iff_quotedCall :
    (∃ candidate ∈ candidates .default quotedCall 0 .text,
        candidate.content = "t(b)" ∧
          InString (takeBytes (candidate.span.start - 0) quotedCall)) ∧
      ∃ front text head rest, Reaches FunctionNames.default.longestFirst quotedCall front text ∧
        head? FunctionNames.default.longestFirst front.isEmpty text = some (head, rest) ∧
          InString front := by
  have hstring : ∃ candidate ∈ candidates .default quotedCall 0 .text,
      candidate.content = "t(b)" ∧
        InString (takeBytes (candidate.span.start - 0) quotedCall) := by
    decide +kernel
  refine ⟨hstring, ?_⟩
  obtain ⟨candidate, hmem, -, hinside⟩ := hstring
  by_contra hnone
  refine (candidates_outside_strings_iff .default quotedCall 0 .text).mpr ?_ candidate hmem hinside
  intro front text head rest hreaches hhead hfront
  exact absurd ⟨front, text, head, rest, hreaches, hhead, hfront⟩ hnone

end

end TemplateMessages.Call
