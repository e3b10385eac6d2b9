import Mathlib.Data.List.DropRight
import TemplateMessages.Proofs.Text.Validity

set_option autoImplicit false

/-!
# Locations

A position between two parts of a text is on the last line of the first part. Its line is counted by
the line breaks in front of it, its column by the characters of that last line, and the text of the
line is that last line with the first line of the second part behind it.
-/

namespace TemplateMessages.Text

/-- What stands behind the last line break. -/
def lastLine (text : List Char) : List Char :=
  text.rtakeWhile (· ≠ '\n')

/-- What stands up to the last line break, and with it. -/
def earlierLines (text : List Char) : List Char :=
  text.rdropWhile (· ≠ '\n')

/-- What stands in front of the first line break. -/
def firstLine (text : List Char) : List Char :=
  text.takeWhile (· ≠ '\n')

variable {text front rest source : List Char}

@[simp] theorem earlierLines_append_lastLine (text : List Char) :
    earlierLines text ++ lastLine text = text :=
  List.rdropWhile_append_rtakeWhile

theorem not_mem_lastLine (text : List Char) : '\n' ∉ lastLine text := by
  intro hmem
  have hother := List.mem_rtakeWhile_imp hmem
  exact of_decide_eq_true hother rfl

theorem not_mem_firstLine (text : List Char) : '\n' ∉ firstLine text := by
  intro hmem
  have hother := List.mem_takeWhile_imp hmem
  exact of_decide_eq_true hother rfl

theorem lastLine_append {gap : List Char} (h : '\n' ∉ gap) :
    lastLine (front ++ gap) = lastLine front ++ gap := by
  have hall : ∀ c ∈ gap.reverse, decide (c ≠ '\n') = true := by
    intro c hc
    refine decide_eq_true ?_
    rintro rfl
    exact h (List.mem_reverse.mp hc)
  unfold lastLine List.rtakeWhile
  rw [List.reverse_append, List.takeWhile_append_of_pos hall, List.reverse_append,
    List.reverse_reverse]

theorem earlierLines_cases (text : List Char) :
    earlierLines text = [] ∨ ∃ lines, earlierLines text = lines ++ ['\n'] := by
  by_cases hnil : earlierLines text = []
  · exact .inl hnil
  · right
    have hlast := List.rdropWhile_last_not (fun c => decide (c ≠ '\n')) text hnil
    simp only [decide_eq_true_eq, not_not] at hlast
    refine ⟨(earlierLines text).dropLast, ?_⟩
    rw [← hlast]
    exact (List.dropLast_append_getLast hnil).symm

theorem exists_behind_firstLine (text : List Char) :
    ∃ behind, text = firstLine text ++ behind ∧ (behind = [] ∨ ∃ more, behind = '\n' :: more) := by
  refine ⟨text.dropWhile (· ≠ '\n'), List.takeWhile_append_dropWhile.symm, ?_⟩
  cases hbehind : text.dropWhile (· ≠ '\n') with
  | nil => exact .inl rfl
  | cons c more =>
    have hbreak := List.head_dropWhile_not (fun c => decide (c ≠ '\n'))
      (by rw [hbehind]; exact List.cons_ne_nil _ _)
    simp only [hbehind, List.head_cons, decide_eq_false_iff_not, ne_eq, not_not] at hbreak
    exact .inr ⟨more, by rw [hbreak]⟩

theorem takeWhile_le_append {bound : Nat} {xs ys : List Nat} (h : ∀ x ∈ xs, x ≤ bound)
    (h' : ∀ y ∈ ys, bound < y) : (xs ++ ys).takeWhile (· ≤ bound) = xs := by
  rw [List.takeWhile_append_of_pos fun x hx => decide_eq_true (h x hx)]
  cases ys with
  | nil => rw [List.takeWhile_nil, List.append_nil]
  | cons y ys =>
    have hy := h' y List.mem_cons_self
    rw [List.takeWhile_cons_of_neg (by simpa using hy), List.append_nil]

@[simp] theorem lineStartsFrom_append (position : Nat) (front rest : List Char) :
    lineStartsFrom position (front ++ rest) =
      lineStartsFrom position front ++ lineStartsFrom (position + byteLength front) rest := by
  induction front generalizing position with
  | nil => rfl
  | cons c cs ih =>
    simp only [List.cons_append, lineStartsFrom, ih, byteLength, Nat.add_assoc]
    split <;> rfl

@[simp] theorem length_lineStartsFrom (position : Nat) (text : List Char) :
    (lineStartsFrom position text).length = text.count '\n' := by
  induction text generalizing position with
  | nil => rfl
  | cons c cs ih =>
    rw [lineStartsFrom, List.count_cons]
    by_cases hbreak : c = '\n' <;> simp [hbreak, ih]

theorem lineStartsFrom_of_not_mem (position : Nat) (h : '\n' ∉ text) :
    lineStartsFrom position text = [] := by
  simp [← List.length_eq_zero_iff, List.count_eq_zero_of_not_mem h]

namespace LineIndex

@[simp] theorem starts_append (front rest : List Char) :
    (ofText (front ++ rest)).starts =
      (ofText front).starts ++ lineStartsFrom (byteLength front) rest := by
  simp [ofText]

@[simp] theorem length_starts (text : List Char) :
    (ofText text).starts.length = text.count '\n' + 1 :=
  congrArg (· + 1) (length_lineStartsFrom 0 text)

@[simp] theorem getLast?_starts (text : List Char) :
    (ofText text).starts.getLast? = some (byteLength (earlierLines text)) := by
  have hstarts := starts_append (earlierLines text) (lastLine text)
  rw [earlierLines_append_lastLine, lineStartsFrom_of_not_mem _ (not_mem_lastLine text),
    List.append_nil] at hstarts
  rw [hstarts]
  rcases earlierLines_cases text with hnil | ⟨lines, hlines⟩
  · rw [hnil]
    rfl
  · rw [hlines, starts_append, byteLength_append]
    exact List.getLast?_concat ..

theorem takeWhile_starts (front rest : List Char) :
    (ofText (front ++ rest)).starts.takeWhile (· ≤ byteLength front) = (ofText front).starts := by
  rw [starts_append]
  refine takeWhile_le_append (fun start hstart => (isBoundary_of_mem_starts hstart).le) ?_
  intro start hstart
  obtain ⟨before, _, _, rfl⟩ := cut_of_mem_lineStartsFrom hstart
  omega

@[simp] theorem location_eq (front rest : List Char) :
    (ofText (front ++ rest)).location (front ++ rest) (byteLength front) =
      ⟨front.count '\n' + 1, (lastLine front).length + 1⟩ := by
  have hcolumn : ((ofText (front ++ rest)).columnSpan (byteLength front)).slice (front ++ rest) =
      lastLine front := by
    refine Covers.slice_eq ⟨earlierLines front, rest, ?_, ?_⟩
    · simp
    · rw [columnSpan, takeWhile_starts, List.getLastD_eq_getLast?, getLast?_starts,
        Option.getD_some, Nat.zero_add, ← byteLength_append, earlierLines_append_lastLine]
  have hline : ((ofText (front ++ rest)).location (front ++ rest) (byteLength front)).line =
      front.count '\n' + 1 := by
    rw [← length_starts, ← takeWhile_starts front rest]
    rfl
  rw [← hline, ← hcolumn, ← column_location]

theorem lineSpan?_eq (front rest : List Char) :
    (ofText (front ++ rest)).lineSpan? (byteLength (front ++ rest)) (front.count '\n' + 1) =
      some ⟨byteLength (earlierLines front), byteLength (front ++ firstLine rest)⟩ := by
  have hlength := length_starts front
  have hstart : (ofText (front ++ rest)).starts[front.count '\n']? =
      some (byteLength (earlierLines front)) := by
    rw [starts_append, List.getElem?_append_left (by omega), ← getLast?_starts,
      List.getLast?_eq_getElem?, hlength, Nat.add_sub_cancel]
  have hnext : (ofText (front ++ rest)).starts[front.count '\n' + 1]? =
      (lineStartsFrom (byteLength front) rest)[0]? := by
    rw [starts_append, List.getElem?_append_right (by omega), hlength, Nat.sub_self]
  obtain ⟨behind, hrest, hbehind⟩ := exists_behind_firstLine rest
  have hstarts : lineStartsFrom (byteLength front) rest =
      lineStartsFrom (byteLength (front ++ firstLine rest)) behind := by
    conv => lhs; rw [hrest]
    rw [lineStartsFrom_append, lineStartsFrom_of_not_mem _ (not_mem_firstLine rest),
      List.nil_append, ← byteLength_append]
  rw [lineSpan?, hstart, hnext, hstarts, Option.map_some]
  rcases hbehind with rfl | ⟨more, rfl⟩
  · rw [List.append_nil] at hrest
    rw [← hrest]
    rfl
  · rfl

theorem lineText_eq_lines (front rest : List Char) :
    (ofText (front ++ rest)).lineText (front ++ rest) (front.count '\n' + 1) =
      (lastLine front ++ firstLine rest).rdropWhile (· = '\r') := by
  obtain ⟨behind, hrest, _⟩ := exists_behind_firstLine rest
  have hcovers : Covers 0 (front ++ rest)
      ⟨byteLength (earlierLines front), byteLength (front ++ firstLine rest)⟩
      (lastLine front ++ firstLine rest) := by
    refine ⟨earlierLines front, behind, ?_, ?_⟩
    · rw [← List.append_assoc, earlierLines_append_lastLine, List.append_assoc, ← hrest]
    · rw [Nat.zero_add, ← byteLength_append, ← List.append_assoc, earlierLines_append_lastLine]
  rw [lineText_eq, lineSpan?_eq, Option.elim_some, hcovers.slice_eq]
  rfl

/-- What a binary search of the line starts answers: the place of the position, or the place to put
it at. -/
inductive Finds (index : LineIndex) (position : Nat) : Except Nat Nat → Prop
  | found {place : Nat} (here : index.starts[place]? = some position) :
      Finds index position (.ok place)
  | missing {place : Nat} (within : place ≤ index.starts.length)
      (before : ∀ start ∈ index.starts.take place, start < position)
      (behind : ∀ start ∈ index.starts.drop place, position < start) :
      Finds index position (.error place)

/-- The number of the line that the answer of the search stands for. -/
def lineOf : Except Nat Nat → Nat
  | .ok place => place + 1
  | .error place => place

theorem Finds.line_eq {position : Nat} {answer : Except Nat Nat}
    (h : (ofText source).Finds position answer) :
    ((ofText source).location source position).line = lineOf answer := by
  have hcut : ∀ place ≤ (ofText source).starts.length,
      (∀ start ∈ (ofText source).starts.take place, start ≤ position) →
      (∀ start ∈ (ofText source).starts.drop place, position < start) →
      ((ofText source).location source position).line = place := by
    intro place hle hbefore hbehind
    have htake := takeWhile_le_append hbefore hbehind
    rw [List.take_append_drop] at htake
    rw [location, htake, List.length_take_of_le hle]
  cases h with
  | @found place here =>
    obtain ⟨hplace, rfl⟩ := List.getElem?_eq_some_iff.mp here
    have hascending := List.pairwise_iff_getElem.mp (starts_ascending source)
    refine hcut (place + 1) hplace ?_ ?_
    · intro start hstart
      obtain ⟨i, hi, rfl⟩ := List.getElem_of_mem hstart
      rw [List.length_take] at hi
      rw [List.getElem_take]
      rcases Nat.lt_or_eq_of_le (show i ≤ place by omega) with hlt | rfl
      · exact Nat.le_of_lt (hascending _ _ _ _ hlt)
      · exact Nat.le_refl _
    · intro start hstart
      obtain ⟨i, hi, rfl⟩ := List.getElem_of_mem hstart
      rw [List.getElem_drop]
      exact hascending _ _ _ _ (by omega)
  | missing within before behind =>
    exact hcut _ within (fun start hstart => Nat.le_of_lt (before start hstart)) behind

end LineIndex

@[simp] theorem Location.le_iff {a b : Location} : a.le b = true ↔
    a.line < b.line ∨ a.line = b.line ∧ a.column ≤ b.column := by
  simp only [Location.le, Bool.or_eq_true, Bool.and_eq_true, decide_eq_true_eq, beq_iff_eq]

theorem Location.le_trans {a b c : Location} (h : a.le b = true) (h' : b.le c = true) :
    a.le c = true := by
  simp at *
  omega

theorem Location.le_total (a b : Location) : (a.le b || b.le a) = true := by
  simp
  omega

namespace LineIndex

theorem not_location_le {position later : Nat} (h : IsBoundary source position)
    (h' : IsBoundary source later) (hlt : position < later) :
    ¬ ((ofText source).location source later).le ((ofText source).location source position) =
      true := by
  have hvalid : (⟨position, later⟩ : Span).Valid source := .of_boundaries (Nat.le_of_lt hlt) h h'
  obtain ⟨gap, front, rest, rfl, hspan⟩ := hvalid.exists_covers
  obtain ⟨rfl, rfl⟩ := Span.mk.inj hspan
  rw [Nat.zero_add, ← byteLength_append, location_eq, List.append_assoc, location_eq,
    Location.le_iff]
  dsimp only
  by_cases hbreak : '\n' ∈ gap
  · have hcount := List.count_pos_iff.mpr hbreak
    rw [List.count_append]
    omega
  · have hne : gap ≠ [] := by
      rintro rfl
      exact absurd hlt (Nat.lt_irrefl _)
    have hlength := List.length_pos_of_ne_nil hne
    rw [List.count_append, List.count_eq_zero_of_not_mem hbreak, lastLine_append hbreak,
      List.length_append]
    omega

theorem location_le_iff {a b : Nat} (ha : IsBoundary source a) (hb : IsBoundary source b) :
    ((ofText source).location source a).le ((ofText source).location source b) = true ↔ a ≤ b := by
  constructor
  · intro hle
    by_contra hlt
    exact not_location_le hb ha (Nat.lt_of_not_le hlt) hle
  · intro hle
    rcases Nat.lt_or_eq_of_le hle with hlt | rfl
    · have htotal := Location.le_total ((ofText source).location source a)
        ((ofText source).location source b)
      rw [Bool.or_eq_true] at htotal
      exact htotal.resolve_right (not_location_le ha hb hlt)
    · exact Location.le_iff.mpr (Or.inr ⟨rfl, Nat.le_refl _⟩)

theorem location_inj {a b : Nat} (ha : IsBoundary source a) (hb : IsBoundary source b) :
    (ofText source).location source a = (ofText source).location source b ↔ a = b := by
  constructor
  · intro hsame
    have hrefl : ((ofText source).location source a).le ((ofText source).location source a) = true :=
      (location_le_iff ha ha).mpr (Nat.le_refl a)
    refine Nat.le_antisymm ((location_le_iff ha hb).mp ?_) ((location_le_iff hb ha).mp ?_)
    · rwa [← hsame]
    · rwa [← hsame]
  · rintro rfl
    rfl

end LineIndex

end TemplateMessages.Text
