import TemplateMessages.Proofs.Text.Placement
import TemplateMessages.Text.Edit
import TemplateMessages.Text.Lines

set_option autoImplicit false

/-!
# Valid spans

A text can be cut at a span when the span does not stop in front of its start and both ends are on
boundaries of characters. Every span that covers something is valid, and all slices that lines and
columns are counted with are.
-/

namespace TemplateMessages.Text

/-- Between two characters of the text in UTF-8, or at one of its ends. -/
def IsBoundary (source : List Char) (position : Nat) : Prop :=
  (⟨position⟩ : String.Pos.Raw).IsValid (String.ofList source)

instance (source : List Char) (position : Nat) : Decidable (IsBoundary source position) :=
  inferInstanceAs (Decidable (String.Pos.Raw.IsValid _ _))

/-- The span can be sliced. -/
structure Span.Valid (source : List Char) (span : Span) : Prop where
  ordered : span.start ≤ span.stop
  inBounds : span.stop ≤ byteLength source
  start : IsBoundary source span.start
  stop : IsBoundary source span.stop

@[simp] theorem utf8ByteSize_ofList (source : List Char) :
    (String.ofList source).utf8ByteSize = byteLength source := by
  induction source with
  | nil => rfl
  | cons c cs ih =>
    rw [String.ofList_cons, String.utf8ByteSize_append, ih]
    simp

theorem isBoundary_iff {source : List Char} {position : Nat} :
    IsBoundary source position ↔ ∃ front rest, front ++ rest = source ∧
      byteLength front = position := by
  unfold IsBoundary
  rw [String.Pos.Raw.isValid_iff_exists_append]
  constructor
  · rintro ⟨front, rest, hsource, hposition⟩
    refine ⟨front.toList, rest.toList, ?_, ?_⟩
    · rw [← String.toList_append, ← hsource, String.toList_ofList]
    · have hsize := congrArg String.Pos.Raw.byteIdx hposition
      rw [← utf8ByteSize_ofList, String.ofList_toList]
      exact hsize.symm
  · rintro ⟨front, rest, rfl, rfl⟩
    refine ⟨String.ofList front, String.ofList rest, String.ofList_append, ?_⟩
    rw [← utf8ByteSize_ofList]
    rfl

theorem IsBoundary.le {source : List Char} {position : Nat} (h : IsBoundary source position) :
    position ≤ byteLength source := by
  obtain ⟨front, rest, rfl, rfl⟩ := isBoundary_iff.mp h
  rw [byteLength_append]
  exact Nat.le_add_right _ _

theorem isBoundary_zero (source : List Char) : IsBoundary source 0 :=
  isBoundary_iff.mpr ⟨[], source, rfl, rfl⟩

theorem isBoundary_byteLength (source : List Char) : IsBoundary source (byteLength source) :=
  isBoundary_iff.mpr ⟨source, [], List.append_nil source, rfl⟩

variable {source chars : List Char} {span : Span}

theorem Span.Valid.of_boundaries (hle : span.start ≤ span.stop)
    (hstart : IsBoundary source span.start) (hstop : IsBoundary source span.stop) :
    span.Valid source :=
  ⟨hle, hstop.le, hstart, hstop⟩

theorem Covers.valid (h : Covers 0 source span chars) : span.Valid source := by
  obtain ⟨front, rest, rfl, rfl⟩ := h
  refine .of_boundaries (Nat.le_add_right _ _) ?_ ?_
  · exact isBoundary_iff.mpr ⟨front, chars ++ rest, by simp, by simp⟩
  · exact isBoundary_iff.mpr ⟨front ++ chars, rest, rfl, by simp⟩

theorem Span.Valid.exists_covers (h : span.Valid source) : ∃ chars, Covers 0 source span chars := by
  obtain ⟨front, rest, hfront, hstart⟩ := isBoundary_iff.mp h.start
  obtain ⟨upTo, after, hupTo, hstop⟩ := isBoundary_iff.mp h.stop
  have hlonger : ∃ chars, upTo = front ++ chars := by
    rcases List.append_eq_append_iff.mp (hfront.trans hupTo.symm) with
      ⟨gap, hgap, _⟩ | ⟨gap, hgap, _⟩
    · exact ⟨gap, hgap⟩
    · have hlength := h.ordered
      rw [← hstart, ← hstop, hgap, byteLength_append] at hlength
      have hnil : gap = [] := eq_nil_of_byteLength_eq_zero (by omega)
      exact ⟨[], by rw [hgap, hnil, List.append_nil, List.append_nil]⟩
  obtain ⟨chars, rfl⟩ := hlonger
  rw [byteLength_append] at hstop
  refine ⟨chars, front, after, hupTo, ?_⟩
  rw [Nat.zero_add, hstop, hstart]

theorem Span.Valid.covers_slice (h : span.Valid source) :
    Covers 0 source span (span.slice source) := by
  obtain ⟨chars, hchars⟩ := h.exists_covers
  rwa [hchars.slice_eq]

/-- Between two characters of the span. -/
structure IsInside (source : List Char) (span : Span) (position : Nat) : Prop where
  boundary : IsBoundary source position
  start_lt : span.start < position
  lt_stop : position < span.stop

theorem IsInside.exists_cut {position : Nat} (h : IsInside source span position)
    (hcovers : Covers 0 source span chars) :
    ∃ front back, front ++ back = chars ∧ front ≠ [] ∧ back ≠ [] ∧
      span.start + byteLength front = position := by
  have hbefore := h.start_lt
  have hbehind := h.lt_stop
  have hvalid : (⟨span.start, position⟩ : Span).Valid source :=
    .of_boundaries (Nat.le_of_lt hbefore) hcovers.valid.start h.boundary
  obtain ⟨front, hfront⟩ := hvalid.exists_covers
  obtain ⟨gap, back, rfl, hspan⟩ :=
    hcovers.inside hfront ⟨Nat.le_refl _, Nat.le_of_lt hbehind⟩
  obtain ⟨-, hposition⟩ := Span.mk.inj hspan
  rw [hcovers.stop_eq, byteLength_append] at hbehind
  rw [← add_byteLength_append] at hposition
  refine ⟨gap ++ front, back, rfl, ?_, ?_, hposition.symm⟩
  · intro hnil
    rw [hnil, byteLength] at hposition
    omega
  · intro hnil
    rw [hnil, byteLength] at hbehind
    omega

theorem Covers.tail {base position stop : Nat} {text front rest : List Char}
    (h : Covers base text ⟨position, stop⟩ (front ++ rest)) :
    Covers base text ⟨position + byteLength front, stop⟩ rest := by
  obtain rfl : stop = position + byteLength (front ++ rest) := h.stop_eq
  rw [add_byteLength_append]
  exact h.split.2

theorem Covers.valid_movedBack {base : Nat} {text : List Char} (h : Covers base text span chars) :
    (⟨span.start - base, span.stop - base⟩ : Span).Valid text := by
  obtain ⟨front, rest, rfl, rfl⟩ := h
  have hmoved : Covers 0 (front ++ chars ++ rest)
      ⟨byteLength front, byteLength front + byteLength chars⟩ chars :=
    ⟨front, rest, rfl, by rw [Nat.zero_add]⟩
  dsimp only
  rw [Nat.add_assoc, Nat.add_sub_cancel_left, Nat.add_sub_cancel_left]
  exact hmoved.valid

theorem slice_to_end {position : Nat} (h : IsBoundary source position) :
    Span.slice ⟨position, byteLength source⟩ source = dropBytes position source := by
  obtain ⟨front, rest, rfl, rfl⟩ := isBoundary_iff.mp h
  rw [dropBytes_byteLength_append]
  refine Covers.slice_eq ⟨front, [], List.append_nil _, ?_⟩
  rw [Nat.zero_add, ← byteLength_append]

theorem dropBytes_dropBytes {position next : Nat} (hle : position ≤ next)
    (h : IsBoundary source position) (h' : IsBoundary source next) :
    dropBytes (next - position) (dropBytes position source) = dropBytes next source := by
  have hvalid : (⟨position, next⟩ : Span).Valid source := .of_boundaries hle h h'
  obtain ⟨chars, front, rest, rfl, hspan⟩ := hvalid.exists_covers
  obtain ⟨rfl, rfl⟩ := Span.mk.inj hspan
  rw [Nat.zero_add, Nat.add_sub_cancel_left, List.append_assoc, dropBytes_byteLength_append,
    dropBytes_byteLength_append, ← List.append_assoc, ← byteLength_append,
    dropBytes_byteLength_append]

theorem cut_of_mem_lineStartsFrom {position start : Nat} {text : List Char}
    (h : start ∈ lineStartsFrom position text) : ∃ front rest,
      front ++ '\n' :: rest = text ∧ start = position + byteLength front + 1 := by
  induction text generalizing position start with
  | nil => cases h
  | cons c cs ih =>
    have hlater : ∀ start ∈ lineStartsFrom (position + c.utf8Size) cs, ∃ front rest,
        front ++ '\n' :: rest = c :: cs ∧ start = position + byteLength front + 1 := by
      intro start hstart
      obtain ⟨front, rest, rfl, rfl⟩ := ih hstart
      exact ⟨c :: front, rest, rfl, by rw [byteLength, ← Nat.add_assoc]⟩
    rw [lineStartsFrom] at h
    split at h
    · rename_i hbreak
      subst hbreak
      rcases List.mem_cons.mp h with rfl | h
      · exact ⟨[], cs, rfl, rfl⟩
      · exact hlater start h
    · exact hlater start h

theorem lineStartsFrom_ascending (position : Nat) (text : List Char) :
    (lineStartsFrom position text).Pairwise (· < ·) := by
  induction text generalizing position with
  | nil => exact List.Pairwise.nil
  | cons c cs ih =>
    rw [lineStartsFrom]
    split
    · refine List.Pairwise.cons ?_ (ih _)
      intro later hlater
      obtain ⟨front, _, _, rfl⟩ := cut_of_mem_lineStartsFrom hlater
      omega
    · exact ih _

namespace LineIndex

theorem isBoundary_of_mem_starts {start : Nat} (h : start ∈ (ofText source).starts) :
    IsBoundary source start := by
  rcases List.mem_cons.mp h with rfl | h
  · exact isBoundary_zero source
  · obtain ⟨front, rest, rfl, rfl⟩ := cut_of_mem_lineStartsFrom h
    refine isBoundary_iff.mpr ⟨front ++ ['\n'], rest, by simp, ?_⟩
    rw [byteLength_append, Nat.zero_add]
    rfl

theorem starts_ascending (source : List Char) : (ofText source).starts.Pairwise (· < ·) := by
  refine List.Pairwise.cons ?_ (lineStartsFrom_ascending 0 source)
  intro later hlater
  obtain ⟨front, _, _, rfl⟩ := cut_of_mem_lineStartsFrom hlater
  omega

theorem mem_of_getLastD {α : Type} {xs : List α} (last : α) (hne : xs ≠ []) :
    xs.getLastD last ∈ xs := by
  rw [List.getLastD_eq_getLast?, List.getLast?_eq_some_getLast hne]
  exact List.getLast_mem hne

/-- From the start of the line that holds a position to the position. -/
def columnSpan (index : LineIndex) (position : Nat) : Span :=
  ⟨(index.starts.takeWhile (· ≤ position)).getLastD 0, position⟩

theorem column_location (index : LineIndex) (position : Nat) :
    (index.location source position).column =
      ((index.columnSpan position).slice source).length + 1 :=
  rfl

theorem columnSpan_valid {position : Nat} (h : IsBoundary source position) :
    ((ofText source).columnSpan position).Valid source := by
  have hne : (ofText source).starts.takeWhile (· ≤ position) ≠ [] := by
    simp [ofText]
  have hmem := mem_of_getLastD 0 hne
  have hle : ((ofText source).starts.takeWhile (· ≤ position)).getLastD 0 ≤ position := by
    have hall := List.all_eq_true.mp (List.all_takeWhile (p := fun start => decide
      (start ≤ position)) (l := (ofText source).starts))
    exact of_decide_eq_true (hall _ hmem)
  have hstart := isBoundary_of_mem_starts ((List.takeWhile_sublist _).subset hmem)
  exact .of_boundaries hle hstart h

def lineSpan? (index : LineIndex) (length : Nat) : (line : Nat) → Option Span
  | 0 => none
  | previous + 1 => index.starts[previous]?.map fun start =>
    ⟨start, (index.starts[previous + 1]?).elim length (· - 1)⟩

theorem lineText_eq (source : List Char) (line : Nat) :
    (ofText source).lineText source line =
      (((ofText source).lineSpan? (byteLength source) line).elim []
        fun span => ((span.slice source).reverse.dropWhile (· = '\r')).reverse) := by
  cases line with
  | zero => rfl
  | succ previous =>
    unfold lineText lineSpan?
    dsimp only
    cases hstart : (ofText source).starts[previous]? with
    | none => rfl
    | some start =>
      cases hnext : (ofText source).starts[previous + 1]? with
      | none =>
        dsimp only [Option.map_some, Option.elim_some, Option.elim_none]
        rw [slice_to_end (isBoundary_of_mem_starts (List.mem_of_getElem? hstart))]
      | some next => rfl

theorem lineSpan_valid {line : Nat} {span : Span}
    (h : (ofText source).lineSpan? (byteLength source) line = some span) : span.Valid source := by
  cases line with
  | zero => cases h
  | succ previous =>
    obtain ⟨start, hstart, rfl⟩ := Option.map_eq_some_iff.mp h
    have hboundary := isBoundary_of_mem_starts (List.mem_of_getElem? hstart)
    cases hnext : (ofText source).starts[previous + 1]? with
    | none => exact .of_boundaries hboundary.le hboundary (isBoundary_byteLength source)
    | some next =>
      have hmem : next ∈ lineStartsFrom 0 source := List.mem_of_getElem? (i := previous) hnext
      have hlt : start < next := by
        obtain ⟨hprevious, rfl⟩ := List.getElem?_eq_some_iff.mp hstart
        obtain ⟨hbound, rfl⟩ := List.getElem?_eq_some_iff.mp hnext
        exact List.pairwise_iff_getElem.mp (starts_ascending _) _ _ hprevious hbound
          (Nat.lt_succ_self previous)
      obtain ⟨front, rest, rfl, rfl⟩ := cut_of_mem_lineStartsFrom hmem
      refine .of_boundaries (Nat.le_sub_one_of_lt hlt) hboundary ?_
      exact isBoundary_iff.mpr ⟨front, '\n' :: rest, rfl, by simp⟩

end LineIndex

namespace Edit

/-- The pieces of a text of so many bytes that ordered edits leave behind a cursor, each with what
is put behind it. -/
def pieces (length cursor : Nat) : List Edit → List (Span × String)
  | [] => [(⟨cursor, length⟩, "")]
  | edit :: edits =>
    if edit.span.start < cursor then pieces length cursor edits
    else (⟨cursor, edit.span.start⟩, edit.replacement) :: pieces length edit.span.stop edits

theorem splice_eq_pieces {edits : List Edit} (hedits : ∀ edit ∈ edits, edit.span.Valid source)
    {cursor : Nat} (hcursor : IsBoundary source cursor) :
    (∀ piece ∈ pieces (byteLength source) cursor edits, piece.1.Valid source) ∧
      splice cursor (dropBytes cursor source) edits =
        (pieces (byteLength source) cursor edits).flatMap fun piece =>
          piece.1.slice source ++ piece.2.toList := by
  induction edits generalizing cursor with
  | nil =>
    have hlast : (⟨cursor, byteLength source⟩ : Span).Valid source :=
      .of_boundaries hcursor.le hcursor (isBoundary_byteLength source)
    refine ⟨by simpa [pieces] using hlast, ?_⟩
    simp [splice, pieces, slice_to_end hcursor]
  | cons edit edits ih =>
    have hedit := hedits edit List.mem_cons_self
    have hlater := fun edit hedit => hedits edit (List.mem_cons_of_mem _ hedit)
    rw [splice, pieces]
    by_cases hdropped : edit.span.start < cursor
    · rw [if_pos hdropped, if_pos hdropped]
      exact ih hlater hcursor
    · rw [if_neg hdropped, if_neg hdropped]
      obtain ⟨hvalid, hsplice⟩ := ih hlater hedit.stop
      have hpiece : (⟨cursor, edit.span.start⟩ : Span).Valid source :=
        .of_boundaries (Nat.le_of_not_lt hdropped) hcursor hedit.start
      refine ⟨List.forall_mem_cons.mpr ⟨hpiece, hvalid⟩, ?_⟩
      have hrest : dropBytes (edit.span.stop - cursor) (dropBytes cursor source) =
          dropBytes edit.span.stop source :=
        dropBytes_dropBytes (Nat.le_trans (Nat.le_of_not_lt hdropped) hedit.ordered) hcursor
          hedit.stop
      rw [hrest, hsplice, List.flatMap_cons]
      rfl

def copied (source : List Char) (edits : List Edit) : List Span :=
  (pieces (byteLength source) 0 (edits.mergeSort le)).map (·.1)

theorem applyAll_eq_pieces {edits : List Edit} (hedits : ∀ edit ∈ edits, edit.span.Valid source) :
    (∀ span ∈ copied source edits, span.Valid source) ∧
      applyAll edits source =
        (pieces (byteLength source) 0 (edits.mergeSort le)).flatMap fun piece =>
          piece.1.slice source ++ piece.2.toList := by
  have hsorted : ∀ edit ∈ edits.mergeSort le, edit.span.Valid source := by
    intro edit hedit
    exact hedits edit (List.mem_mergeSort.mp hedit)
  obtain ⟨hvalid, hsplice⟩ := splice_eq_pieces hsorted (isBoundary_zero source)
  rw [dropBytes] at hsplice
  exact ⟨List.forall_mem_map.mpr hvalid, hsplice⟩

end Edit

end TemplateMessages.Text
