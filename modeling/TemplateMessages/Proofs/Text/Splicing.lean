import Mathlib.Data.List.Permutation
import TemplateMessages.Proofs.Text.Composition
import TemplateMessages.Proofs.Text.Validity

set_option autoImplicit false

/-!
# Which edits are kept, and what they do one by one

Going through the edits in the order of their spans, an edit is kept when it does not start before
the last one kept stops. The kept edits ascend, so each can be carried out on its own, the last one
first, without moving what the others replace.
-/

namespace TemplateMessages.Text

namespace Edit

def kept (edits : List Edit) : List Edit :=
  taken 0 (edits.mergeSort le)

def lastStop (edits : List Edit) : Nat :=
  (edits.getLast?.map (·.span.stop)).getD 0

/-- `kept` are the edits of `sorted` that do not start before the last one kept stops. -/
inductive Greedy : (sorted : List Edit) → (kept : List Edit) → Prop
  | nil : Greedy [] []
  | keep {sorted kept : List Edit} {edit : Edit} (before : Greedy sorted kept)
      (hstart : lastStop kept ≤ edit.span.start) : Greedy (sorted ++ [edit]) (kept ++ [edit])
  | drop {sorted kept : List Edit} {edit : Edit} (before : Greedy sorted kept)
      (hstart : edit.span.start < lastStop kept) : Greedy (sorted ++ [edit]) kept

def replace (edit : Edit) (text : List Char) : List Char :=
  takeBytes edit.span.start text ++ edit.replacement.toList ++ dropBytes edit.span.stop text

def removedLength : List Edit → Nat
  | [] => 0
  | edit :: edits => edit.span.length + removedLength edits

/-- The number of bytes that the edits put in. -/
def addedLength : List Edit → Nat
  | [] => 0
  | edit :: edits => byteLength edit.replacement.toList + addedLength edits

@[simp] theorem lastStop_concat (edits : List Edit) (edit : Edit) :
    lastStop (edits ++ [edit]) = edit.span.stop := by
  simp [lastStop]

@[simp] theorem removedLength_cons (edit : Edit) (edits : List Edit) :
    removedLength (edit :: edits) = edit.span.length + removedLength edits := rfl

@[simp] theorem addedLength_cons (edit : Edit) (edits : List Edit) :
    addedLength (edit :: edits) = byteLength edit.replacement.toList + addedLength edits := rfl

theorem mem_of_mem_kept {edits : List Edit} {edit : Edit} (h : edit ∈ kept edits) : edit ∈ edits :=
  List.mem_mergeSort.mp ((taken_sublist 0 _).subset h)

theorem Greedy.taken {sorted kept : List Edit} (h : Greedy sorted kept) (edits : List Edit) :
    Greedy (sorted ++ edits) (kept ++ Edit.taken (lastStop kept) edits) := by
  induction edits generalizing sorted kept with
  | nil => simpa only [Edit.taken, List.append_nil] using h
  | cons edit edits ih =>
    rw [Edit.taken]
    by_cases hdropped : edit.span.start < lastStop kept
    · rw [if_pos hdropped]
      have hnext := ih (h.drop hdropped)
      rwa [List.append_assoc, List.singleton_append] at hnext
    · rw [if_neg hdropped]
      have hnext := ih (h.keep (Nat.le_of_not_lt hdropped))
      rwa [lastStop_concat, List.append_assoc, List.append_assoc, List.singleton_append,
        List.singleton_append] at hnext

theorem greedy_kept (edits : List Edit) : Greedy (edits.mergeSort le) (kept edits) :=
  Greedy.nil.taken (edits.mergeSort le)

theorem kept_perm {edits : List Edit} (hspans : ∀ edit ∈ edits, edit.span.start ≤ edit.span.stop)
    (hapart : edits.Pairwise fun a b => a.span.Apart b.span) : (kept edits).Perm edits := by
  have hascending := ascending_mergeSort hspans hapart
  rw [kept, taken_eq_of_ascending (fun _ _ => Nat.zero_le _) hascending]
  exact List.mergeSort_perm edits le

theorem mergeSort_of_perm {edits other : List Edit} (hdistinct : (edits.map (·.span)).Nodup)
    (hperm : other.Perm edits) : other.mergeSort le = edits.mergeSort le := by
  have hsame : (other.mergeSort le).Perm (edits.mergeSort le) :=
    ((List.mergeSort_perm other le).trans hperm).trans (List.mergeSort_perm edits le).symm
  refine hsame.eq_of_pairwise ?_ (sorted_mergeSort other) (sorted_mergeSort edits)
  intro a b ha hb hab hba
  rw [le_iff] at hab hba
  have hspan : a.span = b.span := by
    obtain ⟨⟨start, stop⟩, _⟩ := a
    obtain ⟨⟨start', stop'⟩, _⟩ := b
    simp only [Span.mk.injEq] at *
    omega
  exact List.inj_on_of_nodup_map hdistinct (hperm.subset (List.mem_mergeSort.mp ha))
    (List.mem_mergeSort.mp hb) hspan

@[simp] theorem replace_append (front old rest : List Char) (replacement : String) :
    replace ⟨⟨byteLength front, byteLength front + byteLength old⟩, replacement⟩
      (front ++ old ++ rest) = front ++ replacement.toList ++ rest := by
  rw [replace]
  dsimp only
  rw [← byteLength_append, dropBytes_byteLength_append, List.append_assoc front old rest,
    takeBytes_byteLength_append]

end Edit

namespace Rewritten

variable {text output : List Char} {edits : List Edit}

theorem foldr_replace (front : List Char) (h : Rewritten (byteLength front) text edits output) :
    edits.foldr Edit.replace (front ++ text) = front ++ output := by
  generalize hbase : byteLength front = base at h
  induction h generalizing front with
  | kept => rfl
  | @edit base gap old rest output edits replacement tail ih =>
    subst hbase
    have hlater := ih (front ++ gap ++ old) (by rw [byteLength_append, byteLength_append])
    have hedit := Edit.replace_append (front ++ gap) old output replacement
    rw [byteLength_append] at hedit
    rw [List.foldr_cons, ← List.append_assoc, ← List.append_assoc, hlater, hedit]
    simp only [List.append_assoc]

theorem byteLength_add {base : Nat} (h : Rewritten base text edits output) :
    byteLength output + Edit.removedLength edits = byteLength text + Edit.addedLength edits := by
  induction h with
  | kept => rfl
  | @edit base gap old rest output edits replacement tail ih =>
    rw [Edit.removedLength_cons, Edit.addedLength_cons]
    simp only [Span.length, byteLength_append]
    omega

theorem removedLength_le {base : Nat} (h : Rewritten base text edits output) :
    Edit.removedLength edits ≤ byteLength text := by
  induction h with
  | kept => exact Nat.zero_le _
  | @edit base gap old rest output edits replacement tail ih =>
    rw [Edit.removedLength_cons]
    simp only [Span.length, byteLength_append]
    omega

end Rewritten

/-- Carrying out edits is a greedy splice that does not depend on how they are listed. The text is
cut at the ends of the kept spans, so these have to be between two characters of it. -/
theorem applyAll_greedy (edits : List Edit) (source : List Char)
    (hspans : ∀ edit ∈ edits, edit.span.start ≤ edit.span.stop ∧
      edit.span.stop ≤ byteLength source)
    (hcut : ∀ edit ∈ Edit.kept edits,
      IsBoundary source edit.span.start ∧ IsBoundary source edit.span.stop) :
    Edit.Greedy (edits.mergeSort Edit.le) (Edit.kept edits) ∧
    Edit.applyAll edits source = (Edit.kept edits).foldr Edit.replace source ∧
    Edit.removedLength (Edit.kept edits) ≤ byteLength source ∧
    byteLength (Edit.applyAll edits source) = byteLength source -
      Edit.removedLength (Edit.kept edits) + Edit.addedLength (Edit.kept edits) ∧
    ((edits.Pairwise fun a b => a.span.Apart b.span) → (Edit.kept edits).Perm edits) ∧
    ((edits.map (·.span)).Nodup → ∀ other : List Edit, other.Perm edits →
      Edit.applyAll other source = Edit.applyAll edits source) := by
  have hcovers : ∀ edit ∈ Edit.kept edits, ∃ old, Covers 0 source edit.span old := by
    intro edit hedit
    obtain ⟨hstart, hstop⟩ := hcut edit hedit
    have hle := (hspans edit (Edit.mem_of_mem_kept hedit)).1
    exact (Span.Valid.of_boundaries hle hstart hstop).exists_covers
  have hrewritten : Rewritten 0 source (Edit.kept edits) (Edit.applyAll edits source) :=
    rewritten_splice (edits.mergeSort Edit.le) 0 source hcovers
  have hreplaced := Rewritten.foldr_replace [] hrewritten
  have hlength := hrewritten.byteLength_add
  have hremoved := hrewritten.removedLength_le
  refine ⟨Edit.greedy_kept edits, hreplaced.symm, hremoved, by omega, ?_, ?_⟩
  · exact Edit.kept_perm fun edit hedit => (hspans edit hedit).1
  · intro hdistinct other hperm
    rw [Edit.applyAll, Edit.applyAll, Edit.mergeSort_of_perm hdistinct hperm]

theorem applyAll_greedy_dropped :
    let source := "aéb".toList
    let edits : List Edit := [⟨⟨3, 4⟩, "B"⟩, ⟨⟨2, 4⟩, "x"⟩, ⟨⟨1, 3⟩, "e"⟩]
    (∀ edit ∈ edits, edit.span.start ≤ edit.span.stop ∧ edit.span.stop ≤ byteLength source) ∧
    (∀ edit ∈ Edit.kept edits,
      IsBoundary source edit.span.start ∧ IsBoundary source edit.span.stop) ∧
    Edit.kept edits = [⟨⟨1, 3⟩, "e"⟩, ⟨⟨3, 4⟩, "B"⟩] ∧
    (Edit.kept edits).foldr Edit.replace source = "aeB".toList ∧
    Edit.applyAll edits source = "aeB".toList := by
  intro source edits
  have hspans : ∀ edit ∈ edits,
      edit.span.start ≤ edit.span.stop ∧ edit.span.stop ≤ byteLength source := by decide
  have hkept : Edit.kept edits = [⟨⟨1, 3⟩, "e"⟩, ⟨⟨3, 4⟩, "B"⟩] := by cbv
  have hcut : ∀ edit ∈ Edit.kept edits,
      IsBoundary source edit.span.start ∧ IsBoundary source edit.span.stop := by
    rw [hkept]
    decide +kernel
  have hreplaced : (Edit.kept edits).foldr Edit.replace source = "aeB".toList := by
    rw [hkept]
    decide +kernel
  obtain ⟨_, happlied, _⟩ := applyAll_greedy edits source hspans hcut
  exact ⟨hspans, hcut, hkept, hreplaced, happlied.trans hreplaced⟩

end TemplateMessages.Text
