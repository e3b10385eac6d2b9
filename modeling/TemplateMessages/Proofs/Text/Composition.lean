import TemplateMessages.Proofs.Text.Rewriting

set_option autoImplicit false

/-!
# Rewriting one piece after the other

Two pieces of a text are rewritten on their own, and a piece is rewritten as it is where it starts
the text. What a rewriting gives is what its edits give when they are carried out.
-/

namespace TemplateMessages.Text

def Edit.movedBack (base : Nat) (edit : Edit) : Edit :=
  { edit with span := ⟨edit.span.start - base, edit.span.stop - base⟩ }

/-- The edit in a text with `base` more bytes in front. -/
def Edit.shift (edit : Edit) (base : Nat) : Edit :=
  { edit with span := edit.span.shift base }

namespace Rewritten

variable {base : Nat} {text rest output output' : List Char} {edits later : List Edit}

theorem behind (front : List Char)
    (h : Rewritten (base + byteLength front) text edits output) :
    Rewritten base (front ++ text) edits (front ++ output) := by
  cases h with
  | kept => exact .kept base _
  | @edit _ gap old tailText tailOutput tailEdits replacement tail =>
    have hwhole : Rewritten base (front ++ gap ++ old ++ tailText)
        (⟨⟨base + byteLength (front ++ gap),
          base + byteLength (front ++ gap) + byteLength old⟩, replacement⟩ :: tailEdits)
        (front ++ gap ++ replacement.toList ++ tailOutput) := by
      refine .edit replacement ?_
      rwa [add_byteLength_append]
    rw [add_byteLength_append] at hwhole
    simpa only [List.append_assoc] using hwhole

theorem append (h : Rewritten base text edits output)
    (hrest : Rewritten (base + byteLength text) rest later output') :
    Rewritten base (text ++ rest) (edits ++ later) (output ++ output') := by
  induction h with
  | kept => exact hrest.behind _
  | @edit base gap old tailText tailOutput tailEdits replacement tail ih =>
    have hmore := ih (by
      rw [byteLength_append, byteLength_append] at hrest
      simpa only [Nat.add_assoc] using hrest)
    simpa only [List.append_assoc, List.cons_append] using Rewritten.edit replacement hmore

theorem whole (base : Nat) (text : List Char) (replacement : String) :
    Rewritten base text [⟨⟨base, base + byteLength text⟩, replacement⟩] replacement.toList := by
  have hedit := @Rewritten.edit base [] text [] [] [] replacement
    (.kept (base + byteLength [] + byteLength text) [])
  simpa using hedit

theorem movedBack (h : Rewritten base text edits output) {back : Nat} (hback : back ≤ base) :
    Rewritten (base - back) text (edits.map (Edit.movedBack back)) output := by
  induction h with
  | kept => exact .kept _ _
  | @edit base gap old rest output edits replacement tail ih =>
    have htail := ih (by omega)
    have hstart : base + byteLength gap - back = base - back + byteLength gap := by omega
    have hstop : base + byteLength gap + byteLength old - back =
        base - back + byteLength gap + byteLength old := by omega
    rw [hstop] at htail
    rw [List.map_cons]
    unfold Edit.movedBack at htail ⊢
    dsimp only
    rw [hstart, hstop]
    exact .edit replacement htail

theorem shift (h : Rewritten base text edits output) (more : Nat) :
    Rewritten (base + more) text (edits.map (·.shift more)) output := by
  induction h with
  | kept => exact .kept _ _
  | @edit base gap old rest output edits replacement tail ih =>
    have hstart : base + byteLength gap + more = base + more + byteLength gap := by omega
    have hstop : base + byteLength gap + byteLength old + more =
        base + more + byteLength gap + byteLength old := by omega
    rw [hstop] at ih
    rw [List.map_cons]
    unfold Edit.shift Span.shift at ih ⊢
    dsimp only
    rw [hstart, hstop]
    exact .edit replacement ih

theorem splice_eq (h : Rewritten base text edits output) : Edit.splice base text edits = output := by
  induction h with
  | kept => rfl
  | @edit base gap old rest output edits replacement tail ih =>
    have hgap : takeBytes (base + byteLength gap - base) (gap ++ old ++ rest) = gap := by
      simp
    have hrest : dropBytes (base + byteLength gap + byteLength old - base) (gap ++ old ++ rest) =
        rest := by
      rw [← add_byteLength_append, Nat.add_sub_cancel_left,
        dropBytes_byteLength_append]
    have hcursor : ¬base + byteLength gap < base := by omega
    rw [Edit.splice, if_neg hcursor]
    dsimp only
    rw [hgap, hrest, ih]

theorem applyAll_eq (h : Rewritten 0 text edits output) : Edit.applyAll edits text = output := by
  have hsorted : edits.Pairwise fun a b => Edit.le a b = true := by
    refine h.ascending.imp_of_mem ?_
    intro a b ha hb hle
    obtain ⟨old, hold⟩ := h.covers ha
    obtain ⟨old', hold'⟩ := h.covers hb
    have hstop := hold.start_le_stop
    have hstop' := hold'.start_le_stop
    simp
    omega
  rw [Edit.applyAll, List.mergeSort_of_pairwise hsorted, h.splice_eq]

theorem applyAll_movedBack (h : Rewritten base text edits output) :
    Edit.applyAll (edits.map (Edit.movedBack base)) text = output := by
  have hmoved := h.movedBack (Nat.le_refl base)
  rw [Nat.sub_self] at hmoved
  exact hmoved.applyAll_eq

theorem applyAll_of_perm {other : List Edit} (h : Rewritten 0 text edits output)
    (hperm : other.Perm edits) (hpositive : ∀ edit ∈ edits, edit.span.start < edit.span.stop) :
    Edit.applyAll other text = output := by
  have hspans : ∀ edit ∈ other, edit.span.start ≤ edit.span.stop :=
    fun edit hedit => Nat.le_of_lt (hpositive edit (hperm.subset hedit))
  have hapart : other.Pairwise fun a b => a.span.Apart b.span :=
    (h.ascending.imp fun hle => Or.inl hle).perm hperm.symm Span.Apart.symm
  have hsorted : other.mergeSort Edit.le = edits := by
    -- of two edits that replace something, each cannot stop where the other one starts
    refine List.Perm.eq_of_pairwise ?_ (Edit.ascending_mergeSort hspans hapart) h.ascending
      ((List.mergeSort_perm other Edit.le).trans hperm)
    intro a b ha hb hab hba
    have ha' := hpositive a (hperm.subset (List.mem_mergeSort.mp ha))
    have hb' := hpositive b hb
    omega
  rw [Edit.applyAll, hsorted, h.splice_eq]

end Rewritten

/-- Edits that are apart are carried out between more text as they are in the text on its own. -/
theorem applyAll_shift {text : List Char} {edits : List Edit}
    (hcovers : ∀ edit ∈ edits, ∃ old, Covers 0 text edit.span old)
    (hapart : edits.Pairwise fun a b => a.span.Apart b.span) (front rest : List Char) :
    Edit.applyAll (edits.map (·.shift (byteLength front))) (front ++ text ++ rest) =
      front ++ Edit.applyAll edits text ++ rest := by
  have hle (a b : Edit) : Edit.le a b =
      Edit.le (a.shift (byteLength front)) (b.shift (byteLength front)) := by
    rw [Bool.eq_iff_iff, Edit.le_iff, Edit.le_iff]
    unfold Edit.shift Span.shift
    dsimp only
    omega
  have hsorted : (edits.map (·.shift (byteLength front))).mergeSort Edit.le =
      (edits.mergeSort Edit.le).map (·.shift (byteLength front)) :=
    (List.map_mergeSort fun a _ b _ => hle a b).symm
  have hwhole := (((rewritten_applyAll_of_apart hcovers hapart).shift (byteLength front)).behind
    front).append (.kept _ rest)
  rw [List.append_nil] at hwhole
  rw [Edit.applyAll, hsorted]
  exact hwhole.splice_eq

theorem rewritten_splice_of_ascending {base : Nat} {text : List Char} {edits : List Edit}
    (hcovers : ∀ edit ∈ edits, ∃ old, Covers base text edit.span old)
    (hascending : edits.Pairwise fun a b => a.span.stop ≤ b.span.start) :
    Rewritten base text edits (Edit.splice base text edits) := by
  have hstart : ∀ edit ∈ edits, base ≤ edit.span.start := by
    intro edit hedit
    obtain ⟨old, hold⟩ := hcovers edit hedit
    exact hold.within.1
  have hrewritten := rewritten_splice edits base text
  rw [Edit.taken_eq_of_ascending hstart hascending] at hrewritten
  exact hrewritten hcovers

end TemplateMessages.Text
