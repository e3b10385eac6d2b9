import TemplateMessages.Proofs.Text.Placement
import TemplateMessages.Text.Edit

set_option autoImplicit false

/-!
# What edits make of a text

`Rewritten` says without any cursor what it means that a text is rewritten at some places: kept text
and replaced text take turns, and the replaced parts are the spans of the edits in their order.
Carrying out edits is such a rewriting, by edits among the given ones.
-/

namespace TemplateMessages.Text

/-- `output` is a text that starts at `base` with the edits in place of what their spans cover, and
all other characters in their order. -/
inductive Rewritten : (base : Nat) → (text : List Char) → List Edit → (output : List Char) → Prop
  | kept (base : Nat) (text : List Char) : Rewritten base text [] text
  | edit {base : Nat} {gap old rest output : List Char} {edits : List Edit} (replacement : String)
      (tail : Rewritten (base + byteLength gap + byteLength old) rest edits output) :
      Rewritten base (gap ++ old ++ rest)
        (⟨⟨base + byteLength gap, base + byteLength gap + byteLength old⟩, replacement⟩ :: edits)
        (gap ++ replacement.toList ++ output)

namespace Rewritten

variable {base : Nat} {text output : List Char} {edits : List Edit}

theorem covers (h : Rewritten base text edits output) {edit : Edit} (hedit : edit ∈ edits) :
    ∃ old, Covers base text edit.span old := by
  induction h with
  | kept => cases hedit
  | @edit base gap old rest output edits replacement tail ih =>
    rcases List.mem_cons.mp hedit with rfl | hlater
    · exact ⟨old, gap, rest, rfl, rfl⟩
    · obtain ⟨found, hfound⟩ := ih hlater
      rw [← add_byteLength_append] at hfound
      exact ⟨found, hfound.behind⟩

theorem ascending (h : Rewritten base text edits output) :
    edits.Pairwise (fun a b => a.span.stop ≤ b.span.start) := by
  induction h with
  | kept => exact List.Pairwise.nil
  | @edit base gap old rest output edits replacement tail ih =>
    apply List.Pairwise.cons _ ih
    intro later hlater
    obtain ⟨found, hfound⟩ := tail.covers hlater
    exact hfound.within.1

/-- What is apart from all edits stays between what the edits in front of it and those behind it make
of the text around it. -/
theorem split (h : Rewritten base text edits output) {span : Span} {chars : List Char}
    (hspan : Covers base text span chars) (hapart : ∀ edit ∈ edits, span.Apart edit.span) :
    ∃ front rest before behind front' rest',
      text = front ++ chars ++ rest ∧ span.start = base + byteLength front ∧
      output = front' ++ chars ++ rest' ∧ edits = before ++ behind ∧
      Rewritten base front before front' ∧ Rewritten span.stop rest behind rest' := by
  induction h generalizing span with
  | kept base text =>
    obtain ⟨front, rest, rfl, rfl⟩ := hspan
    exact ⟨front, rest, [], [], front, rest, rfl, rfl, rfl, rfl, .kept base front, .kept _ rest⟩
  | @edit base gap old rest output edits replacement tail ih =>
    rcases hapart _ List.mem_cons_self with hbefore | hbehind
    · rw [List.append_assoc] at hspan
      obtain ⟨front, more, rfl, rfl⟩ := hspan.of_before hbefore
      have hplace : base + byteLength (front ++ chars ++ more) =
          base + byteLength front + byteLength chars + byteLength more := by
        simp
        omega
      have hrest : Rewritten (base + byteLength front + byteLength chars) (more ++ old ++ rest)
          (⟨⟨base + byteLength (front ++ chars ++ more),
            base + byteLength (front ++ chars ++ more) + byteLength old⟩, replacement⟩ :: edits)
          (more ++ replacement.toList ++ output) := by
        rw [hplace] at tail ⊢
        exact .edit replacement tail
      exact ⟨front, more ++ old ++ rest, [], _, front, more ++ replacement.toList ++ output,
        by simp, rfl, by simp, rfl, .kept base front, hrest⟩
    · dsimp only at hbehind
      rw [← add_byteLength_append] at hbehind
      have inner := hspan.of_behind hbehind
      rw [add_byteLength_append] at inner
      obtain ⟨front, last, before, behind, front', last', rfl, hstart, rfl, rfl, hfront, hlast⟩ :=
        ih inner fun later hlater => hapart later (List.mem_cons_of_mem _ hlater)
      refine ⟨gap ++ old ++ front, last, _ :: before, behind, gap ++ replacement.toList ++ front',
        last', by simp, ?_, by simp, rfl, .edit replacement hfront, hlast⟩
      simp [hstart]
      omega

theorem copied (h : Rewritten base text edits output) {span : Span} {chars : List Char}
    (hspan : Covers base text span chars) (hapart : ∀ edit ∈ edits, span.Apart edit.span) :
    ∃ place, Covers base output place chars := by
  obtain ⟨_, _, _, _, front, rest, _, _, rfl, _⟩ := h.split hspan hapart
  exact ⟨_, front, rest, rfl, rfl⟩

theorem mem_output (h : Rewritten base text edits output) {c : Char} (hc : c ∈ output) :
    c ∈ text ∨ ∃ edit ∈ edits, c ∈ edit.replacement.toList := by
  induction h with
  | kept => exact .inl hc
  | @edit base gap old rest output edits replacement tail ih =>
    rw [List.mem_append, List.mem_append] at hc
    rcases hc with (hgap | hreplacement) | hlater
    · exact .inl (List.mem_append_left _ (List.mem_append_left _ hgap))
    · exact .inr ⟨_, List.mem_cons_self, hreplacement⟩
    · rcases ih hlater with hrest | ⟨edit, hedit, hmem⟩
      · exact .inl (List.mem_append_right _ hrest)
      · exact .inr ⟨edit, List.mem_cons_of_mem _ hedit, hmem⟩

theorem output_eq_of_nil (h : Rewritten base text [] output) : output = text := by
  cases h
  rfl

end Rewritten

/-- The edits that splicing carries out: those that start behind the last one taken. -/
def Edit.taken (cursor : Nat) : List Edit → List Edit
  | [] => []
  | edit :: edits =>
    if edit.span.start < cursor then Edit.taken cursor edits
    else edit :: Edit.taken edit.span.stop edits

theorem Edit.taken_sublist (cursor : Nat) (edits : List Edit) :
    (Edit.taken cursor edits).Sublist edits := by
  induction edits generalizing cursor with
  | nil => exact List.Sublist.slnil
  | cons edit edits ih =>
    rw [Edit.taken]
    split
    · exact (ih cursor).cons edit
    · exact (ih edit.span.stop).cons_cons edit

theorem Edit.taken_eq_of_ascending {cursor : Nat} {edits : List Edit}
    (hstart : ∀ edit ∈ edits, cursor ≤ edit.span.start)
    (hascending : edits.Pairwise fun a b => a.span.stop ≤ b.span.start) :
    Edit.taken cursor edits = edits := by
  induction edits generalizing cursor with
  | nil => rfl
  | cons edit edits ih =>
    obtain ⟨hfirst, hrest⟩ := List.pairwise_cons.mp hascending
    have hcursor := hstart edit List.mem_cons_self
    rw [Edit.taken, if_neg (by omega), ih hfirst hrest]

theorem Edit.le_start_of_mem_taken {cursor : Nat} {edits : List Edit}
    (hspans : ∀ edit ∈ Edit.taken cursor edits, edit.span.start ≤ edit.span.stop) {edit : Edit}
    (h : edit ∈ Edit.taken cursor edits) : cursor ≤ edit.span.start := by
  induction edits generalizing cursor with
  | nil => cases h
  | cons first edits ih =>
    rw [Edit.taken] at h hspans
    by_cases hdropped : first.span.start < cursor
    · rw [if_pos hdropped] at h hspans
      exact ih hspans h
    · rw [if_neg hdropped] at h hspans
      obtain ⟨hfirst, hlater⟩ := List.forall_mem_cons.mp hspans
      rcases List.mem_cons.mp h with rfl | hmem
      · exact Nat.le_of_not_lt hdropped
      · have hle := ih hlater hmem
        omega

theorem rewritten_splice (edits : List Edit) (cursor : Nat) (rest : List Char)
    (hcovers : ∀ edit ∈ Edit.taken cursor edits, ∃ old, Covers cursor rest edit.span old) :
    Rewritten cursor rest (Edit.taken cursor edits) (Edit.splice cursor rest edits) := by
  induction edits generalizing cursor rest with
  | nil => exact .kept cursor rest
  | cons edit edits ih =>
    rw [Edit.taken] at hcovers ⊢
    rw [Edit.splice]
    by_cases hdropped : edit.span.start < cursor
    · rw [if_pos hdropped] at hcovers ⊢
      rw [if_pos hdropped]
      exact ih cursor rest hcovers
    · rw [if_neg hdropped] at hcovers ⊢
      rw [if_neg hdropped]
      obtain ⟨hfirst, hlater⟩ := List.forall_mem_cons.mp hcovers
      have hspans : ∀ later ∈ Edit.taken edit.span.stop edits,
          later.span.start ≤ later.span.stop := by
        intro later hmem
        obtain ⟨_, hfound⟩ := hlater later hmem
        exact hfound.start_le_stop
      obtain ⟨old, gap, after, rfl, hspan⟩ := hfirst
      obtain ⟨span, replacement⟩ := edit
      dsimp only at hspan hlater hspans ⊢
      subst hspan
      have hbehind : ∀ later ∈ Edit.taken (cursor + byteLength gap + byteLength old) edits,
          ∃ found, Covers (cursor + byteLength gap + byteLength old) after later.span found := by
        intro later hmem
        obtain ⟨found, hfound⟩ := hlater later hmem
        have hle := Edit.le_start_of_mem_taken hspans hmem
        rw [← add_byteLength_append] at hle ⊢
        exact ⟨found, hfound.of_behind hle⟩
      have hgap : takeBytes (cursor + byteLength gap - cursor) (gap ++ old ++ after) = gap := by
        simp
      have hafter : dropBytes (cursor + byteLength gap + byteLength old - cursor)
          (gap ++ old ++ after) = after := by
        rw [← add_byteLength_append, Nat.add_sub_cancel_left,
          dropBytes_byteLength_append]
      rw [hgap, hafter]
      exact .edit replacement (ih _ after hbehind)

theorem rewritten_applyAll (edits : List Edit) (source : List Char)
    (hcovers : ∀ edit ∈ edits, ∃ old, Covers 0 source edit.span old) :
    ∃ taken, (∀ edit ∈ taken, edit ∈ edits) ∧
      Rewritten 0 source taken (Edit.applyAll edits source) := by
  have htaken : ∀ edit ∈ Edit.taken 0 (edits.mergeSort Edit.le), edit ∈ edits := fun edit hedit =>
    List.mem_mergeSort.mp ((Edit.taken_sublist 0 _).subset hedit)
  exact ⟨_, htaken, rewritten_splice _ 0 source fun edit hedit => hcovers edit (htaken edit hedit)⟩

@[simp] theorem Edit.le_iff {a b : Edit} : Edit.le a b = true ↔
    a.span.start < b.span.start ∨ (a.span.start = b.span.start ∧ a.span.stop ≤ b.span.stop) := by
  simp only [Edit.le, Bool.or_eq_true, Bool.and_eq_true, decide_eq_true_eq, beq_iff_eq]

theorem Edit.sorted_mergeSort (edits : List Edit) :
    (edits.mergeSort Edit.le).Pairwise fun a b => Edit.le a b = true := by
  apply List.pairwise_mergeSort
  · intro a b c hab hbc
    simp at *
    omega
  · intro a b
    simp
    omega

theorem Edit.ascending_mergeSort {edits : List Edit}
    (hspans : ∀ edit ∈ edits, edit.span.start ≤ edit.span.stop)
    (hapart : edits.Pairwise fun a b => a.span.Apart b.span) :
    (edits.mergeSort Edit.le).Pairwise fun a b => a.span.stop ≤ b.span.start := by
  have hpermuted : (edits.mergeSort Edit.le).Pairwise fun a b => a.span.Apart b.span :=
    hapart.perm (List.mergeSort_perm edits Edit.le).symm Span.Apart.symm
  refine ((Edit.sorted_mergeSort edits).and hpermuted).imp_of_mem ?_
  rintro a b ha hb ⟨hle, hside⟩
  have hstop := hspans a (List.mem_mergeSort.mp ha)
  have hstop' := hspans b (List.mem_mergeSort.mp hb)
  rw [Edit.le_iff] at hle
  unfold Span.Apart at hside
  omega

theorem rewritten_applyAll_of_apart {edits : List Edit} {source : List Char}
    (hcovers : ∀ edit ∈ edits, ∃ old, Covers 0 source edit.span old)
    (hapart : edits.Pairwise fun a b => a.span.Apart b.span) :
    Rewritten 0 source (edits.mergeSort Edit.le) (Edit.applyAll edits source) := by
  have hspans : ∀ edit ∈ edits, edit.span.start ≤ edit.span.stop := by
    intro edit hedit
    obtain ⟨old, hold⟩ := hcovers edit hedit
    exact hold.start_le_stop
  have hascending := Edit.ascending_mergeSort hspans hapart
  have htaken := Edit.taken_eq_of_ascending (fun _ _ => Nat.zero_le _) hascending
  have hrewritten := rewritten_splice (edits.mergeSort Edit.le) 0 source
  rw [htaken] at hrewritten
  exact hrewritten fun edit hedit => hcovers edit (List.mem_mergeSort.mp hedit)

end TemplateMessages.Text
