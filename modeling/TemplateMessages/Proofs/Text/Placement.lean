import TemplateMessages.Text.Span

set_option autoImplicit false

/-!
# Where characters stand in a text

A span covers characters of a text when it starts and ends between two characters of the text and
these are the characters in between. Every span that is computed while a text is read covers
something, and spans inside spans are placed by adding up lengths.
-/

namespace TemplateMessages.Text

/-- `span` covers `chars` in a text that starts at `base`. -/
def Covers (base : Nat) (text : List Char) (span : Span) (chars : List Char) : Prop :=
  ∃ front rest, front ++ chars ++ rest = text ∧
    span = ⟨base + byteLength front, base + byteLength front + byteLength chars⟩

/-- `inner` lies in `outer`. -/
def Span.Within (inner outer : Span) : Prop :=
  outer.start ≤ inner.start ∧ inner.stop ≤ outer.stop

/-- One of the spans ends where the other one starts, or in front of it. -/
def Span.Apart (a b : Span) : Prop :=
  a.stop ≤ b.start ∨ b.stop ≤ a.start

theorem Span.Within.trans {inner middle outer : Span} (h : inner.Within middle)
    (h' : middle.Within outer) : inner.Within outer :=
  ⟨Nat.le_trans h'.1 h.1, Nat.le_trans h.2 h'.2⟩

theorem Span.Apart.symm {a b : Span} (h : a.Apart b) : b.Apart a :=
  Or.symm h

theorem Span.Apart.within {a b inner : Span} (h : a.Apart b) (hin : inner.Within b) :
    a.Apart inner := by
  unfold Span.Apart Span.Within at *
  omega

theorem Span.Apart.of_within {a b outer other : Span} (h : outer.Apart other)
    (ha : a.Within outer) (hb : b.Within other) : a.Apart b :=
  ((h.within hb).symm.within ha).symm

theorem eq_nil_of_byteLength_eq_zero {chars : List Char} (h : byteLength chars = 0) :
    chars = [] := by
  cases chars with
  | nil => rfl
  | cons c cs =>
    have positive := Char.utf8Size_pos c
    simp only [byteLength] at h
    omega

theorem byteLength_pos {chars : List Char} (h : chars ≠ []) : 0 < byteLength chars :=
  Nat.pos_of_ne_zero fun hzero => h (eq_nil_of_byteLength_eq_zero hzero)

theorem append_inj_of_byteLength {front rest front' rest' : List Char}
    (h : front ++ rest = front' ++ rest') (hlength : byteLength front = byteLength front') :
    front = front' ∧ rest = rest' := by
  have hfront := takeBytes_byteLength_append front rest
  have hrest := dropBytes_byteLength_append front rest
  rw [h, hlength, takeBytes_byteLength_append] at hfront
  rw [h, hlength, dropBytes_byteLength_append] at hrest
  exact ⟨hfront.symm, hrest.symm⟩

theorem append_inj_of_span {position : Nat} {front rest front' rest' : List Char}
    (h : front ++ rest = front' ++ rest')
    (hspan : (⟨position, position + byteLength front⟩ : Span) =
      ⟨position, position + byteLength front'⟩) : front = front' ∧ rest = rest' :=
  append_inj_of_byteLength h (Nat.add_left_cancel (congrArg Span.stop hspan))

namespace Covers

variable {base : Nat} {text chars : List Char} {span : Span}

theorem whole (base : Nat) (text : List Char) :
    Covers base text ⟨base, base + byteLength text⟩ text :=
  ⟨[], [], by simp, by simp⟩

theorem head (base : Nat) (chars rest : List Char) :
    Covers base (chars ++ rest) ⟨base, base + byteLength chars⟩ chars :=
  ⟨[], rest, by simp, by simp⟩

theorem behind {front text : List Char} (h : Covers (base + byteLength front) text span chars) :
    Covers base (front ++ text) span chars := by
  obtain ⟨more, rest, rfl, rfl⟩ := h
  refine ⟨front ++ more, rest, by simp, ?_⟩
  simp
  omega

theorem behind_cons (c : Char) {text : List Char}
    (h : Covers (base + c.utf8Size) text span chars) : Covers base (c :: text) span chars := by
  have one : byteLength [c] = c.utf8Size := rfl
  rw [← one] at h
  exact h.behind

theorem before {rest : List Char} (h : Covers base text span chars) :
    Covers base (text ++ rest) span chars := by
  obtain ⟨front, more, rfl, rfl⟩ := h
  exact ⟨front, more ++ rest, by simp, rfl⟩

theorem shift (h : Covers base text span chars) (more : Nat) :
    Covers (base + more) text (span.shift more) chars := by
  obtain ⟨front, rest, rfl, rfl⟩ := h
  refine ⟨front, rest, rfl, ?_⟩
  simp only [Span.shift, Span.mk.injEq]
  omega

theorem trans {inner : Span} {inside : List Char} (outer : Covers base text span chars)
    (h : Covers span.start chars inner inside) : Covers base text inner inside := by
  obtain ⟨front, rest, rfl, rfl⟩ := outer
  exact h.behind.before

theorem split {front rest : List Char} (h : Covers base text span (front ++ rest)) :
    Covers base text ⟨span.start, span.start + byteLength front⟩ front ∧
      Covers base text ⟨span.start + byteLength front,
        span.start + byteLength front + byteLength rest⟩ rest :=
  ⟨h.trans (head span.start front rest),
    h.trans (whole (span.start + byteLength front) rest).behind⟩

theorem ne_nil (h : Covers base text span chars) (hne : chars ≠ []) : text ≠ [] := by
  obtain ⟨front, rest, rfl, rfl⟩ := h
  simp [hne]

theorem start_le_stop (h : Covers base text span chars) : span.start ≤ span.stop := by
  obtain ⟨front, rest, rfl, rfl⟩ := h
  exact Nat.le_add_right _ _

theorem stop_eq (h : Covers base text span chars) :
    span.stop = span.start + byteLength chars := by
  obtain ⟨front, rest, rfl, rfl⟩ := h
  rfl

theorem within (h : Covers base text span chars) :
    span.Within ⟨base, base + byteLength text⟩ := by
  obtain ⟨front, rest, rfl, rfl⟩ := h
  unfold Span.Within
  rw [byteLength_append, byteLength_append]
  dsimp only
  omega

theorem within_of_covers {inner : Span} {inside : List Char} (outer : Covers base text span chars)
    (h : Covers span.start chars inner inside) : inner.Within span := by
  have bounds := h.within
  rwa [← outer.stop_eq] at bounds

theorem slice_eq (h : Covers 0 text span chars) : span.slice text = chars := by
  obtain ⟨front, rest, rfl, rfl⟩ := h
  simp only [Span.slice, Span.length, Nat.zero_add, Nat.add_sub_cancel_left, List.append_assoc]
  simp

theorem slice_shift (h : Covers 0 text span chars) (front rest : List Char) :
    (span.shift (byteLength front)).slice (front ++ text ++ rest) = span.slice text := by
  rw [h.slice_eq]
  exact ((h.shift (byteLength front)).behind.before).slice_eq

/-- A span that starts behind the front of a text lies in what is behind it. -/
theorem of_behind {front text : List Char} (h : Covers base (front ++ text) span chars)
    (hstart : base + byteLength front ≤ span.start) :
    Covers (base + byteLength front) text span chars := by
  obtain ⟨before, rest, whole, rfl⟩ := h
  have hle : byteLength front ≤ byteLength before := by
    dsimp only at hstart
    omega
  rw [List.append_assoc] at whole
  rcases List.append_eq_append_iff.mp whole with ⟨gap, hfront, htail⟩ | ⟨gap, hbefore, htail⟩
  · have hgap : gap = [] := by
      apply eq_nil_of_byteLength_eq_zero
      simp [hfront] at hle
      omega
    subst hgap
    rw [List.append_nil] at hfront
    subst hfront
    exact ⟨[], rest, by simpa using htail, by simp⟩
  · subst hbefore
    refine ⟨gap, rest, by simpa using htail.symm, ?_⟩
    simp
    omega

/-- A span that stops in front of the end of a text lies in it. -/
theorem of_before {text rest : List Char} (h : Covers base (text ++ rest) span chars)
    (hstop : span.stop ≤ base + byteLength text) : Covers base text span chars := by
  obtain ⟨front, after, whole, rfl⟩ := h
  have hle : byteLength (front ++ chars) ≤ byteLength text := by
    rw [byteLength_append]
    dsimp only at hstop
    omega
  rcases List.append_eq_append_iff.mp whole with ⟨gap, htext, _⟩ | ⟨gap, hfront, _⟩
  · exact ⟨front, gap, htext.symm, rfl⟩
  · have hgap : gap = [] := by
      apply eq_nil_of_byteLength_eq_zero
      simp [hfront] at hle
      omega
    subst hgap
    rw [List.append_nil] at hfront
    exact ⟨front, [], by rw [List.append_nil, hfront], rfl⟩

theorem inside {inner : Span} {inside : List Char} (outer : Covers base text span chars)
    (h : Covers base text inner inside) (hwithin : inner.Within span) :
    Covers span.start chars inner inside := by
  obtain ⟨front, rest, rfl, rfl⟩ := outer
  rw [List.append_assoc] at h
  exact (h.of_behind hwithin.1).of_before hwithin.2

end Covers

end TemplateMessages.Text
