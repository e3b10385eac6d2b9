import TemplateMessages.Proofs.Expression.Token
import TemplateMessages.Proofs.Script.StringValue

set_option autoImplicit false

/-!
# Misread string literals

The reader of constant expressions knows only some of the escapes of a script, and takes the letter
of any other for the letter itself. A literal is read as what it stands for just when it has none of
the escapes that this misreads.
-/

namespace TemplateMessages.Script

open TemplateMessages.Expression (insideValue? insideValue?_cons insideValue?_append
  insideValue?_escape unescaped)
open TemplateMessages.Text (mem_digits_of_isDigit)

/-- The characters that are read as themselves behind a backslash, and stand for something else or
for nothing. -/
def misread : List Char :=
  ['b', 'f', 'v', 'x', 'u', '1', '2', '3', '4', '5', '6', '7', '8', '9', '\r', '\u2028', '\u2029']

def isReadAsMeant : List Char → Bool
  | [] => true
  | c :: cs =>
    if c = '\\' then
      match cs with
      | [] => true
      | e :: rest =>
        !misread.contains e && !(e == '0' && rest.head?.any Char.isDigit) && isReadAsMeant rest
    else c != '\r' && isReadAsMeant cs

section

variable {quote : Char} {raw cs chars read : List Char} {value : List Nat}

theorem isReadAsMeant_escape (e : Char) (cs : List Char) :
    isReadAsMeant ('\\' :: e :: cs) = true ↔
      e ∉ misread ∧ (e = '0' → ∀ d ∈ cs.head?, d.isDigit = false) ∧ isReadAsMeant cs = true := by
  rw [isReadAsMeant.eq_def]
  cases cs <;> simp [and_assoc, or_iff_not_imp_left]

theorem isReadAsMeant_cons {c : Char} (hslash : c ≠ '\\') :
    isReadAsMeant (c :: cs) = true ↔ c ≠ '\r' ∧ isReadAsMeant cs = true := by
  rw [isReadAsMeant.eq_def]
  dsimp only
  rw [if_neg hslash, Bool.and_eq_true, bne_iff_ne]

theorem StringValue.unescaped {e : Char} (hmisread : e ∉ misread)
    (hzero : e = '0' → ∀ d ∈ cs.head?, d.isDigit = false) (h : StringValue quote cs value) :
    StringValue quote ('\\' :: e :: cs) (units (unescaped e) ++ value) := by
  have hcontrol {d : Char} (hd : controlEscape? e = some d) :
      StringValue quote ('\\' :: e :: cs) (units [d] ++ value) := by
    rw [units_singleton]
    exact .escape (.control hd) h
  unfold Expression.unescaped
  split_ifs with hn ht hr hnull hline
  · exact hcontrol (by rw [hn]; rfl)
  · exact hcontrol (by rw [ht]; rfl)
  · exact hcontrol (by rw [hr]; rfl)
  · rw [hnull]
    exact .null (hzero hnull) h
  · exact .escape (.lineEnd (by rw [hline]; decide)) h
  · have hdigit : e.isDigit = false := by
      rw [← Bool.not_eq_true]
      intro hdigit
      rcases List.mem_cons.mp (mem_digits_of_isDigit hdigit) with hzero | hmem
      · exact hnull hzero
      · have hmisreads : ∀ d ∈ ['1', '2', '3', '4', '5', '6', '7', '8', '9'], d ∈ misread := by
          decide
        exact hmisread (hmisreads e hmem)
    have hnone : controlEscape? e = none := by
      simp only [misread, List.mem_cons, not_or] at hmisread
      simp [controlEscape?, controlEscapes, hn, ht, hr, hmisread]
    have hother : e ∉ 'x' :: 'u' :: '\r' :: lineEnds := by
      have hmisreads : ∀ d ∈ 'x' :: 'u' :: '\r' :: lineEnds, d = '\n' ∨ d ∈ misread := by decide
      exact fun hmem => (hmisreads e hmem).elim hline hmisread
    rw [units_singleton]
    exact .escape (.other hnone hdigit hother) h

theorem stringValue_of_isReadAsMeant (h : insideValue? quote raw = some read)
    (hmeant : isReadAsMeant raw = true) : StringValue quote raw (units read) := by
  fun_induction insideValue? quote raw generalizing read with
  | case1 =>
    cases h
    exact .nil
  | case2 => cases h
  | case3 => cases h
  | case4 e rest hquote ih =>
    obtain ⟨inner, hinner, rfl⟩ := Option.map_eq_some_iff.mp h
    obtain ⟨hmisread, hzero, hrest⟩ := (isReadAsMeant_escape e rest).mp hmeant
    simpa using StringValue.unescaped hmisread hzero (ih hinner hrest)
  | case5 => cases h
  | case6 => cases h
  | case7 c cs hquote hslash hsubstitution hline ih =>
    obtain ⟨inner, hinner, rfl⟩ := Option.map_eq_some_iff.mp h
    obtain ⟨hreturn, hcs⟩ := (isReadAsMeant_cons hslash).mp hmeant
    rw [units_cons]
    exact .char hquote hslash hreturn (fun hc => by_contra fun hq => hline ⟨hc, hq⟩) hsubstitution
      (ih hinner hcs)

def IsReadAs (quote : Char) (sequence cs : List Char) (escaped : List Nat) (read : List Char) :
    Prop :=
  ∃ front inner, insideValue? quote cs = some inner ∧ read = front ++ inner ∧
    escaped.length ≤ (units front).length ∧
    (escaped = units front → ∃ e, sequence = [e] ∧ e ∉ misread ∧ e ≠ '0')

theorem isReadAs_of_short {e : Char} {escaped : List Nat} (he : Expression.unescaped e = [e])
    (hchars : ∀ c ∈ chars, c ≠ '\\') (hshort : escaped.length < chars.length + 1)
    (h : insideValue? quote ('\\' :: (e :: chars ++ cs)) = some read) :
    IsReadAs quote (e :: chars) cs escaped read := by
  obtain ⟨behind, hbehind, rfl⟩ := insideValue?_escape h
  obtain ⟨inner, hinner, rfl⟩ := insideValue?_append hchars hbehind
  have hlength := length_le_length_units (e :: chars)
  rw [List.length_cons] at hlength
  refine ⟨e :: chars, inner, hinner, by rw [he]; rfl, by omega, ?_⟩
  intro heq
  rw [heq] at hshort
  omega

theorem read_of_other {c : Char} (hcontrol : controlEscape? c = none) (hdigit : c.isDigit = false)
    (hother : c ∉ 'x' :: 'u' :: '\r' :: lineEnds) :
    Expression.unescaped c = [c] ∧ c ∉ misread ∧ c ≠ '0' := by
  have hspecial : ∀ d ∈ 'n' :: 't' :: 'r' :: '0' :: '\n' :: misread,
      controlEscape? d ≠ none ∨ d.isDigit = true ∨ d ∈ 'x' :: 'u' :: '\r' :: lineEnds := by
    decide
  have hc : c ∉ 'n' :: 't' :: 'r' :: '0' :: '\n' :: misread := by
    intro hmem
    rcases hspecial c hmem with h | h | h
    · exact h hcontrol
    · rw [hdigit] at h
      cases h
    · exact hother h
  simp only [List.mem_cons, not_or] at hc
  obtain ⟨hn, ht, hr, hzero, hline, hmisread⟩ := hc
  exact ⟨by simp [Expression.unescaped, hn, ht, hr, hzero, hline], hmisread, hzero⟩

theorem Escape.isReadAs {sequence : List Char} {escaped : List Nat}
    (hescape : Escape sequence escaped)
    (h : insideValue? quote ('\\' :: (sequence ++ cs)) = some read) :
    IsReadAs quote sequence cs escaped read := by
  cases hescape with
  | @control c d hd =>
    obtain ⟨inner, hinner, rfl⟩ := insideValue?_escape h
    have hcontrols : ∀ control ∈ controlEscapes,
        (codeUnits control.2.toNat).length ≤ (units (Expression.unescaped control.1)).length ∧
          (codeUnits control.2.toNat = units (Expression.unescaped control.1) →
            control.1 ∉ misread ∧ control.1 ≠ '0') := by
      decide
    have hcontrol : (c, d) ∈ controlEscapes := by
      obtain ⟨before, behind, heq, -⟩ := List.lookup_eq_some_iff.mp hd
      rw [heq]
      exact List.mem_append_right before List.mem_cons_self
    obtain ⟨hlength, hsame⟩ := hcontrols _ hcontrol
    exact ⟨_, inner, hinner, rfl, hlength, fun heq => ⟨c, rfl, hsame heq⟩⟩
  | @other c hcontrol hdigit hother =>
    obtain ⟨inner, hinner, rfl⟩ := insideValue?_escape h
    obtain ⟨hc, hmisread, hzero⟩ := read_of_other hcontrol hdigit hother
    rw [hc]
    exact ⟨[c], inner, hinner, rfl, by rw [units_singleton], fun _ => ⟨c, rfl, hmisread, hzero⟩⟩
  | hex hcode => exact isReadAs_of_short rfl (ne_of_hexValue? rfl hcode) (by simp) h
  | unit hcode => exact isReadAs_of_short rfl (ne_of_hexValue? rfl hcode) (by simp) h
  | @codePoint digits code hne hcode hbound =>
    refine isReadAs_of_short rfl ?_ ?_ h
    · simp only [List.mem_cons, List.mem_append, List.not_mem_nil, or_false]
      rintro c (rfl | hc | rfl)
      · decide
      · exact ne_of_hexValue? rfl hcode c hc
      · decide
    · have hlength := length_codeUnits_le code
      simp only [List.length_cons, List.length_append, List.length_nil]
      omega
  | @lineEnd c hc =>
    obtain ⟨inner, hinner, rfl⟩ := insideValue?_escape h
    have hends : ∀ c ∈ lineEnds, [] = units (Expression.unescaped c) → c ∉ misread ∧ c ≠ '0' := by
      decide
    exact ⟨_, inner, hinner, rfl, Nat.zero_le _, fun heq => ⟨c, rfl, hends c hc heq⟩⟩
  | carriageReturnLineFeed => exact isReadAs_of_short rfl (by decide) (by decide) h

theorem append_inj_of_length_le {front rest front' rest' : List Nat}
    (hfront : front.length ≤ front'.length) (hrest : rest.length ≤ rest'.length)
    (h : front ++ rest = front' ++ rest') : front = front' ∧ rest = rest' := by
  have hlength := congrArg List.length h
  rw [List.length_append, List.length_append] at hlength
  exact List.append_inj h (by omega)

/-- A literal is read as no fewer code units than it stands for, and as the same ones only if
nothing in it is misread. -/
theorem StringValue.fits (h : StringValue quote raw value)
    (hread : insideValue? quote raw = some read) :
    value.length ≤ (units read).length ∧ (value = units read → isReadAsMeant raw = true) := by
  induction h generalizing read with
  | nil => exact ⟨Nat.zero_le _, fun _ => rfl⟩
  | @char c cs value _ hslash hreturn _ _ _ ih =>
    obtain ⟨inner, hinner, rfl⟩ := insideValue?_cons hslash hread
    obtain ⟨hlength, hsame⟩ := ih hinner
    rw [units_cons, List.length_append, List.length_append]
    refine ⟨Nat.add_le_add_left hlength _, fun heq => ?_⟩
    exact (isReadAsMeant_cons hslash).mpr ⟨hreturn, hsame (List.append_cancel_left heq)⟩
  | carriageReturn _ _ _ ih =>
    obtain ⟨inner, hinner, rfl⟩ := insideValue?_cons (by decide) hread
    have hlength := (ih hinner).1
    refine ⟨Nat.succ_le_succ hlength, fun heq => ?_⟩
    exact absurd (List.cons.inj heq).1 (by decide)
  | carriageReturnLineFeed _ _ ih =>
    obtain ⟨behind, hbehind, rfl⟩ := insideValue?_cons (by decide) hread
    obtain ⟨inner, hinner, rfl⟩ := insideValue?_cons (by decide) hbehind
    have hlength := (ih hinner).1
    refine ⟨Nat.le_succ_of_le (Nat.succ_le_succ hlength), fun heq => ?_⟩
    exact absurd (List.cons.inj heq).1 (by decide)
  | escape hescape _ ih =>
    -- neither part is longer than what it is read as, so that equal wholes have equal parts
    obtain ⟨front, inner, hinner, rfl, hfront, hsame⟩ := hescape.isReadAs hread
    obtain ⟨hlength, hrest⟩ := ih hinner
    rw [units_append]
    refine ⟨?_, fun heq => ?_⟩
    · rw [List.length_append, List.length_append]
      exact Nat.add_le_add hfront hlength
    · obtain ⟨hescaped, hvalue⟩ := append_inj_of_length_le hfront hlength heq
      obtain ⟨e, rfl, hmisread, hzero⟩ := hsame hescaped
      exact (isReadAsMeant_escape e _).mpr ⟨hmisread, fun he => absurd he hzero, hrest hvalue⟩
  | @null cs value hdigit _ ih =>
    obtain ⟨inner, hinner, rfl⟩ := insideValue?_escape hread
    obtain ⟨hlength, hsame⟩ := ih hinner
    refine ⟨Nat.succ_le_succ hlength, fun heq => ?_⟩
    exact (isReadAsMeant_escape '0' cs).mpr
      ⟨by decide, fun _ => hdigit, hsame (List.cons.inj heq).2⟩
  | continued _ _ ih =>
    obtain ⟨inner, hinner, rfl⟩ := insideValue?_escape hread
    have hlength := (ih hinner).1
    refine ⟨Nat.le_succ_of_le hlength, fun heq => ?_⟩
    rw [heq] at hlength
    exact absurd hlength (Nat.not_succ_le_self _)

theorem stringValue_iff (h : insideValue? quote raw = some read) :
    StringValue quote raw (units read) ↔ isReadAsMeant raw = true :=
  ⟨fun hvalue => (hvalue.fits h).2 rfl, stringValue_of_isReadAsMeant h⟩

end

end TemplateMessages.Script
