import Mathlib.Data.List.Basic
import TemplateMessages.Proofs.Script.StringLiteral
import TemplateMessages.Proofs.Text.Characters

set_option autoImplicit false

/-!
# Values of string literals

What the inside of a string literal stands for in a script: a string of UTF-16 code units, by the
rules for single- and double-quoted strings and for templates in strict code.
-/

namespace TemplateMessages.Script

def codeUnits (code : Nat) : List Nat :=
  if code < 0x10000 then [code]
  else [0xD800 + (code - 0x10000) / 0x400, 0xDC00 + (code - 0x10000) % 0x400]

def units (text : List Char) : List Nat :=
  text.flatMap fun c => codeUnits c.toNat

@[simp] theorem units_cons (c : Char) (cs : List Char) :
    units (c :: cs) = codeUnits c.toNat ++ units cs :=
  List.flatMap_cons

theorem units_singleton (c : Char) : units [c] = codeUnits c.toNat :=
  List.flatMap_singleton ..

@[simp] theorem units_append (text more : List Char) :
    units (text ++ more) = units text ++ units more :=
  List.flatMap_append

theorem one_le_length_codeUnits (code : Nat) : 1 ≤ (codeUnits code).length := by
  unfold codeUnits
  split <;> simp

theorem length_codeUnits_le (code : Nat) : (codeUnits code).length ≤ 2 := by
  unfold codeUnits
  split <;> simp

theorem length_le_length_units (text : List Char) : text.length ≤ (units text).length := by
  induction text with
  | nil => exact Nat.le_refl 0
  | cons c cs ih =>
    have hfirst := one_le_length_codeUnits c.toNat
    simp
    omega

theorem toNat_bounds (c : Char) : c.toNat < 0xD800 ∨ 0xDFFF < c.toNat ∧ c.toNat < 0x110000 :=
  c.valid

theorem codeUnits_append_inj {c d : Char} {rest more : List Nat}
    (h : codeUnits c.toNat ++ rest = codeUnits d.toNat ++ more) : c = d ∧ rest = more := by
  have hc := toNat_bounds c
  have hd := toNat_bounds d
  unfold codeUnits at h
  rw [← Char.toNat_inj]
  split at h
  · split at h
    · simpa using h
    · simp only [List.cons_append, List.nil_append, List.cons.injEq] at h
      omega
  · split at h
    · simp only [List.cons_append, List.nil_append, List.cons.injEq] at h
      omega
    · simp only [List.cons_append, List.nil_append, List.cons.injEq] at h
      obtain ⟨hhigh, hlow, hrest⟩ := h
      exact ⟨by omega, hrest⟩

theorem units_injective {text other : List Char} (h : units text = units other) : text = other := by
  induction text generalizing other with
  | nil =>
    cases other with
    | nil => rfl
    | cons d ds =>
      have hlength := length_le_length_units (d :: ds)
      rw [← h] at hlength
      cases hlength
  | cons c cs ih =>
    cases other with
    | nil =>
      have hlength := length_le_length_units (c :: cs)
      rw [h] at hlength
      cases hlength
    | cons d ds =>
      rw [units_cons, units_cons] at h
      obtain ⟨rfl, hrest⟩ := codeUnits_append_inj h
      rw [ih hrest]

def hexValue? (digits : List Char) : Option Nat :=
  (digits.mapM hexDigit?).map fun values => values.foldl (fun code digit => 16 * code + digit) 0

/-- The letters that stand for a control character behind a backslash, and the characters. -/
def controlEscapes : List (Char × Char) :=
  [('b', '\x08'), ('t', '\t'), ('n', '\n'), ('v', '\x0b'), ('f', '\x0c'), ('r', '\r')]

def controlEscape? (c : Char) : Option Char :=
  controlEscapes.lookup c

def lineEnds : List Char :=
  ['\n', '\u2028', '\u2029']

/-- What stands behind a backslash, where what follows does not matter, and its code units. -/
inductive Escape : List Char → List Nat → Prop
  | control {c d : Char} (h : controlEscape? c = some d) : Escape [c] (codeUnits d.toNat)
  | other {c : Char} (hcontrol : controlEscape? c = none) (hdigit : c.isDigit = false)
      (hother : c ∉ 'x' :: 'u' :: '\r' :: lineEnds) : Escape [c] (codeUnits c.toNat)
  | hex {i j : Char} {code : Nat} (h : hexValue? [i, j] = some code) : Escape ['x', i, j] [code]
  | unit {i j k l : Char} {code : Nat} (h : hexValue? [i, j, k, l] = some code) :
      Escape ['u', i, j, k, l] [code]
  | codePoint {digits : List Char} {code : Nat} (hne : digits ≠ [])
      (h : hexValue? digits = some code) (hcode : code ≤ 0x10FFFF) :
      Escape ('u' :: '{' :: (digits ++ ['}'])) (codeUnits code)
  | lineEnd {c : Char} (h : c ∈ lineEnds) : Escape [c] []
  | carriageReturnLineFeed : Escape ['\r', '\n'] []

/-- The code units that the inside of a string literal stands for. A line ends in a template only,
where it stands for a line feed, and a template has no substitution. -/
inductive StringValue (quote : Char) : List Char → List Nat → Prop
  | nil : StringValue quote [] []
  | char {c : Char} {cs : List Char} {value : List Nat} (hquote : c ≠ quote) (hslash : c ≠ '\\')
      (hreturn : c ≠ '\r') (hline : c = '\n' → quote = '\x60')
      (hsubstitution : ¬(c = '$' ∧ quote = '\x60' ∧ cs.head? = some '{'))
      (h : StringValue quote cs value) : StringValue quote (c :: cs) (codeUnits c.toNat ++ value)
  | carriageReturn {cs : List Char} {value : List Nat} (hquote : quote = '\x60')
      (hline : cs.head? ≠ some '\n') (h : StringValue quote cs value) :
      StringValue quote ('\r' :: cs) (10 :: value)
  | carriageReturnLineFeed {cs : List Char} {value : List Nat} (hquote : quote = '\x60')
      (h : StringValue quote cs value) : StringValue quote ('\r' :: '\n' :: cs) (10 :: value)
  | escape {sequence cs : List Char} {escaped value : List Nat} (hescape : Escape sequence escaped)
      (h : StringValue quote cs value) :
      StringValue quote ('\\' :: (sequence ++ cs)) (escaped ++ value)
  | null {cs : List Char} {value : List Nat} (hdigit : ∀ d ∈ cs.head?, d.isDigit = false)
      (h : StringValue quote cs value) : StringValue quote ('\\' :: '0' :: cs) (0 :: value)
  | continued {cs : List Char} {value : List Nat} (hline : cs.head? ≠ some '\n')
      (h : StringValue quote cs value) : StringValue quote ('\\' :: '\r' :: cs) value

/-- The escape that a text starts with and its code units, if it starts with one. -/
def escapeAt? : List Char → Option (List Char × List Nat)
  | [] => none
  | c :: cs =>
    if c = 'x' then (hexValue? (cs.take 2)).map fun code => ('x' :: cs.take 2, [code])
    else if c = 'u' then
      if cs.head? = some '{' then
        let digits := cs.tail.takeWhile (· ≠ '}')
        (hexValue? digits).map fun code => ('u' :: '{' :: (digits ++ ['}']), codeUnits code)
      else (hexValue? (cs.take 4)).map fun code => ('u' :: cs.take 4, [code])
    else if c = '\r' then some (['\r', '\n'], [])
    else if c ∈ lineEnds then some ([c], [])
    else some ([c], codeUnits ((controlEscape? c).getD c).toNat)

theorem ne_of_hexValue? {digits : List Char} {code : Nat} {d : Char} (hd : hexDigit? d = none)
    (h : hexValue? digits = some code) : ∀ c ∈ digits, c ≠ d := by
  obtain ⟨values, hvalues, -⟩ := Option.map_eq_some_iff.mp h
  clear h
  induction digits generalizing values with
  | nil => simp
  | cons c cs ih =>
    rw [List.mapM_cons] at hvalues
    obtain ⟨first, hfirst, hvalues⟩ := Option.bind_eq_some_iff.mp hvalues
    obtain ⟨others, hothers, -⟩ := Option.bind_eq_some_iff.mp hvalues
    rw [List.forall_mem_cons]
    refine ⟨?_, ih others hothers⟩
    rintro rfl
    rw [hd] at hfirst
    cases hfirst

theorem escapeAt?_of_notMem {c : Char} {cs : List Char} (h : c ∉ 'x' :: 'u' :: '\r' :: lineEnds) :
    escapeAt? (c :: cs) = some ([c], codeUnits ((controlEscape? c).getD c).toNat) := by
  simp only [List.mem_cons, not_or] at h
  obtain ⟨hx, hu, hreturn, hline⟩ := h
  rw [escapeAt?, if_neg hx, if_neg hu, if_neg hreturn, if_neg hline]

theorem Escape.escapeAt?_append {sequence : List Char} {escaped : List Nat}
    (h : Escape sequence escaped) (rest : List Char) :
    escapeAt? (sequence ++ rest) = some (sequence, escaped) := by
  have hspecial : ∀ e ∈ 'x' :: 'u' :: '\r' :: lineEnds, controlEscape? e = none := by decide
  cases h with
  | @control c d hcontrol =>
    have hc : c ∉ 'x' :: 'u' :: '\r' :: lineEnds := by
      intro hmem
      rw [hspecial c hmem] at hcontrol
      cases hcontrol
    rw [List.singleton_append, escapeAt?_of_notMem hc, hcontrol]
    rfl
  | other hcontrol _ hother =>
    rw [List.singleton_append, escapeAt?_of_notMem hother, hcontrol]
    rfl
  | @hex i j code h =>
    change (hexValue? [i, j]).map _ = _
    rw [h]
    rfl
  | @unit i j k l code h =>
    have hbrace : ¬some i = some '{' := by
      rintro ⟨rfl⟩
      exact ne_of_hexValue? rfl h '{' List.mem_cons_self rfl
    change (if some i = some '{' then _ else (hexValue? [i, j, k, l]).map _) = _
    rw [if_neg hbrace, h]
    rfl
  | @codePoint digits code hne h hcode =>
    have hdigits : (digits ++ ['}'] ++ rest).takeWhile (· ≠ '}') = digits := by
      rw [List.append_assoc, List.takeWhile_append_of_pos]
      · exact List.append_nil digits
      · intro c hc
        exact decide_eq_true (ne_of_hexValue? rfl h c hc)
    change (hexValue? ((digits ++ ['}'] ++ rest).takeWhile (· ≠ '}'))).map (fun code =>
      ('u' :: '{' :: ((digits ++ ['}'] ++ rest).takeWhile (· ≠ '}') ++ ['}']), codeUnits code)) = _
    rw [hdigits, h]
    rfl
  | @lineEnd c h =>
    simp only [lineEnds, List.mem_cons, List.not_mem_nil, or_false] at h
    rcases h with rfl | rfl | rfl <;> rfl
  | carriageReturnLineFeed => rfl

theorem Escape.unique {sequence sequence' rest rest' : List Char} {escaped escaped' : List Nat}
    (h : Escape sequence escaped) (h' : Escape sequence' escaped')
    (heq : sequence ++ rest = sequence' ++ rest') : sequence = sequence' ∧ escaped = escaped' := by
  have hread := h.escapeAt?_append rest
  rw [heq, h'.escapeAt?_append rest'] at hread
  cases hread
  exact ⟨rfl, rfl⟩

theorem Escape.exists_cons {sequence : List Char} {escaped : List Nat}
    (h : Escape sequence escaped) :
    ∃ c cs, sequence = c :: cs ∧ c ≠ '0' ∧ (c = '\r' → cs = ['\n']) := by
  have hother {c : Char} (hc : c ≠ '0') (hreturn : c ≠ '\r') (cs : List Char) :
      ∃ d ds, c :: cs = d :: ds ∧ d ≠ '0' ∧ (d = '\r' → ds = ['\n']) :=
    ⟨c, cs, rfl, hc, fun heq => absurd heq hreturn⟩
  cases h with
  | control hcontrol =>
    exact hother (by rintro rfl; cases hcontrol) (by rintro rfl; cases hcontrol) _
  | other _ hdigit hmem =>
    exact hother (by rintro rfl; cases hdigit) (by rintro rfl; exact hmem (by decide)) _
  | hex _ => exact hother (by decide) (by decide) _
  | unit _ => exact hother (by decide) (by decide) _
  | codePoint _ _ _ => exact hother (by decide) (by decide) _
  | lineEnd hmem =>
    exact hother (by rintro rfl; exact absurd hmem (by decide))
      (by rintro rfl; exact absurd hmem (by decide)) _
  | carriageReturnLineFeed => exact ⟨_, _, rfl, by decide, fun _ => rfl⟩

theorem StringValue.cases_slash {quote : Char} {rest : List Char} {value : List Nat}
    (h : StringValue quote ('\\' :: rest) value) :
    (∃ sequence cs escaped inner, rest = sequence ++ cs ∧ Escape sequence escaped ∧
      StringValue quote cs inner ∧ value = escaped ++ inner) ∨
    (∃ cs inner, rest = '0' :: cs ∧ StringValue quote cs inner ∧ value = 0 :: inner) ∨
    ∃ cs, rest = '\r' :: cs ∧ cs.head? ≠ some '\n' ∧ StringValue quote cs value := by
  cases h with
  | char _ hslash _ _ _ _ => exact absurd rfl hslash
  | escape hescape h => exact Or.inl ⟨_, _, _, _, rfl, hescape, h, rfl⟩
  | null _ h => exact Or.inr (Or.inl ⟨_, _, rfl, h, rfl⟩)
  | continued hline h => exact Or.inr (Or.inr ⟨_, rfl, hline, h⟩)

theorem StringValue.of_escape {quote : Char} {sequence cs : List Char} {escaped value : List Nat}
    (hescape : Escape sequence escaped)
    (h : StringValue quote ('\\' :: (sequence ++ cs)) value) :
    ∃ inner, StringValue quote cs inner ∧ value = escaped ++ inner := by
  obtain ⟨c, more, rfl, hzero, hreturn⟩ := hescape.exists_cons
  rcases h.cases_slash with ⟨other, cs', escaped', inner, heq, hescape', hinner, rfl⟩ |
    ⟨cs', inner, heq, hinner, rfl⟩ | ⟨cs', heq, hline, -⟩
  · obtain ⟨rfl, rfl⟩ := hescape'.unique hescape heq.symm
    rw [List.append_cancel_left heq]
    exact ⟨inner, hinner, rfl⟩
  · exact absurd (List.cons.inj heq).1 hzero
  · obtain ⟨rfl, hbehind⟩ := List.cons.inj heq
    rw [hreturn rfl] at hbehind
    rw [← hbehind] at hline
    exact absurd rfl hline

theorem StringValue.of_null {quote : Char} {cs : List Char} {value : List Nat}
    (h : StringValue quote ('\\' :: '0' :: cs) value) :
    ∃ inner, StringValue quote cs inner ∧ value = 0 :: inner := by
  rcases h.cases_slash with ⟨sequence, cs', escaped, inner, heq, hescape, -, rfl⟩ |
    ⟨cs', inner, heq, hinner, rfl⟩ | ⟨cs', heq, hline, -⟩
  · obtain ⟨c, more, rfl, hzero, -⟩ := hescape.exists_cons
    exact absurd (List.cons.inj heq).1.symm hzero
  · cases heq
    exact ⟨inner, hinner, rfl⟩
  · cases heq

theorem StringValue.of_continued {quote : Char} {cs : List Char} {value : List Nat}
    (h : StringValue quote ('\\' :: '\r' :: cs) value) (hline : cs.head? ≠ some '\n') :
    StringValue quote cs value := by
  rcases h.cases_slash with ⟨sequence, cs', escaped, inner, heq, hescape, -, rfl⟩ |
    ⟨cs', inner, heq, hinner, rfl⟩ | ⟨cs', heq, -, hcs⟩
  · obtain ⟨c, more, rfl, -, hreturn⟩ := hescape.exists_cons
    obtain ⟨rfl, hbehind⟩ := List.cons.inj heq
    rw [hbehind, hreturn rfl] at hline
    exact absurd rfl hline
  · cases heq
  · cases heq
    exact hcs

theorem StringValue.unique {quote : Char} {raw : List Char} {value value' : List Nat}
    (h : StringValue quote raw value) (h' : StringValue quote raw value') : value = value' := by
  induction h generalizing value' with
  | nil =>
    cases h'
    rfl
  | char _ hslash hreturn _ _ _ ih =>
    cases h' with
    | char _ _ _ _ _ h' => rw [ih h']
    | carriageReturn _ _ _ => exact absurd rfl hreturn
    | carriageReturnLineFeed _ _ => exact absurd rfl hreturn
    | escape _ _ => exact absurd rfl hslash
    | null _ _ => exact absurd rfl hslash
    | continued _ _ => exact absurd rfl hslash
  | carriageReturn _ hline _ ih =>
    cases h' with
    | char _ _ hreturn _ _ _ => exact absurd rfl hreturn
    | carriageReturn _ _ h' => rw [ih h']
    | carriageReturnLineFeed _ _ => exact absurd rfl hline
  | carriageReturnLineFeed _ _ ih =>
    cases h' with
    | char _ _ hreturn _ _ _ => exact absurd rfl hreturn
    | carriageReturn _ hline _ => exact absurd rfl hline
    | carriageReturnLineFeed _ h' => rw [ih h']
  | escape hescape _ ih =>
    obtain ⟨rest, hrest, rfl⟩ := StringValue.of_escape hescape h'
    rw [ih hrest]
  | null _ _ ih =>
    obtain ⟨rest, hrest, rfl⟩ := h'.of_null
    rw [ih hrest]
  | continued hline _ ih => exact ih (h'.of_continued hline)

end TemplateMessages.Script
