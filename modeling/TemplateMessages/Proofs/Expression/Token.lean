import Mathlib.Data.List.Basic
import TemplateMessages.Proofs.Expression.PlainName
import TemplateMessages.Proofs.Expression.ReaderOutcome

set_option autoImplicit false

/-!
# Tokens of constant expressions

A string, a number or a name is read up to its end, whatever stands behind it that is no part of a
name or a number.
-/

namespace TemplateMessages.Expression

open TemplateMessages.Number (Binary64 Decimal)
open TemplateMessages.Text (Rest Shorter)

def Bounded (rest : List Char) : Prop :=
  ∀ c ∈ rest.head?, isIdentifierChar c = false ∧ c ≠ '.'

theorem bounded_nil : Bounded [] := by
  rintro c ⟨⟩

theorem bounded_cons {c : Char} (h : isIdentifierChar c = false ∧ c ≠ '.') (cs : List Char) :
    Bounded (c :: cs) := by
  rintro d ⟨⟩
  exact h

/-- What a character behind a backslash is read as. The end of a line is left out. -/
def unescaped (c : Char) : List Char :=
  if c = 'n' then ['\n']
  else if c = 't' then ['\t']
  else if c = 'r' then ['\r']
  else if c = '0' then ['\x00']
  else if c = '\n' then []
  else [c]

/-- What the text between two quotes is read as, if it is read up to its end. -/
def insideValue? (quote : Char) : List Char → Option (List Char)
  | [] => some []
  | c :: cs =>
    if c = quote then none
    else if c = '\\' then
      match cs with
      | [] => none
      | e :: rest => (insideValue? quote rest).map (unescaped e ++ ·)
    else if c = '$' ∧ quote = '\x60' ∧ cs.head? = some '{' then none
    else if c = '\n' ∧ quote ≠ '\x60' then none
    else (insideValue? quote cs).map (c :: ·)

section

variable {quote : Char} {cs chars read : List Char}

theorem insideValue?_cons {c : Char} (hslash : c ≠ '\\')
    (h : insideValue? quote (c :: cs) = some read) :
    ∃ inner, insideValue? quote cs = some inner ∧ read = c :: inner := by
  rw [insideValue?.eq_def] at h
  simp only [if_neg hslash] at h
  split at h
  · cases h
  · split at h
    · cases h
    · split at h
      · cases h
      · obtain ⟨inner, hinner, rfl⟩ := Option.map_eq_some_iff.mp h
        exact ⟨inner, hinner, rfl⟩

theorem insideValue?_append (hchars : ∀ c ∈ chars, c ≠ '\\')
    (h : insideValue? quote (chars ++ cs) = some read) :
    ∃ inner, insideValue? quote cs = some inner ∧ read = chars ++ inner := by
  induction chars generalizing read with
  | nil => exact ⟨read, h, rfl⟩
  | cons c chars ih =>
    rw [List.forall_mem_cons] at hchars
    obtain ⟨behind, hbehind, rfl⟩ := insideValue?_cons hchars.1 h
    obtain ⟨inner, hinner, rfl⟩ := ih hchars.2 hbehind
    exact ⟨inner, hinner, rfl⟩

theorem insideValue?_escape {e : Char} (h : insideValue? quote ('\\' :: e :: cs) = some read) :
    ∃ inner, insideValue? quote cs = some inner ∧ read = unescaped e ++ inner := by
  rw [insideValue?.eq_def] at h
  dsimp only at h
  split at h
  · cases h
  · rw [if_pos rfl] at h
    obtain ⟨inner, hinner, rfl⟩ := Option.map_eq_some_iff.mp h
    exact ⟨inner, hinner, rfl⟩

end

section

variable {quote : Char} {text raw rest value : List Char}

theorem outcome?_readString (quote : Char) (text : List Char) :
    outcome? (readString quote text) =
      match text with
      | [] => none
      | c :: cs =>
        if c = quote then some ([], cs)
        else if c = '\\' then
          match cs with
          | [] => none
          | e :: rest =>
            (outcome? (readString quote rest)).map fun (value, after) =>
              (unescaped e ++ value, after)
        else if c = '$' ∧ quote = '\x60' ∧ cs.head? = some '{' then none
        else if c = '\n' ∧ quote ≠ '\x60' then none
        else (outcome? (readString quote cs)).map fun (value, after) => (c :: value, after) := by
  rw [readString.eq_def]
  cases text with
  | nil => rfl
  | cons c cs =>
    dsimp only
    split
    · rfl
    · split
      · cases cs with
        | nil => rfl
        | cons e rest =>
          dsimp only
          cases readString quote rest with
          | error stop => rfl
          | ok reading =>
            obtain ⟨value, after⟩ := reading
            simp only [outcome?, Except.toOption, unescaped, Option.map_some]
            split_ifs <;> rfl
      · split
        · rfl
        · split
          · rfl
          · cases readString quote cs <;> rfl

theorem readString_inside (h : insideValue? quote raw = some value) (rest : List Char) :
    outcome? (readString quote (raw ++ quote :: rest)) = some (value, rest) := by
  fun_induction insideValue? quote raw generalizing value with
  | case1 =>
    cases h
    rw [List.nil_append, outcome?_readString]
    exact if_pos rfl
  | case2 => cases h
  | case3 => cases h
  | case4 e more hquote ih =>
    obtain ⟨inner, hinner, rfl⟩ := Option.map_eq_some_iff.mp h
    rw [List.cons_append, List.cons_append, outcome?_readString]
    dsimp only
    rw [if_neg hquote, if_pos rfl, ih hinner]
    rfl
  | case5 => cases h
  | case6 => cases h
  | case7 c cs hquote hslash hsubstitution hline ih =>
    obtain ⟨inner, hinner, rfl⟩ := Option.map_eq_some_iff.mp h
    have hopen : ¬(c = '$' ∧ quote = '\x60' ∧ (cs ++ quote :: rest).head? = some '{') := by
      rintro ⟨rfl, rfl, hhead⟩
      cases cs with
      | nil => cases hhead
      | cons d ds => exact hsubstitution ⟨rfl, rfl, hhead⟩
    rw [List.cons_append, outcome?_readString]
    dsimp only
    rw [if_neg hquote, if_neg hslash, if_neg hopen, if_neg hline, ih hinner]
    rfl

theorem exists_inside_of_readString (h : outcome? (readString quote text) = some (value, rest)) :
    ∃ raw, text = raw ++ quote :: rest ∧ insideValue? quote raw = some value := by
  -- An escape takes two characters at once, so the induction is on the length.
  induction hlength : text.length using Nat.strongRecOn generalizing text value with
  | ind length ih =>
    subst hlength
    rw [outcome?_readString] at h
    split at h
    · cases h
    · rename_i c cs
      split at h
      · rename_i hquote
        cases h
        exact ⟨[], by rw [hquote]; rfl, rfl⟩
      · rename_i hquote
        split at h
        · rename_i hslash
          split at h
          · cases h
          · rename_i e more
            obtain ⟨⟨inner, after⟩, hinner, heq⟩ := Option.map_eq_some_iff.mp h
            cases heq
            have hshorter : more.length < (c :: e :: more).length := by
              simp only [List.length_cons]
              omega
            obtain ⟨raw, rfl, hraw⟩ := ih more.length hshorter hinner rfl
            refine ⟨c :: e :: raw, rfl, ?_⟩
            rw [insideValue?.eq_def]
            dsimp only
            rw [if_neg hquote, if_pos hslash, hraw]
            rfl
        · rename_i hslash
          split at h
          · cases h
          · rename_i hsubstitution
            split at h
            · cases h
            · rename_i hline
              obtain ⟨⟨inner, after⟩, hinner, heq⟩ := Option.map_eq_some_iff.mp h
              cases heq
              obtain ⟨raw, rfl, hraw⟩ := ih cs.length (Nat.lt_succ_self _) hinner rfl
              have hopen : ¬(c = '$' ∧ quote = '\x60' ∧ raw.head? = some '{') := by
                rintro ⟨hc, hback, hhead⟩
                refine hsubstitution ⟨hc, hback, ?_⟩
                rw [List.head?_append, hhead]
                rfl
              refine ⟨c :: raw, rfl, ?_⟩
              rw [insideValue?.eq_def]
              dsimp only
              rw [if_neg hquote, if_neg hslash, if_neg hopen, if_neg hline, hraw]
              rfl

end

section

variable {cs rest : List Char}

theorem takeWhile_of_bounded (hcs : ∀ c ∈ cs, isIdentifierChar c = true) (h : Bounded rest) :
    (cs ++ rest).takeWhile isIdentifierChar = cs ∧
      (cs ++ rest).dropWhile isIdentifierChar = rest := by
  rw [List.takeWhile_append_of_pos hcs, List.dropWhile_append_of_pos hcs]
  cases rest with
  | nil => exact ⟨List.append_nil cs, rfl⟩
  | cons d ds =>
    have hd : ¬isIdentifierChar d = true := Bool.eq_false_iff.mp (h d rfl).1
    rw [List.takeWhile_cons_of_neg hd, List.dropWhile_cons_of_neg hd, List.append_nil]
    exact ⟨rfl, rfl⟩

end

section

variable {point exponent : Bool} {cs rest : List Char} {c : Char}

def digitsOf (point exponent : Bool) (text : List Char) : List Char :=
  (numberChars point exponent text).1

theorem digitsOf_cons (point exponent : Bool) (c : Char) (cs : List Char) :
    digitsOf point exponent (c :: cs) =
      if c.isDigit then c :: digitsOf point exponent cs
      else if c = '.' ∧ !point ∧ !exponent then c :: digitsOf true exponent cs
      else if (c = 'e' ∨ c = 'E') ∧ !exponent then
        match cs with
        | [] => [c]
        | sign :: more =>
          if sign = '+' ∨ sign = '-' then c :: sign :: digitsOf point true more
          else c :: digitsOf point true (sign :: more)
      else [] := by
  unfold digitsOf
  rw [numberChars.eq_def]
  dsimp only
  split
  · rfl
  · split
    · rfl
    · split
      · cases cs with
        | nil => rfl
        | cons sign more =>
          dsimp only
          split <;> rfl
      · rfl

@[simp] theorem digitsOf_append (point exponent : Bool) (text : List Char) :
    digitsOf point exponent text ++ (numberChars point exponent text).2.val = text := by
  unfold digitsOf
  fun_induction numberChars point exponent text with
  | case1 => rfl
  | case2 point exponent c cs _ digits rest hread ih =>
    rw [hread] at ih
    exact congrArg (c :: ·) ih
  | case3 point exponent c cs _ _ digits rest hread ih =>
    rw [hread] at ih
    exact congrArg (c :: ·) ih
  | case4 point exponent c _ _ _ sign more _ digits rest hread ih =>
    rw [hread] at ih
    exact congrArg (c :: sign :: ·) ih
  | case5 point exponent c _ _ _ sign more _ digits rest hread ih =>
    rw [hread] at ih
    exact congrArg (c :: ·) ih
  | case6 => rfl
  | case7 => rfl

theorem head?_digitsOf (point exponent : Bool) (c : Char) (cs : List Char) :
    ∀ d ∈ (digitsOf point exponent (c :: cs)).head?, d = c := by
  rw [digitsOf_cons]
  split
  · exact fun d hd => (Option.some.inj hd).symm
  · split
    · exact fun d hd => (Option.some.inj hd).symm
    · split
      · split
        · exact fun d hd => (Option.some.inj hd).symm
        · split <;> exact fun d hd => (Option.some.inj hd).symm
      · rintro d ⟨⟩

@[simp] theorem digitsOf_digitsOf (point exponent : Bool) (text : List Char) :
    digitsOf point exponent (digitsOf point exponent text) = digitsOf point exponent text := by
  conv => lhs; arg 3; unfold digitsOf
  conv => rhs; unfold digitsOf
  fun_induction numberChars point exponent text with
  | case1 => rfl
  | case2 point exponent c cs hdigit digits rest hread ih =>
    rw [hread] at ih
    rw [digitsOf_cons, if_pos hdigit, ih]
  | case3 point exponent c cs hdigit hpoint digits rest hread ih =>
    rw [hread] at ih
    rw [digitsOf_cons, if_neg hdigit, if_pos hpoint, ih]
  | case4 point exponent c hdigit hpoint hletter sign more hsign digits rest hread ih =>
    rw [hread] at ih
    rw [digitsOf_cons, if_neg hdigit, if_neg hpoint, if_pos hletter]
    dsimp only
    rw [if_pos hsign, ih]
  | case5 point exponent c hdigit hpoint hletter sign more hsign digits rest hread ih =>
    have hhead := head?_digitsOf point true sign more
    rw [digitsOf, hread] at hhead
    rw [hread] at ih
    rw [digitsOf_cons, if_neg hdigit, if_neg hpoint, if_pos hletter]
    dsimp only at hhead ⊢
    cases digits with
    | nil => rfl
    | cons d ds =>
      obtain rfl := hhead d rfl
      dsimp only
      rw [if_neg hsign, ih]
  | case6 point exponent c hdigit hpoint hletter =>
    rw [digitsOf_cons, if_neg hdigit, if_neg hpoint, if_pos hletter]
  | case7 => rfl

theorem digitsOf_bounded (h : Bounded rest) : digitsOf point exponent rest = [] := by
  cases rest with
  | nil => rfl
  | cons c cs =>
    obtain ⟨hword, hpoint⟩ := h c rfl
    have hdigit : ¬c.isDigit = true := by
      intro hdigit
      rw [isIdentifierChar, Char.isAlphanum, hdigit, Bool.or_true] at hword
      cases hword
    have hletter : ¬(c = 'e' ∨ c = 'E') := by
      rintro (rfl | rfl) <;> cases hword
    rw [digitsOf_cons, if_neg hdigit, if_neg (fun h => hpoint h.1), if_neg (fun h => hletter h.1)]

/-- In front of what bounds it a run of digits is the same, unless it waits for its exponent. -/
theorem digitsOf_append_of_bounded (h : digitsOf point exponent cs = cs)
    (hlast : ∀ d ∈ cs.getLast?, ¬(d = 'e' ∨ d = 'E')) (hrest : Bounded rest) :
    digitsOf point exponent (cs ++ rest) = cs := by
  unfold digitsOf at h
  fun_induction numberChars point exponent cs with
  | case1 => exact digitsOf_bounded hrest
  | case2 point exponent c cs hdigit digits rest hread ih =>
    rw [hread] at ih
    rw [List.cons_append, digitsOf_cons, if_pos hdigit,
      ih (List.cons.inj h).2 fun d hd => hlast d (List.mem_getLast?_cons hd)]
  | case3 point exponent c cs hdigit hpoint digits rest hread ih =>
    rw [hread] at ih
    rw [List.cons_append, digitsOf_cons, if_neg hdigit, if_pos hpoint,
      ih (List.cons.inj h).2 fun d hd => hlast d (List.mem_getLast?_cons hd)]
  | case4 point exponent c hdigit hpoint hletter sign more hsign digits rest hread ih =>
    rw [hread] at ih
    rw [List.cons_append, List.cons_append, digitsOf_cons, if_neg hdigit, if_neg hpoint,
      if_pos hletter]
    dsimp only
    rw [if_pos hsign, ih (List.cons.inj (List.cons.inj h).2).2 fun d hd =>
      hlast d (List.mem_getLast?_cons (List.mem_getLast?_cons hd))]
  | case5 point exponent c hdigit hpoint hletter sign more hsign digits rest hread ih =>
    rw [hread] at ih
    have hmore := ih (List.cons.inj h).2 fun d hd => hlast d (List.mem_getLast?_cons hd)
    rw [List.cons_append, digitsOf_cons, if_neg hdigit, if_neg hpoint, if_pos hletter]
    rw [List.cons_append] at hmore ⊢
    dsimp only
    rw [if_neg hsign, hmore]
  | case6 point exponent c hdigit hpoint hletter => exact absurd hletter.1 (hlast c rfl)
  | case7 => cases h

def IsNumberEnd (c : Char) : Prop :=
  c.isDigit = true ∨ c = '.'

theorem getLast?_of_exponentOfText? {text : List Char} {value : Int}
    (h : Decimal.exponentOfText? text = some value) :
    ∃ d ∈ text.getLast?, d.isDigit = true := by
  have hlast : ∀ digits : List Char, (digits.isEmpty || !digits.all Char.isDigit) = false →
      ∃ d ∈ digits.getLast?, d.isDigit = true := by
    intro digits hdigits
    obtain ⟨hne, hall⟩ := Bool.or_eq_false_iff.mp hdigits
    have hne : digits ≠ [] := by
      rintro rfl
      cases hne
    rw [Bool.not_eq_false'] at hall
    exact ⟨digits.getLast hne, List.getLast?_eq_some_getLast hne,
      List.all_eq_true.mp hall _ (List.getLast_mem hne)⟩
  unfold Decimal.exponentOfText? at h
  dsimp only at h
  split at h
  all_goals
    obtain ⟨read, hread, -⟩ := Option.map_eq_some_iff.mp h
    split at hread
    · cases hread
    · rename_i hdigits
      obtain ⟨d, hd, hdigit⟩ := hlast _ (Bool.eq_false_iff.mpr hdigits)
      first
        | exact ⟨d, List.mem_getLast?_cons hd, hdigit⟩
        | exact ⟨d, hd, hdigit⟩

theorem getLast?_of_ofText? {text : List Char} {value : Decimal}
    (h : Decimal.ofText? text = some value) : ∀ c ∈ text.getLast?, IsNumberEnd c := by
  -- A numeral ends with its exponent, or with the digits and the point in front of it.
  have hwhole : ∀ c ∈ text.takeWhile Char.isDigit, IsNumberEnd c :=
    fun c hc => Or.inl (List.mem_takeWhile_imp hc)
  have hlast : ∀ front rest : List Char, text = front ++ rest → (∀ c ∈ front, IsNumberEnd c) →
      (rest = [] ∨ ∃ e exponent n, rest = e :: exponent ∧
        Decimal.exponentOfText? exponent = some n) → ∀ c ∈ text.getLast?, IsNumberEnd c := by
    rintro front rest rfl hfront (rfl | ⟨e, exponent, n, rfl, hexponent⟩) c hc
    · rw [List.append_nil] at hc
      exact hfront c (List.mem_of_getLast? hc)
    · obtain ⟨d, hd, hdigit⟩ := getLast?_of_exponentOfText? hexponent
      have hend : d ∈ (front ++ e :: exponent).getLast? :=
        List.mem_getLast?_append_of_mem_getLast? (List.mem_getLast?_cons hd)
      cases hc.symm.trans hend
      exact Or.inl hdigit
  have htext : text.takeWhile Char.isDigit ++ text.dropWhile Char.isDigit = text :=
    List.takeWhile_append_dropWhile
  have hbehind {invalid : Bool} {rest : List Char} {whole : Decimal} {scaled : Int → Decimal}
      (h : (if invalid = true then none
        else match rest with
          | [] => some whole
          | e :: exponent =>
            if e = 'e' ∨ e = 'E' then (Decimal.exponentOfText? exponent).map scaled else none) =
        some value) :
      rest = [] ∨ ∃ e exponent n, rest = e :: exponent ∧
        Decimal.exponentOfText? exponent = some n := by
    split at h
    · cases h
    · split at h
      · exact Or.inl rfl
      · rename_i e exponent
        split at h
        · obtain ⟨n, hn, -⟩ := Option.map_eq_some_iff.mp h
          exact Or.inr ⟨e, exponent, n, rfl, hn⟩
        · cases h
  unfold Decimal.ofText? at h
  dsimp only at h
  split at h
  · rename_i more hmore
    refine hlast (text.takeWhile Char.isDigit ++ '.' :: more.takeWhile Char.isDigit)
      (more.dropWhile Char.isDigit) ?_ ?_ ?_
    · rw [List.append_assoc, List.cons_append, List.takeWhile_append_dropWhile, ← hmore, htext]
    · intro c hc
      rcases List.mem_append.mp hc with hdigit | hbehind
      · exact hwhole c hdigit
      · rcases List.mem_cons.mp hbehind with rfl | hdigit
        · exact Or.inr rfl
        · exact Or.inl (List.mem_takeWhile_imp hdigit)
    · exact hbehind h
  · exact hlast _ _ htext.symm hwhole (hbehind h)

/-- The value of a number that is read up to its end. -/
def numberValue? : List Char → Option Binary64
  | [] => none
  | c :: cs =>
    if (c.isDigit ∨ c = '.') ∧ digitsOf (c == '.') false cs = cs then Binary64.ofText? (c :: cs)
    else none

theorem getLast?_of_numberValue? {digits : List Char} {value : Binary64}
    (h : numberValue? digits = some value) : ∀ d ∈ digits.getLast?, IsNumberEnd d := by
  unfold numberValue? at h
  split at h
  · cases h
  · rename_i c cs
    split at h
    · rename_i hshape
      have hsign : c ≠ '-' ∧ c ≠ '+' := by
        constructor <;> rintro rfl <;> exact absurd hshape.1 (by decide)
      unfold Binary64.ofText? at h
      split at h
      · rename_i heq
        exact absurd (List.cons.inj heq).1 hsign.1
      · rename_i heq
        exact absurd (List.cons.inj heq).1 hsign.2
      · obtain ⟨decimal, hdecimal, -⟩ := Option.map_eq_some_iff.mp h
        exact getLast?_of_ofText? hdecimal
    · cases h

theorem readNumber_of_bounded {value : Binary64} (h : numberValue? (c :: cs) = some value)
    (hrest : Bounded rest) : outcome? (readNumber c (cs ++ rest)) = some (value, rest) := by
  have hlast : ∀ d ∈ cs.getLast?, ¬(d = 'e' ∨ d = 'E') := by
    intro d hd
    rcases getLast?_of_numberValue? h d (List.mem_getLast?_cons hd) with hdigit | rfl
    · rintro (rfl | rfl) <;> cases hdigit
    · decide
  unfold numberValue? at h
  split at h
  · rename_i heq
    cases heq
  · rename_i heq
    cases heq
    split at h
    · rename_i hshape
      have hdigits := digitsOf_append_of_bounded hshape.2 hlast hrest
      have hbehind := digitsOf_append (c == '.') false (cs ++ rest)
      rw [hdigits] at hbehind
      rw [digitsOf] at hdigits
      rw [outcome?_readNumber, hdigits, h, List.append_cancel_left hbehind]
      rfl
    · cases h

theorem exists_number_of_readNumber {value : Binary64} (hc : c.isDigit ∨ c = '.')
    (h : outcome? (readNumber c cs) = some (value, rest)) :
    ∃ digits, cs = digits ++ rest ∧ numberValue? (c :: digits) = some value := by
  rw [outcome?_readNumber] at h
  obtain ⟨read, hread, heq⟩ := Option.map_eq_some_iff.mp h
  cases heq
  refine ⟨digitsOf (c == '.') false cs, (digitsOf_append _ _ cs).symm, ?_⟩
  rw [numberValue?, if_pos ⟨hc, digitsOf_digitsOf _ _ cs⟩]
  exact hread

end

end TemplateMessages.Expression
