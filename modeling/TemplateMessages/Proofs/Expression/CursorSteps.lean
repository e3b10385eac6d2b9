import Mathlib.Data.List.DropRight
import TemplateMessages.Proofs.Expression.Cursor
import TemplateMessages.Proofs.Expression.Phrase

set_option autoImplicit false

/-!
# What each routine does

The routines do what the readers do. For each routine it is said once what happens on the way from
its start to its end: the cursor is always in front of a rest of the text, and what is called has less
text left, or comes further down in the order of the routines.
-/

namespace TemplateMessages.Expression

open TemplateMessages.Number (Binary64)
open TemplateMessages.Text

namespace Routine

/-- The order of the routines: where nothing is read in between, a call goes down. -/
@[simp]
def Kind.rank : Kind → Nat
  | .blanks | .digits | .name | .string => 0
  | .sumFrom | .number => 1
  | .key | .primary => 2
  | .term => 3
  | .sum => 4
  | .items | .entries => 5
  | .whole => 6

/-- What the reader of the routine makes of a text. -/
def result : (routine : Routine) → List Char → Except (List Char) (routine.Value × List Char)
  | .whole, text =>
    (Expression.result (readSum text)).bind fun (value, rest) =>
      match skipBlanks rest with
      | [] => .ok (value, [])
      | c :: cs => .error (c :: cs)
  | .sum, text => Expression.result (readSum text)
  | .sumFrom value, text => Expression.result (readSumFrom value text)
  | .term, text => Expression.result (readTerm text)
  | .primary, text =>
    match skipBlanks text with
    | [] => .error []
    | c :: cs => Expression.result (readPrimary c cs)
  | .items found, text => Expression.result (readItems found text)
  | .entries found, text => Expression.result (readEntries found text)
  | .key, text => Expression.result (readKey text)
  | .string quote gathered, text =>
    (Expression.result (readString quote text)).map fun (value, rest) => (gathered ++ value, rest)
  | .number, text =>
    (orStop text (Binary64.ofText? (numberChars false false text).1)).map fun value =>
      (value, (numberChars false false text).2.val)
  | .digits point exponent, text => .ok ((), (numberChars point exponent text).2.val)
  | .name, text => .ok ((), text.dropWhile isIdentifierChar)
  | .blanks, text => .ok ((), skipBlanks text)

end Routine

/-- The text that a routine starts in front of. -/
abbrev Start := Routine × List Char

/-- What is called has less text left, or comes further down. -/
def Lower (caller callee : Start) : Prop :=
  callee.2.length < caller.2.length ∨ callee.1.kind.rank < caller.1.kind.rank

/-- What is left, or where reading stopped, is an end of the text. -/
def Inside {α : Type} (text : List Char) : Except (List Char) (α × List Char) → Prop
  | .ok (_, rest) => rest <:+ text
  | .error stop => stop <:+ text

/-- The position in front of the rest of an expression. -/
def placeOf (source rest : List Char) : Nat :=
  byteLength source - byteLength rest

/-- A program that stands in front of a text comes to the outcome, if what it calls comes to the
results of the readers. On the way it moves the cursor by whole characters, looks back no further
than to where its routine started, and calls what is lower. -/
def Program.Follows (source : List Char) (owner : Start) {α : Type} :
    Program α → List Char → Except (List Char) (α × List Char) → Prop
  | .done value, text, outcome => outcome = .ok (value, text)
  | .refuse, text, outcome => outcome = .error text
  | .refuseAt position, _, outcome =>
    ∃ stop, stop <:+ owner.2 ∧ position = placeOf source stop ∧ outcome = .error stop
  | .look next, text, outcome => (next text).Follows source owner text outcome
  | .here next, text, outcome => (next (placeOf source text)).Follows source owner text outcome
  | .slice start next, text, outcome =>
    ∃ between, between ++ text <:+ owner.2 ∧ start = placeOf source (between ++ text) ∧
      (next between).Follows source owner text outcome
  | .advance count next, text, outcome =>
    ∃ front rest, front ++ rest = text ∧ byteLength front = count ∧
      next.Follows source owner rest outcome
  | .call routine next, text, outcome =>
    Lower owner (routine, text) ∧
      (Inside text (routine.result text) →
        match routine.result text with
        | .ok (value, rest) => (next value).Follows source owner rest outcome
        | .error stop => outcome = .error stop)

variable {source text cs : List Char} {owner : Start} {α β : Type} {c : Char}

theorem byteLength_of_toNat_lt (h : c.toNat < 128) : byteLength [c] = 1 := by
  have hle : c.val ≤ 127 := by
    rw [UInt32.le_iff_toNat_le]
    exact Nat.le_of_lt_succ h
  rw [byteLength, byteLength, Char.utf8Size_eq_one_iff.mpr hle]

theorem toNat_lt_of_isIdentifierChar (h : isIdentifierChar c = true) : c.toNat < 128 := by
  rcases isIdentifierStart_or_isDigit h with hstart | hdigit
  · have hcode := toNat_of_isIdentifierStart hstart
    omega
  · have hbounds := toNat_of_isDigit hdigit
    omega

@[simp] theorem skipBlanks_skipBlanks (text : List Char) :
    skipBlanks (skipBlanks text) = skipBlanks text :=
  List.dropWhile_idempotent isBlank text

theorem skipBlanks_suffix (text : List Char) : skipBlanks text <:+ text :=
  List.dropWhile_suffix isBlank

theorem length_lt_of_skipBlanks (h : skipBlanks text = c :: cs) : cs.length < text.length := by
  have hle := (skipBlanks_suffix text).length_le
  rw [h, List.length_cons] at hle
  exact hle

theorem suffix_of_skipBlanks (h : skipBlanks text = c :: cs) : cs <:+ text :=
  (List.suffix_cons c cs).trans (h ▸ skipBlanks_suffix text)

@[simp] theorem behind?_skipBlanks (expected : Char) (text : List Char) :
    behind? expected (skipBlanks text) = behind? expected text := by
  unfold behind?
  simp

theorem skipBlanks_eq_of_behind? {expected : Char} (h : behind? expected text = some cs) :
    skipBlanks text = expected :: cs := by
  unfold behind? at h
  split at h
  · cases h
  · rename_i found rest hskip
    obtain ⟨rfl, hrest⟩ := Option.ite_none_right_eq_some.mp h
    rw [hskip, Option.some.inj hrest]

@[simp] theorem closing_skipBlanks (close : Char) (value : α) (text : List Char) :
    closing close value (skipBlanks text) = closing close value text := by
  unfold closing
  simp

@[simp] theorem result_readSum_skipBlanks (text : List Char) :
    result (readSum (skipBlanks text)) = result (readSum text) := by
  rw [result_readSum, result_readSum, result_readTerm, result_readTerm, skipBlanks_skipBlanks]

theorem follows_advance {count : Nat} {next : Program α}
    {outcome : Except (List Char) (α × List Char)} (hcount : byteLength [c] = count)
    (h : next.Follows source owner cs outcome) :
    (Program.advance count next).Follows source owner (c :: cs) outcome :=
  ⟨[c], cs, rfl, hcount, h⟩

theorem follows_call {routine : Routine} {next : routine.Value → Program α}
    {f : routine.Value × List Char → Except (List Char) (α × List Char)}
    (hlower : Lower owner (routine, text))
    (h : ∀ value rest, rest <:+ text → (next value).Follows source owner rest (f (value, rest))) :
    (Program.call routine next).Follows source owner text ((routine.result text).bind f) := by
  refine ⟨hlower, fun hinside => ?_⟩
  cases hresult : routine.result text with
  | error stop => rfl
  | ok found =>
    obtain ⟨value, rest⟩ := found
    rw [hresult] at hinside
    exact h value rest hinside

theorem follows_call_map {routine : Routine} {f : routine.Value → α}
    (hlower : Lower owner (routine, text)) :
    (Program.call routine fun value => .done (f value)).Follows source owner text
      ((routine.result text).map fun (value, rest) => (f value, rest)) := by
  refine ⟨hlower, fun _ => ?_⟩
  cases routine.result text <;> rfl

theorem follows_last {routine : Routine} (hlower : Lower owner (routine, text)) :
    (Program.call routine .done).Follows source owner text (routine.result text) := by
  refine ⟨hlower, fun _ => ?_⟩
  cases routine.result text <;> rfl

theorem follows_call_of_ok {routine : Routine} {next : routine.Value → Program α}
    {value : routine.Value} {rest : List Char} {outcome : Except (List Char) (α × List Char)}
    (hlower : Lower owner (routine, text)) (hresult : routine.result text = .ok (value, rest))
    (h : (next value).Follows source owner rest outcome) :
    (Program.call routine next).Follows source owner text outcome := by
  refine ⟨hlower, fun _ => ?_⟩
  rw [hresult]
  exact h

theorem follows_blanks {next : Unit → Program α} {outcome : Except (List Char) (α × List Char)}
    (hrank : 0 < owner.1.kind.rank)
    (h : (next ()).Follows source owner (skipBlanks text) outcome) :
    (Program.call .blanks next).Follows source owner text outcome :=
  follows_call_of_ok (Or.inr hrank) rfl h

theorem follows_eat {expected : Char} {found missing : Program α}
    {ifFound : List Char → Except (List Char) (α × List Char)}
    {ifMissing : Except (List Char) (α × List Char)} (hrank : 0 < owner.1.kind.rank)
    (hfound : ∀ after, skipBlanks text = expected :: after →
      found.Follows source owner after (ifFound after))
    (hmissing : missing.Follows source owner (skipBlanks text) ifMissing) :
    (Program.eat expected found missing).Follows source owner text
      ((behind? expected text).elim ifMissing ifFound) := by
  refine follows_blanks hrank ?_
  change Program.Follows source owner (if (skipBlanks text).head? = some expected then _ else _) _ _
  cases hbehind : behind? expected text with
  | some after =>
    have hskip := skipBlanks_eq_of_behind? hbehind
    rw [hskip, if_pos (List.head?_cons ..)]
    exact follows_advance rfl (hfound after hskip)
  | none =>
    have hhead : (skipBlanks text).head? ≠ some expected := by
      unfold behind? at hbehind
      intro hhead
      obtain ⟨rest, hskip⟩ := List.head?_eq_some_iff.mp hhead
      rw [hskip] at hbehind
      simp at hbehind
    rw [if_neg hhead]
    exact hmissing

theorem follows_closing {close : Char} {value : α} (hrank : 0 < owner.1.kind.rank) :
    (Program.eat close (.done value) .refuse).Follows source owner text
      (closing close value text) :=
  follows_eat hrank (fun _ _ => rfl) rfl

theorem follows_orRefuse (value? : Option α) (text : List Char) :
    (Program.orRefuse value?).Follows source owner text
      ((orStop text value?).map fun value => (value, text)) := by
  cases value? <;> rfl

theorem follows_whole (text : List Char) :
    (program .whole).Follows source (.whole, text) text (Routine.result .whole text) := by
  refine @follows_call source text (.whole, text) _ .sum _ _ (Or.inr (by simp))
    fun value rest _ => ?_
  refine follows_blanks (by simp) ?_
  change Program.Follows source _ (if (skipBlanks rest).isEmpty then _ else _) _ _
  dsimp only
  cases skipBlanks rest <;> rfl

theorem follows_sum (text : List Char) :
    (program .sum).Follows source (.sum, text) text (Routine.result .sum text) := by
  have hresult : Routine.result .sum text = (Routine.result .term text).bind fun (first, rest) =>
      Routine.result (.sumFrom first) rest := result_readSum text
  rw [hresult]
  exact follows_call (Or.inr (by simp)) fun first rest _ =>
    follows_last (Or.inr (by simp))

theorem follows_sumFrom (value : Literal) (text : List Char) :
    (program (.sumFrom value)).Follows source (.sumFrom value, text) text
      (Routine.result (.sumFrom value) text) := by
  rw [Routine.result, result_readSumFrom]
  refine follows_blanks (by simp) ?_
  cases hskip : skipBlanks text with
  | nil => rfl
  | cons c cs =>
    change Program.Follows source _ (if _ then _ else _) _ _
    dsimp only
    by_cases hplus : c = '+' ∧ cs.head? ≠ some '+' ∧ cs.head? ≠ some '='
    · rw [if_pos hplus, if_pos hplus]
      have hlength := length_lt_of_skipBlanks hskip
      refine follows_advance (by rw [hplus.1]; decide) ?_
      refine @follows_call source cs _ _ .term _ _ (Or.inl hlength) fun term rest hrest => ?_
      cases hsum : value.add? term with
      | none => exact ⟨cs, suffix_of_skipBlanks hskip, rfl, rfl⟩
      | some sum => exact follows_last (Or.inl (Nat.lt_of_le_of_lt hrest.length_le hlength))
    · rw [if_neg hplus, if_neg hplus]
      rfl

theorem follows_term (text : List Char) :
    (program .term).Follows source (.term, text) text (Routine.result .term text) := by
  rw [Routine.result, result_readTerm]
  refine follows_blanks (by simp) ?_
  cases hskip : skipBlanks text with
  | nil => exact @follows_last source [] _ .primary (Or.inr (by simp))
  | cons c cs =>
    change Program.Follows source _ (if _ then _ else _) _ _
    dsimp only
    by_cases hsign : c = '-' ∨ c = '+'
    · rw [if_pos hsign, if_pos hsign]
      refine follows_advance (byteLength_of_toNat_lt ?_) ?_
      · rcases hsign with rfl | rfl <;> decide
      · refine @follows_call source cs _ _ .term _ _ (Or.inl (length_lt_of_skipBlanks hskip))
          fun operand rest _ => ?_
        cases operand.asNumber? <;> rfl
    · rw [if_neg hsign, if_neg hsign]
      have hprimary : Routine.result .primary (c :: cs) = result (readPrimary c cs) := by
        have hagain : skipBlanks (c :: cs) = c :: cs := by
          simp [← hskip]
        rw [Routine.result, hagain]
      rw [← hprimary]
      exact follows_last (Or.inr (by simp))

theorem follows_blanks_routine (text : List Char) :
    (program .blanks).Follows source (.blanks, text) text (Routine.result .blanks text) := by
  cases text with
  | nil => rfl
  | cons c cs =>
    change Program.Follows source _ (if _ then _ else _) _ _
    rw [Routine.result, skipBlanks, List.dropWhile_cons]
    by_cases hblank : isBlank c = true
    · rw [if_pos hblank, if_pos hblank]
      exact follows_advance rfl (@follows_last source cs _ .blanks (Or.inl (Nat.lt_succ_self _)))
    · rw [if_neg hblank, if_neg hblank]
      rfl

theorem follows_name (text : List Char) :
    (program .name).Follows source (.name, text) text (Routine.result .name text) := by
  cases text with
  | nil => rfl
  | cons c cs =>
    change Program.Follows source _ (if _ then _ else _) _ _
    rw [Routine.result, List.dropWhile_cons]
    by_cases hname : isIdentifierChar c = true
    · rw [if_pos hname, if_pos hname]
      exact follows_advance (byteLength_of_toNat_lt (toNat_lt_of_isIdentifierChar hname))
        (@follows_last source cs _ .name (Or.inl (Nat.lt_succ_self _)))
    · rw [if_neg hname, if_neg hname]
      rfl

theorem rest_numberChars (point exponent : Bool) (c : Char) (cs : List Char) :
    (numberChars point exponent (c :: cs)).2.val =
      if c.isDigit then (numberChars point exponent cs).2.val
      else if c = '.' ∧ !point ∧ !exponent then (numberChars true exponent cs).2.val
      else if (c = 'e' ∨ c = 'E') ∧ !exponent then
        if cs.head? = some '+' ∨ cs.head? = some '-' then (numberChars point true cs.tail).2.val
        else (numberChars point true cs).2.val
      else c :: cs := by
  rw [numberChars.eq_def]
  dsimp only
  split
  · rfl
  · split
    · rfl
    · split
      · cases cs with
        | nil => rfl
        | cons sign more =>
          simp only [List.head?_cons, Option.some.injEq, List.tail_cons]
          split <;> rfl
      · rfl

@[simp] theorem append_numberChars (point exponent : Bool) (text : List Char) :
    (numberChars point exponent text).1 ++ (numberChars point exponent text).2.val = text := by
  fun_induction numberChars point exponent text with
  | case1 | case6 | case7 => rfl
  | case2 point exponent c cs _ digits rest hread ih =>
    rw [hread] at ih
    exact congrArg (c :: ·) ih
  | case3 point exponent c cs _ _ digits rest hread ih =>
    rw [hread] at ih
    exact congrArg (c :: ·) ih
  | case4 point exponent c _ _ _ sign more _ digits rest hread ih =>
    rw [hread] at ih
    exact congrArg (c :: sign :: ·) ih
  | case5 point exponent c _ _ _ sign more _ digits rest hread ih =>
    rw [hread] at ih
    exact congrArg (c :: ·) ih

theorem follows_digits (point exponent : Bool) (text : List Char) :
    (program (.digits point exponent)).Follows source (.digits point exponent, text) text
      (Routine.result (.digits point exponent) text) := by
  cases text with
  | nil => rfl
  | cons c cs =>
    change Program.Follows source _ (if _ then _ else _) _ _
    rw [Routine.result, rest_numberChars]
    by_cases hdigit : c.isDigit = true
    · rw [if_pos hdigit, if_pos hdigit]
      have hname := toNat_lt_of_isIdentifierChar (isIdentifierChar_of_isDigit hdigit)
      exact follows_advance (byteLength_of_toNat_lt hname)
        (@follows_last source cs _ (.digits point exponent) (Or.inl (Nat.lt_succ_self _)))
    rw [if_neg hdigit, if_neg hdigit]
    by_cases hpoint : c = '.' ∧ !point ∧ !exponent
    · rw [if_pos hpoint, if_pos hpoint]
      exact follows_advance (by rw [hpoint.1]; decide)
        (@follows_last source cs _ (.digits true exponent) (Or.inl (Nat.lt_succ_self _)))
    rw [if_neg hpoint, if_neg hpoint]
    by_cases hletter : (c = 'e' ∨ c = 'E') ∧ !exponent
    · rw [if_pos hletter, if_pos hletter]
      have hone : byteLength [c] = 1 := by
        rcases hletter.1 with rfl | rfl <;> decide
      by_cases hsign : cs.head? = some '+' ∨ cs.head? = some '-'
      · rw [if_pos hsign, if_pos hsign]
        obtain ⟨sign, more, rfl⟩ : ∃ sign more, cs = sign :: more := by
          rcases hsign with hsign | hsign
          · exact ⟨_, List.head?_eq_some_iff.mp hsign⟩
          · exact ⟨_, List.head?_eq_some_iff.mp hsign⟩
        have hsignOne : byteLength [sign] = 1 := by
          rcases hsign with hsign | hsign
          · rw [Option.some.inj hsign]
            decide
          · rw [Option.some.inj hsign]
            decide
        exact follows_advance hone (follows_advance hsignOne
          (@follows_last source more _ (.digits point true)
            (Or.inl (Nat.lt_succ_of_lt (Nat.lt_succ_self _)))))
      · rw [if_neg hsign, if_neg hsign]
        exact follows_advance hone
          (@follows_last source cs _ (.digits point true) (Or.inl (Nat.lt_succ_self _)))
    · rw [if_neg hletter, if_neg hletter]
      rfl

theorem follows_number (text : List Char) :
    (program .number).Follows source (.number, text) text (Routine.result .number text) := by
  rw [program, Program.Follows]
  refine follows_call_of_ok (Or.inr (by simp)) rfl ?_
  refine ⟨(numberChars false false text).1, ?_, ?_, ?_⟩
  · exact ⟨[], append_numberChars false false text⟩
  · simp
  · rw [Routine.result]
    dsimp only
    cases Binary64.ofText? (numberChars false false text).1 with
    | some value => rfl
    | none => exact ⟨text, List.suffix_rfl, rfl, rfl⟩

theorem result_number (h : c.isDigit = true ∨ c = '.') (cs : List Char) :
    Routine.result .number (c :: cs) = result (readNumber c cs) := by
  rw [result_readNumber, Routine.result]
  have hchars : numberChars false false (c :: cs) =
      (c :: (numberChars (c == '.') false cs).1, (numberChars (c == '.') false cs).2.behind c) := by
    rw [numberChars.eq_def]
    dsimp only
    rcases h with hdigit | rfl
    · have hpoint : (c == '.') = false := by
        rw [beq_eq_false_iff_ne]
        rintro rfl
        cases hdigit
      rw [if_pos hdigit, hpoint]
    · rfl
  rw [hchars]
  rfl

theorem append_escaped (e : Char) (value : List Char) :
    (if e = 'n' then '\n' :: value
      else if e = 't' then '\t' :: value
      else if e = 'r' then '\r' :: value
      else if e = '0' then '\x00' :: value
      else if e = '\n' then value
      else e :: value) = escaped e ++ value := by
  unfold escaped
  split_ifs <;> rfl

theorem result_readString_cons (quote c : Char) (cs : List Char) :
    result (readString quote (c :: cs)) =
      if c = quote then .ok ([], cs)
      else if c = '\\' then
        match cs with
        | [] => .error []
        | e :: rest =>
          (result (readString quote rest)).map fun (value, after) => (escaped e ++ value, after)
      else if c = '$' ∧ quote = '\x60' ∧ cs.head? = some '{' then .error cs
      else if c = '\n' ∧ quote ≠ '\x60' then .error cs
      else (result (readString quote cs)).map fun (value, after) => ([c] ++ value, after) := by
  conv => lhs; rw [readString.eq_def]
  dsimp only
  split
  · rfl
  · split
    · cases cs with
      | nil => rfl
      | cons e rest =>
        dsimp only
        cases readString quote rest with
        | error stop => rfl
        | ok found => exact congrArg (fun value => Except.ok (value, _)) (append_escaped e _)
    · split
      · rfl
      · split
        · rfl
        · cases readString quote cs <;> rfl

theorem follows_string (quote : Char) (gathered text : List Char) :
    (program (.string quote gathered)).Follows source (.string quote gathered, text) text
      (Routine.result (.string quote gathered) text) := by
  have hmore (more rest : List Char) :
      Routine.result (.string quote (gathered ++ more)) rest =
        ((result (readString quote rest)).map fun (value, after) => (more ++ value, after)).map
          fun (value, after) => (gathered ++ value, after) := by
    rw [Routine.result]
    cases result (readString quote rest) with
    | error stop => rfl
    | ok found => simp [Except.map]
  cases text with
  | nil => rfl
  | cons c cs =>
    rw [Routine.result, result_readString_cons]
    refine follows_advance rfl ?_
    by_cases hquote : c = quote
    · rw [if_pos hquote, if_pos hquote]
      exact congrArg (fun value => Except.ok (value, cs)) (List.append_nil gathered)
    rw [if_neg hquote, if_neg hquote]
    by_cases hslash : c = '\\'
    · rw [if_pos hslash, if_pos hslash]
      cases cs with
      | nil => rfl
      | cons e rest =>
        refine follows_advance rfl ?_
        dsimp only
        rw [← hmore]
        exact follows_last (Or.inl (Nat.lt_succ_of_lt (Nat.lt_succ_self _)))
    rw [if_neg hslash, if_neg hslash]
    change Program.Follows source _ (if _ then _ else _) _ _
    by_cases hopen : c = '$' ∧ quote = '\x60' ∧ cs.head? = some '{'
    · rw [if_pos hopen, if_pos hopen]
      rfl
    rw [if_neg hopen, if_neg hopen]
    by_cases hbreak : c = '\n' ∧ quote ≠ '\x60'
    · rw [if_pos hbreak, if_pos hbreak]
      rfl
    rw [if_neg hbreak, if_neg hbreak]
    rw [← hmore]
    exact follows_last (Or.inl (Nat.lt_succ_self _))

/-- The word that starts in front of the cursor is read and looked back at. -/
theorem follows_word {next : List Char → Program α} {outcome : Except (List Char) (α × List Char)}
    (hrank : 0 < owner.1.kind.rank) (hsuffix : c :: cs <:+ owner.2)
    (hstart : isIdentifierStart c = true)
    (h : (next (c :: cs.takeWhile isIdentifierChar)).Follows source owner
      (cs.dropWhile isIdentifierChar) outcome) :
    (Program.here fun start => .call .name fun _ => .slice start next).Follows source owner (c :: cs)
      outcome := by
  have hname : isIdentifierChar c = true := isIdentifierChar_of_isIdentifierStart hstart
  have hresult : Routine.result .name (c :: cs) = .ok ((), cs.dropWhile isIdentifierChar) := by
    rw [Routine.result, List.dropWhile_cons_of_pos hname]
  have hwhole : c :: cs.takeWhile isIdentifierChar ++ cs.dropWhile isIdentifierChar = c :: cs := by
    rw [List.cons_append, List.takeWhile_append_dropWhile]
  rw [Program.Follows]
  refine follows_call_of_ok (Or.inr hrank) hresult
    ⟨c :: cs.takeWhile isIdentifierChar, ?_, ?_, h⟩
  · rwa [hwhole]
  · rw [hwhole]

theorem follows_quoted {f : List Char → α} (hsuffix : c :: cs <:+ owner.2)
    (hone : byteLength [c] = 1) :
    (Program.advance 1 (.call (.string c []) fun value => .done (f value))).Follows source owner
      (c :: cs) ((result (readString c cs)).map fun (value, rest) => (f value, rest)) := by
  have hresult : Routine.result (.string c []) cs = result (readString c cs) := by
    rw [Routine.result]
    cases result (readString c cs) <;> rfl
  rw [← hresult]
  exact follows_advance hone (follows_call_map (Or.inl hsuffix.length_le))

theorem follows_numeral {f : Binary64 → α} (hrank : 1 < owner.1.kind.rank)
    (h : c.isDigit = true ∨ c = '.') :
    (Program.call .number fun value => .done (f value)).Follows source owner (c :: cs)
      ((result (readNumber c cs)).map fun (value, rest) => (f value, rest)) := by
  rw [← result_number h]
  exact follows_call_map (Or.inr hrank)

theorem follows_key (text : List Char) :
    (program .key).Follows source (.key, text) text (Routine.result .key text) := by
  rw [Routine.result, result_readKey]
  cases text with
  | nil => rfl
  | cons c cs =>
    change Program.Follows source _ (if _ then _ else _) _ _
    dsimp only
    by_cases hstart : isIdentifierStart c = true
    · rw [if_pos hstart, if_pos hstart]
      exact follows_word (by simp) List.suffix_rfl hstart rfl
    rw [if_neg hstart, if_neg hstart]
    by_cases hquote : c = '\x27' ∨ c = '\x22'
    · rw [if_pos hquote, if_pos hquote]
      refine follows_quoted List.suffix_rfl ?_
      rcases hquote with rfl | rfl <;> decide
    rw [if_neg hquote, if_neg hquote]
    by_cases hdigit : c.isDigit = true
    · rw [if_pos hdigit, if_pos hdigit]
      exact follows_numeral (by simp) (Or.inl hdigit)
    · rw [if_neg hdigit, if_neg hdigit]
      rfl

theorem follows_primary (text : List Char) :
    (program .primary).Follows source (.primary, text) text (Routine.result .primary text) := by
  rw [Routine.result]
  refine follows_blanks (by simp) ?_
  cases hskip : skipBlanks text with
  | nil => rfl
  | cons c cs =>
    have hsuffix : c :: cs <:+ text := hskip ▸ skipBlanks_suffix text
    have hlength := length_lt_of_skipBlanks hskip
    change Program.Follows source _ (if _ then _ else _) _ _
    dsimp only
    rw [result_readPrimary]
    by_cases hquote : c = '\x27' ∨ c = '\x22' ∨ c = '\x60'
    · rw [if_pos hquote, if_pos hquote]
      refine follows_quoted hsuffix ?_
      rcases hquote with rfl | rfl | rfl <;> decide
    rw [if_neg hquote, if_neg hquote]
    by_cases hdigit : c.isDigit = true ∨ c = '.'
    · rw [if_pos hdigit, if_pos hdigit]
      exact follows_numeral (by simp) hdigit
    rw [if_neg hdigit, if_neg hdigit]
    by_cases hround : c = '('
    · rw [if_pos hround, if_pos hround]
      refine follows_advance (by rw [hround]; decide) ?_
      exact @follows_call source cs _ _ .sum _ _ (Or.inl hlength) fun value rest _ =>
        follows_closing (by simp)
    rw [if_neg hround, if_neg hround]
    by_cases hsquare : c = '['
    · rw [if_pos hsquare, if_pos hsquare]
      exact follows_advance (by rw [hsquare]; decide)
        (@follows_call_map source cs _ _ (.items []) _ (Or.inl hlength))
    rw [if_neg hsquare, if_neg hsquare]
    by_cases hcurly : c = '{'
    · rw [if_pos hcurly, if_pos hcurly]
      exact follows_advance (by rw [hcurly]; decide)
        (@follows_call_map source cs _ _ (.entries []) _ (Or.inl hlength))
    rw [if_neg hcurly, if_neg hcurly]
    by_cases hstart : isIdentifierStart c = true
    · rw [if_pos hstart, if_pos hstart]
      exact follows_word (by simp) hsuffix hstart (follows_orRefuse _ _)
    · rw [if_neg hstart, if_neg hstart]
      rfl

theorem follows_items (found : List Literal) (text : List Char) :
    (program (.items found)).Follows source (.items found, text) text
      (Routine.result (.items found) text) := by
  rw [Routine.result, result_readItems]
  refine follows_eat (by simp) (fun _ _ => rfl) ?_
  rw [← result_readSum_skipBlanks]
  refine @follows_call source (skipBlanks text) _ _ .sum _ _ (Or.inr (by simp))
    fun item rest hrest => ?_
  have hrest : rest.length ≤ text.length :=
    (hrest.trans (skipBlanks_suffix text)).length_le
  dsimp only
  refine follows_eat (by simp) (fun more hskip => ?_) ?_
  · exact @follows_last source more _ (.items (found ++ [item]))
      (Or.inl (Nat.lt_of_lt_of_le (length_lt_of_skipBlanks hskip) hrest))
  · rw [← closing_skipBlanks]
    exact follows_closing (by simp)

theorem follows_entries (found : List (String × Literal)) (text : List Char) :
    (program (.entries found)).Follows source (.entries found, text) text
      (Routine.result (.entries found) text) := by
  rw [Routine.result, result_readEntries]
  refine follows_eat (by simp) (fun _ _ => rfl) ?_
  refine follows_blanks (by simp) ?_
  rw [skipBlanks_skipBlanks]
  refine @follows_call source (skipBlanks text) _ _ .key _ _ (Or.inr (by simp))
    fun key afterKey hafterKey => ?_
  dsimp only
  refine follows_eat (by simp) (fun afterColon hcolon => ?_) rfl
  refine @follows_call source afterColon _ _ .sum _ _ (Or.inr (by simp))
    fun value rest hrest => ?_
  have hrest : rest.length ≤ text.length :=
    ((hrest.trans (suffix_of_skipBlanks hcolon)).trans
      (hafterKey.trans (skipBlanks_suffix text))).length_le
  dsimp only
  refine follows_eat (by simp) (fun more hskip => ?_) ?_
  · exact @follows_last source more _ (.entries (Table.put found key value))
      (Or.inl (Nat.lt_of_lt_of_le (length_lt_of_skipBlanks hskip) hrest))
  · rw [← closing_skipBlanks]
    exact follows_closing (by simp)

theorem follows_program (routine : Routine) (text : List Char) :
    (program routine).Follows source (routine, text) text (routine.result text) := by
  cases routine with
  | whole => exact follows_whole text
  | sum => exact follows_sum text
  | sumFrom value => exact follows_sumFrom value text
  | term => exact follows_term text
  | primary => exact follows_primary text
  | items found => exact follows_items found text
  | entries found => exact follows_entries found text
  | key => exact follows_key text
  | string quote gathered => exact follows_string quote gathered text
  | number => exact follows_number text
  | digits point exponent => exact follows_digits point exponent text
  | name => exact follows_name text
  | blanks => exact follows_blanks_routine text

end TemplateMessages.Expression
