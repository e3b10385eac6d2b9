import TemplateMessages.Proofs.Expression.ReaderResults

set_option autoImplicit false

/-!
# Outcomes of the readers

What the readers of constant expressions read where it does not matter how far a refused text was
read: an outcome is what was read and the text behind it, or nothing where the text is refused. One
equation for each reader.
-/

namespace TemplateMessages.Expression

open TemplateMessages.Number (Binary64)
open TemplateMessages.Text (skipBlanks)

/-- What was read, and the text behind it. -/
def outcome? {α : Type} {p : List Char → Prop}
    (reading : Except (List Char) (α × { rest : List Char // p rest })) :
    Option (α × List Char) :=
  reading.toOption.map fun (value, rest) => (value, rest.val)

section

variable {ε α β : Type}

@[simp] theorem toOption_ok (value : α) : (.ok value : Except ε α).toOption = some value :=
  rfl

@[simp] theorem toOption_error (error : ε) : (.error error : Except ε α).toOption = none :=
  rfl

@[simp] theorem toOption_map (f : α → β) (result : Except ε α) :
    (result.map f).toOption = result.toOption.map f := by
  cases result <;> rfl

@[simp] theorem toOption_bind (result : Except ε α) (f : α → Except ε β) :
    (result.bind f).toOption = result.toOption.bind fun value => (f value).toOption := by
  cases result <;> rfl

@[simp] theorem toOption_ite (p : Prop) [Decidable p] (a b : Except ε α) :
    (if p then a else b).toOption = if p then a.toOption else b.toOption := by
  split <;> rfl

theorem toOption_elim (choice : Option α) (none : Except ε β) (some : α → Except ε β) :
    (choice.elim none some).toOption =
      choice.elim none.toOption fun value => (some value).toOption := by
  cases choice <;> rfl

@[simp] theorem toOption_orStop (stop : List Char) (value? : Option α) :
    (orStop stop value?).toOption = value? := by
  cases value? <;> rfl

end

theorem outcome?_eq {α : Type} {p : List Char → Prop}
    (reading : Except (List Char) (α × { rest : List Char // p rest })) :
    outcome? reading = (result reading).toOption :=
  (toOption_map _ reading).symm

@[simp] theorem toOption_closing {α : Type} (close : Char) (value : α) (text : List Char) :
    (closing close value text).toOption =
      (behind? close text).map fun after => (value, after) := by
  unfold closing
  cases behind? close text <;> rfl

theorem outcome?_readNumber (c : Char) (cs : List Char) :
    outcome? (readNumber c cs) =
      (Binary64.ofText? (c :: (numberChars (c == '.') false cs).1)).map fun value =>
        (value, (numberChars (c == '.') false cs).2.val) := by
  simp [outcome?_eq, result_readNumber]

theorem outcome?_readKey (text : List Char) :
    outcome? (readKey text) =
      match text with
      | [] => none
      | c :: cs =>
        if isIdentifierStart c then
          some (String.ofList (c :: cs.takeWhile isIdentifierChar), cs.dropWhile isIdentifierChar)
        else if c = '\x27' ∨ c = '\x22' then
          (outcome? (readString c cs)).map fun (key, rest) => (String.ofList key, rest)
        else if c.isDigit then
          (outcome? (readNumber c cs)).map fun (key, rest) => (key.text, rest)
        else none := by
  rw [outcome?_eq, result_readKey]
  cases text with
  | nil => rfl
  | cons c cs =>
    simp [outcome?_eq]

theorem outcome?_readSum (text : List Char) :
    outcome? (readSum text) =
      (outcome? (readTerm text)).bind fun (first, rest) => outcome? (readSumFrom first rest) := by
  simp [outcome?_eq, result_readSum]

theorem outcome?_readSumFrom (value : Literal) (text : List Char) :
    outcome? (readSumFrom value text) =
      match skipBlanks text with
      | [] => some (value, [])
      | c :: cs =>
        if c = '+' ∧ cs.head? ≠ some '+' ∧ cs.head? ≠ some '=' then
          (outcome? (readTerm cs)).bind fun (term, rest) =>
            (value.add? term).bind fun sum => outcome? (readSumFrom sum rest)
        else some (value, c :: cs) := by
  rw [outcome?_eq, result_readSumFrom]
  cases skipBlanks text with
  | nil => rfl
  | cons c cs =>
    simp [outcome?_eq]

theorem outcome?_readTerm (text : List Char) :
    outcome? (readTerm text) =
      match skipBlanks text with
      | [] => none
      | c :: cs =>
        if c = '-' ∨ c = '+' then
          (outcome? (readTerm cs)).bind fun (operand, rest) =>
            operand.asNumber?.map fun number =>
              (.number (if c = '-' then number.neg else number), rest)
        else outcome? (readPrimary c cs) := by
  rw [outcome?_eq, result_readTerm]
  cases skipBlanks text with
  | nil => rfl
  | cons c cs =>
    simp [outcome?_eq]

theorem outcome?_readPrimary (c : Char) (cs : List Char) :
    outcome? (readPrimary c cs) =
      if c = '\x27' ∨ c = '\x22' ∨ c = '\x60' then
        (outcome? (readString c cs)).map fun (value, rest) => (.string (String.ofList value), rest)
      else if c.isDigit ∨ c = '.' then
        (outcome? (readNumber c cs)).map fun (value, rest) => (.number value, rest)
      else if c = '(' then
        (outcome? (readSum cs)).bind fun (value, rest) =>
          (behind? ')' rest).map fun after => (value, after)
      else if c = '[' then
        (outcome? (readItems [] cs)).map fun (items, rest) => (.array items, rest)
      else if c = '{' then
        (outcome? (readEntries [] cs)).map fun (entries, rest) => (.object entries, rest)
      else if isIdentifierStart c then
        (constant? (c :: cs.takeWhile isIdentifierChar)).map fun value =>
          (value, cs.dropWhile isIdentifierChar)
      else none := by
  rw [outcome?_eq, result_readPrimary]
  simp [outcome?_eq]

theorem outcome?_readItems (items : List Literal) (text : List Char) :
    outcome? (readItems items text) =
      match behind? ']' text with
      | some after => some (items, after)
      | none =>
        (outcome? (readSum text)).bind fun (item, rest) =>
          match behind? ',' rest with
          | some more => outcome? (readItems (items ++ [item]) more)
          | none => (behind? ']' rest).map fun after => (items ++ [item], after) := by
  rw [outcome?_eq, result_readItems]
  cases behind? ']' text with
  | some after => rfl
  | none =>
    simp only [Option.elim_none, toOption_bind, toOption_elim, toOption_closing, outcome?_eq]
    refine congrArg _ (funext fun (item, rest) => ?_)
    cases behind? ',' rest <;> rfl

theorem outcome?_readEntries (entries : List (String × Literal)) (text : List Char) :
    outcome? (readEntries entries text) =
      match behind? '}' text with
      | some after => some (entries, after)
      | none =>
        (outcome? (readKey (skipBlanks text))).bind fun (key, afterKey) =>
          (behind? ':' afterKey).bind fun afterColon =>
            (outcome? (readSum afterColon)).bind fun (value, rest) =>
              match behind? ',' rest with
              | some more => outcome? (readEntries (Table.put entries key value) more)
              | none =>
                (behind? '}' rest).map fun after => (Table.put entries key value, after) := by
  rw [outcome?_eq, result_readEntries]
  cases behind? '}' text with
  | some after => rfl
  | none =>
    simp only [Option.elim_none, toOption_bind, toOption_elim, toOption_closing, toOption_error,
      outcome?_eq]
    refine congrArg _ (funext fun (key, afterKey) => ?_)
    cases behind? ':' afterKey with
    | none => rfl
    | some afterColon =>
      rw [Option.elim_some, Option.bind_some]
      refine congrArg _ (funext fun (value, rest) => ?_)
      cases behind? ',' rest <;> rfl

/-- An expression has a value when a sum is read and white space is left. -/
theorem evaluateChars_eq_ok_iff {text : List Char} {value : Literal} :
    evaluateChars text = .ok value ↔
      ∃ rest, outcome? (readSum text) = some (value, rest) ∧ skipBlanks rest = [] := by
  unfold evaluateChars
  cases readSum text with
  | error stop =>
    constructor
    · exact fun h => by cases h
    · rintro ⟨rest, h, _⟩
      cases h
  | ok reading =>
    obtain ⟨read, rest, h⟩ := reading
    dsimp only
    constructor
    · intro hvalue
      cases hskip : skipBlanks rest with
      | nil =>
        rw [hskip] at hvalue
        cases hvalue
        exact ⟨rest, rfl, hskip⟩
      | cons c cs =>
        rw [hskip] at hvalue
        cases hvalue
    · rintro ⟨rest', houtcome, hskip⟩
      cases houtcome
      rw [hskip]

end TemplateMessages.Expression
