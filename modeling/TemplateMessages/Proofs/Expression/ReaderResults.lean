import TemplateMessages.Proofs.Expression.QuotedReading

set_option autoImplicit false

/-!
# Results of the readers

The readers of constant expressions without the proofs that they end: a result is what was read and
the text behind it, or the text where reading stopped. One equation for each reader.
-/

namespace TemplateMessages.Expression

open TemplateMessages.Number (Binary64)
open TemplateMessages.Text (Rest Shorter firstBehind? isBlank skipBlanks dropWhile_eq_firstBehind?)

/-- What was read and the text behind it, or the text where reading stopped. -/
def result {α : Type} {p : List Char → Prop}
    (reading : Except (List Char) (α × { rest : List Char // p rest })) :
    Except (List Char) (α × List Char) :=
  reading.map fun (value, rest) => (value, rest.val)

def orStop {α : Type} (stop : List Char) : Option α → Except (List Char) α
  | some value => .ok value
  | none => .error stop

theorem skipBlanks_eq_nil_of_firstBehind? {text : List Char}
    (h : firstBehind? isBlank text = none) : skipBlanks text = [] := by
  rw [skipBlanks, dropWhile_eq_firstBehind?, h]
  rfl

theorem skipBlanks_eq_cons_of_firstBehind? {text : List Char} {c : Char} {rest : Shorter text}
    (h : firstBehind? isBlank text = some (c, rest)) : skipBlanks text = c :: rest.val := by
  rw [skipBlanks, dropWhile_eq_firstBehind?, h]
  rfl

/-- The text behind an expected character, white space in front of it being skipped. -/
def behind? (expected : Char) (text : List Char) : Option (List Char) :=
  match skipBlanks text with
  | [] => none
  | c :: cs => if c = expected then some cs else none

@[simp] theorem val_skipTo (expected : Char) (text : List Char) :
    (skipTo expected text).map (·.val) = behind? expected text := by
  unfold skipTo behind?
  cases hfirst : firstBehind? isBlank text with
  | none =>
    rw [skipBlanks_eq_nil_of_firstBehind? hfirst]
    rfl
  | some found =>
    obtain ⟨c, rest⟩ := found
    rw [skipBlanks_eq_cons_of_firstBehind? hfirst]
    dsimp only
    split <;> rfl

theorem result_readNumber (c : Char) (cs : List Char) :
    result (readNumber c cs) =
      (orStop (c :: cs) (Binary64.ofText? (c :: (numberChars (c == '.') false cs).1))).map
        fun value => (value, (numberChars (c == '.') false cs).2.val) := by
  unfold readNumber
  obtain ⟨digits, rest⟩ := numberChars (c == '.') false cs
  dsimp only
  cases Binary64.ofText? (c :: digits) <;> rfl

theorem result_readKey (text : List Char) :
    result (readKey text) =
      match text with
      | [] => .error []
      | c :: cs =>
        if isIdentifierStart c then
          .ok (String.ofList (c :: cs.takeWhile isIdentifierChar), cs.dropWhile isIdentifierChar)
        else if c = '\x27' ∨ c = '\x22' then
          (result (readString c cs)).map fun (key, rest) => (String.ofList key, rest)
        else if c.isDigit then
          (result (readNumber c cs)).map fun (key, rest) => (key.text, rest)
        else .error (c :: cs) := by
  unfold readKey
  cases text with
  | nil => rfl
  | cons c cs =>
    dsimp only
    split
    · rfl
    · split
      · cases readString c cs <;> rfl
      · split
        · cases readNumber c cs <;> rfl
        · rfl

theorem result_readSum (text : List Char) :
    result (readSum text) =
      (result (readTerm text)).bind fun (first, rest) => result (readSumFrom first rest) := by
  rw [readSum.eq_def]
  cases readTerm text with
  | error stop => rfl
  | ok term =>
    obtain ⟨first, rest, h⟩ := term
    dsimp only
    change _ = result (readSumFrom first rest)
    cases readSumFrom first rest <;> rfl

theorem result_readSumFrom (value : Literal) (text : List Char) :
    result (readSumFrom value text) =
      match skipBlanks text with
      | [] => .ok (value, [])
      | c :: cs =>
        if c = '+' ∧ cs.head? ≠ some '+' ∧ cs.head? ≠ some '=' then
          (result (readTerm cs)).bind fun (term, rest) =>
            (orStop cs (value.add? term)).bind fun sum => result (readSumFrom sum rest)
        else .ok (value, c :: cs) := by
  rw [readSumFrom.eq_def]
  cases hfirst : firstBehind? isBlank text with
  | none =>
    rw [skipBlanks_eq_nil_of_firstBehind? hfirst]
    rfl
  | some found =>
    obtain ⟨c, cs, hcs⟩ := found
    rw [skipBlanks_eq_cons_of_firstBehind? hfirst]
    dsimp only
    split
    · cases readTerm cs with
      | error stop => rfl
      | ok reading =>
        obtain ⟨term, rest, h⟩ := reading
        dsimp only
        change _ = (orStop cs (value.add? term)).bind fun sum => result (readSumFrom sum rest)
        cases value.add? term with
        | none => rfl
        | some sum =>
          change _ = result (readSumFrom sum rest)
          dsimp only
          cases readSumFrom sum rest <;> rfl
    · rfl

theorem result_readTerm (text : List Char) :
    result (readTerm text) =
      match skipBlanks text with
      | [] => .error []
      | c :: cs =>
        if c = '-' ∨ c = '+' then
          (result (readTerm cs)).bind fun (operand, rest) =>
            (orStop rest operand.asNumber?).map fun number =>
              (.number (if c = '-' then number.neg else number), rest)
        else result (readPrimary c cs) := by
  rw [readTerm.eq_def]
  cases hfirst : firstBehind? isBlank text with
  | none =>
    rw [skipBlanks_eq_nil_of_firstBehind? hfirst]
    rfl
  | some found =>
    obtain ⟨c, cs, hcs⟩ := found
    rw [skipBlanks_eq_cons_of_firstBehind? hfirst]
    dsimp only
    split
    · cases readTerm cs with
      | error stop => rfl
      | ok reading =>
        obtain ⟨operand, rest, h⟩ := reading
        dsimp only
        change _ = (orStop rest operand.asNumber?).map fun number =>
          (Literal.number (if c = '-' then number.neg else number), rest)
        cases operand.asNumber? <;> rfl
    · cases readPrimary c cs <;> rfl

def constant? (name : List Char) : Option Literal :=
  match String.ofList name with
  | "true" => some (.bool true)
  | "false" => some (.bool false)
  | "null" => some .null
  | "undefined" => some .undefined
  | _ => none

/-- A value in front of a closing character, or the text that stands in place of that. -/
def closing {α : Type} (close : Char) (value : α) (text : List Char) :
    Except (List Char) (α × List Char) :=
  (behind? close text).elim (.error (skipBlanks text)) fun after => .ok (value, after)

theorem result_readPrimary (c : Char) (cs : List Char) :
    result (readPrimary c cs) =
      if c = '\x27' ∨ c = '\x22' ∨ c = '\x60' then
        (result (readString c cs)).map fun (value, rest) => (.string (String.ofList value), rest)
      else if c.isDigit ∨ c = '.' then
        (result (readNumber c cs)).map fun (value, rest) => (.number value, rest)
      else if c = '(' then
        (result (readSum cs)).bind fun (value, rest) => closing ')' value rest
      else if c = '[' then
        (result (readItems [] cs)).map fun (items, rest) => (.array items, rest)
      else if c = '{' then
        (result (readEntries [] cs)).map fun (entries, rest) => (.object entries, rest)
      else if isIdentifierStart c then
        (orStop (cs.dropWhile isIdentifierChar)
          (constant? (c :: cs.takeWhile isIdentifierChar))).map fun value =>
            (value, cs.dropWhile isIdentifierChar)
      else .error (c :: cs) := by
  rw [readPrimary.eq_def]
  split
  · cases readString c cs <;> rfl
  · split
    · cases readNumber c cs <;> rfl
    · split
      · cases readSum cs with
        | error stop => rfl
        | ok reading =>
          obtain ⟨value, rest, h⟩ := reading
          dsimp only
          change _ = closing ')' value rest
          rw [closing, ← val_skipTo]
          cases skipTo ')' rest <;> rfl
      · split
        · cases readItems [] cs <;> rfl
        · split
          · cases readEntries [] cs <;> rfl
          · split
            · dsimp only
              generalize c :: cs.takeWhile isIdentifierChar = chars
              fun_cases constant? chars with
              | case1 hname =>
                rw [hname]
                rfl
              | case2 hname =>
                rw [hname]
                rfl
              | case3 hname =>
                rw [hname]
                rfl
              | case4 hname =>
                rw [hname]
                rfl
              | case5 htrue hfalse hnull hundefined =>
                split
                · exact absurd ‹_› htrue
                · exact absurd ‹_› hfalse
                · exact absurd ‹_› hnull
                · exact absurd ‹_› hundefined
                · rfl
            · rfl

theorem result_readItems (items : List Literal) (text : List Char) :
    result (readItems items text) =
      (behind? ']' text).elim
        ((result (readSum text)).bind fun (item, rest) =>
          (behind? ',' rest).elim (closing ']' (items ++ [item]) rest) fun more =>
            result (readItems (items ++ [item]) more))
        fun after => .ok (items, after) := by
  rw [readItems.eq_def, ← val_skipTo]
  cases skipTo ']' text with
  | some after => rfl
  | none =>
    cases readSum text with
    | error stop => rfl
    | ok reading =>
      obtain ⟨item, rest, h⟩ := reading
      dsimp only
      change _ = (behind? ',' rest).elim (closing ']' (items ++ [item]) rest) fun more =>
        result (readItems (items ++ [item]) more)
      rw [closing, ← val_skipTo, ← val_skipTo]
      cases skipTo ',' rest with
      | some found =>
        obtain ⟨more, h'⟩ := found
        dsimp only [Option.map_some, Option.elim_some]
        cases readItems (items ++ [item]) more <;> rfl
      | none => cases skipTo ']' rest <;> rfl

theorem result_readEntries (entries : List (String × Literal)) (text : List Char) :
    result (readEntries entries text) =
      (behind? '}' text).elim
        ((result (readKey (skipBlanks text))).bind fun (key, afterKey) =>
          (behind? ':' afterKey).elim (.error (skipBlanks afterKey)) fun afterColon =>
            (result (readSum afterColon)).bind fun (value, rest) =>
              (behind? ',' rest).elim (closing '}' (Table.put entries key value) rest) fun more =>
                result (readEntries (Table.put entries key value) more))
        fun after => .ok (entries, after) := by
  rw [readEntries.eq_def, ← val_skipTo]
  cases skipTo '}' text with
  | some after => rfl
  | none =>
    obtain ⟨start, hstart⟩ : { start : Rest text // start = Rest.dropWhile isBlank text } :=
      ⟨_, rfl⟩
    obtain ⟨start, hlength⟩ := start
    have hskip : skipBlanks text = start := congrArg Subtype.val hstart.symm
    rw [← hstart, hskip]
    dsimp only [Option.map_none, Option.elim_none]
    cases readKey start with
    | error stop => rfl
    | ok reading =>
      obtain ⟨key, afterKey, hkey⟩ := reading
      dsimp only
      change _ = (behind? ':' afterKey).elim (Except.error (skipBlanks afterKey)) _
      rw [← val_skipTo]
      cases skipTo ':' afterKey with
      | none => rfl
      | some found =>
        obtain ⟨afterColon, hcolon⟩ := found
        dsimp only [Option.map_some, Option.elim_some]
        cases readSum afterColon with
        | error stop => rfl
        | ok reading =>
          obtain ⟨value, rest, h⟩ := reading
          dsimp only
          change _ =
            (behind? ',' rest).elim (closing '}' (Table.put entries key value) rest) fun more =>
              result (readEntries (Table.put entries key value) more)
          rw [closing, ← val_skipTo, ← val_skipTo]
          cases skipTo ',' rest with
          | some found =>
            obtain ⟨more, h'⟩ := found
            dsimp only [Option.map_some, Option.elim_some]
            cases readEntries (Table.put entries key value) more <;> rfl
          | none => cases skipTo '}' rest <;> rfl

end TemplateMessages.Expression
