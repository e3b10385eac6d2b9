import TemplateMessages.Number.Decimal
import TemplateMessages.Proofs.Script.StringLiteral

set_option autoImplicit false

/-!
# Expressions of a script

A fragment of the expressions of a script with its meaning: strings, numbers, names, the minus sign,
`===`, `||` and `? :`, each level of the grammar by a reader of its own. A text outside the fragment
has no meaning here.
-/

namespace TemplateMessages.Script

open TemplateMessages.Expression (isIdentifierStart isIdentifierChar)
open TemplateMessages.Number (Binary64)

inductive Token where
  | string (text : List Char)
  | numeral (digits : List Char)
  | name (name : List Char)
  | minus
  | strictEquals
  | or
  | question
  | colon
  deriving DecidableEq, Repr

def isNumeralChar (c : Char) : Bool :=
  c.isDigit || c == '.'

/-- A token of punctuation. Longer tokens that start with one of these are not of the fragment. -/
def symbol? : List Char → Option (Token × List Char)
  | '=' :: '=' :: '=' :: rest => some (.strictEquals, rest)
  | '|' :: '|' :: rest => if rest.head? = some '=' then none else some (.or, rest)
  | '?' :: rest => if rest.head? = some '?' ∨ rest.head? = some '.' then none else some (.question, rest)
  | ':' :: rest => some (.colon, rest)
  | '-' :: rest => if rest.head? = some '-' ∨ rest.head? = some '=' then none else some (.minus, rest)
  | _ => none

def token? (c : Char) (cs : List Char) : Option (Token × List Char) :=
  if c.isDigit then
    some (.numeral (c :: cs.takeWhile isNumeralChar), cs.dropWhile isNumeralChar)
  else if isIdentifierStart c then
    some (.name (c :: cs.takeWhile isIdentifierChar), cs.dropWhile isIdentifierChar)
  else if c = '\x27' ∨ c = '"' then
    (readString? c cs).map fun (text, rest) => (.string text, rest)
  else symbol? (c :: cs)

theorem length_lt_of_symbol? {text rest : List Char} {token : Token}
    (h : symbol? text = some (token, rest)) : rest.length < text.length := by
  unfold symbol? at h
  split at h
  · cases h
    simp only [List.length_cons]
    omega
  · split at h
    · cases h
    · cases h
      simp only [List.length_cons]
      omega
  · split at h
    · cases h
    · cases h
      exact Nat.lt_succ_self _
  · cases h
    exact Nat.lt_succ_self _
  · split at h
    · cases h
    · cases h
      exact Nat.lt_succ_self _
  · cases h

theorem length_le_of_token? {c : Char} {cs rest : List Char} {token : Token}
    (h : token? c cs = some (token, rest)) : rest.length ≤ cs.length := by
  unfold token? at h
  split at h
  · cases h
    exact (List.dropWhile_sublist _).length_le
  · split at h
    · cases h
      exact (List.dropWhile_sublist _).length_le
    · split at h
      · obtain ⟨⟨text, after⟩, hread, heq⟩ := Option.map_eq_some_iff.mp h
        cases heq
        exact Nat.le_of_lt (length_lt_of_readString? hread)
      · exact Nat.lt_succ_iff.mp (length_lt_of_symbol? h)

def tokens (text : List Char) : Option (List Token) :=
  match text with
  | [] => some []
  | c :: cs =>
    if c = ' ' then tokens cs
    else
      match h : token? c cs with
      | none => none
      | some (token, rest) =>
        have := length_le_of_token? h
        (tokens rest).map (token :: ·)
termination_by text.length

inductive Expr where
  | string (text : List Char)
  | numeral (digits : List Char)
  | name (name : List Char)
  | negative (operand : Expr)
  | strictEquals (left right : Expr)
  | or (left right : Expr)
  | conditional (test yes no : Expr)
  deriving DecidableEq, Repr

def readOperand : List Token → Option (Expr × List Token)
  | .string text :: rest => some (.string text, rest)
  | .numeral digits :: rest => some (.numeral digits, rest)
  | .name name :: rest => some (.name name, rest)
  | .minus :: rest => (readOperand rest).map fun (operand, after) => (.negative operand, after)
  | _ => none

theorem length_lt_of_readOperand {text rest : List Token} {expr : Expr}
    (h : readOperand text = some (expr, rest)) : rest.length < text.length := by
  fun_induction readOperand text generalizing expr with
  | case1 =>
    cases h
    exact Nat.lt_succ_self _
  | case2 =>
    cases h
    exact Nat.lt_succ_self _
  | case3 =>
    cases h
    exact Nat.lt_succ_self _
  | case4 inner ih =>
    obtain ⟨⟨operand, after⟩, hread, heq⟩ := Option.map_eq_some_iff.mp h
    cases heq
    exact Nat.lt_succ_of_lt (ih hread)
  | case5 => cases h

def readComparisons (left : Expr) (text : List Token) : Option (Expr × List Token) :=
  match text with
  | .strictEquals :: rest =>
    match h : readOperand rest with
    | none => none
    | some (right, after) =>
      have := length_lt_of_readOperand h
      readComparisons (.strictEquals left right) after
  | text => some (left, text)
termination_by text.length

def readEquality (text : List Token) : Option (Expr × List Token) :=
  (readOperand text).bind fun (left, rest) => readComparisons left rest

theorem length_le_of_readComparisons {left expr : Expr} {text rest : List Token}
    (h : readComparisons left text = some (expr, rest)) : rest.length ≤ text.length := by
  fun_induction readComparisons left text with
  | case1 => cases h
  | case2 left inner right after hread _ ih =>
    have := length_lt_of_readOperand hread
    have := ih h
    simp only [List.length_cons]
    omega
  | case3 =>
    cases h
    exact Nat.le_refl _

theorem length_lt_of_readEquality {text rest : List Token} {expr : Expr}
    (h : readEquality text = some (expr, rest)) : rest.length < text.length := by
  obtain ⟨⟨left, inner⟩, hread, hrest⟩ := Option.bind_eq_some_iff.mp h
  exact Nat.lt_of_le_of_lt (length_le_of_readComparisons hrest) (length_lt_of_readOperand hread)

def readAlternatives (left : Expr) (text : List Token) : Option (Expr × List Token) :=
  match text with
  | .or :: rest =>
    match h : readEquality rest with
    | none => none
    | some (right, after) =>
      have := length_lt_of_readEquality h
      readAlternatives (.or left right) after
  | text => some (left, text)
termination_by text.length

def readOr (text : List Token) : Option (Expr × List Token) :=
  (readEquality text).bind fun (left, rest) => readAlternatives left rest

theorem length_le_of_readAlternatives {left expr : Expr} {text rest : List Token}
    (h : readAlternatives left text = some (expr, rest)) : rest.length ≤ text.length := by
  fun_induction readAlternatives left text with
  | case1 => cases h
  | case2 left inner right after hread _ ih =>
    have := length_lt_of_readEquality hread
    have := ih h
    simp only [List.length_cons]
    omega
  | case3 =>
    cases h
    exact Nat.le_refl _

theorem length_lt_of_readOr {text rest : List Token} {expr : Expr}
    (h : readOr text = some (expr, rest)) : rest.length < text.length := by
  obtain ⟨⟨left, inner⟩, hread, hrest⟩ := Option.bind_eq_some_iff.mp h
  exact Nat.lt_of_le_of_lt (length_le_of_readAlternatives hrest) (length_lt_of_readEquality hread)

/-- An expression, and the tokens behind it, of which there are fewer. -/
def readExpression (text : List Token) :
    Option (Expr × { rest : List Token // rest.length < text.length }) :=
  match h : readOr text with
  | none => none
  | some (test, .question :: rest) =>
    have := length_lt_of_readOr h
    match readExpression rest with
    | some (yes, ⟨.colon :: last, hlast⟩) =>
      match readExpression last with
      | some (no, ⟨after, hafter⟩) =>
        some (.conditional test yes no, ⟨after, by simp only [List.length_cons] at *; omega⟩)
      | none => none
    | _ => none
  | some (expr, rest) => some (expr, ⟨rest, length_lt_of_readOr h⟩)
termination_by text.length
decreasing_by all_goals simp only [List.length_cons] at *; omega

inductive Value where
  | number (value : Binary64)
  | string (text : List Char)
  | null
  | bool (value : Bool)
  deriving DecidableEq, Repr

def Value.truthy : Value → Bool
  | number value => !value.isZero && value != .nan
  | string text => !text.isEmpty
  | null => false
  | bool value => value

def Value.strictEquals : Value → Value → Bool
  | number a, number b => a.equals b
  | string a, string b => a == b
  | null, null => true
  | bool a, bool b => a == b
  | _, _ => false

/-- The values of names. -/
abbrev Names := List (List Char × Value)

def eval (names : Names) : Expr → Option Value
  | .string text => some (.string text)
  | .numeral digits => (Binary64.ofText? digits).map .number
  | .name name =>
    (names.lookup name).or
      (if name = "Infinity".toList then some (.number (.infinity false)) else none)
  | .negative operand =>
    match eval names operand with
    | some (.number value) => some (.number value.neg)
    | _ => none
  | .strictEquals left right => do
    let left ← eval names left
    let right ← eval names right
    return .bool (left.strictEquals right)
  | .or left right => do
    let left ← eval names left
    if left.truthy then return left else eval names right
  | .conditional test yes no => do
    let test ← eval names test
    if test.truthy then eval names yes else eval names no

/-- The value of a text that is one expression. -/
def run (names : Names) (text : List Char) : Option Value := do
  let tokens ← tokens text
  match readExpression tokens with
  | some (expr, ⟨[], _⟩) => eval names expr
  | _ => none

end TemplateMessages.Script
