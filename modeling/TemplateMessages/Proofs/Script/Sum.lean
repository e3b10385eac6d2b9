import TemplateMessages.Expression.Literal
import TemplateMessages.Expression.Nesting
import TemplateMessages.Proofs.Script.StringLiteral

set_option autoImplicit false

/-!
# Sums of a script

A fragment of a script with its meaning: sums of strings, names, entries of records and expressions
in parentheses, comparisons with `null`, `? :`, and functions of one parameter that return an
expression. A text outside the fragment has no meaning here, and neither has an expression whose
value would need a conversion other than that of a sum with a string.
-/

namespace TemplateMessages.Script.Sum

open TemplateMessages.Expression (Bracket Literal isIdentifierStart isIdentifierChar)

def reservedWords : List String :=
  ["await", "break", "case", "catch", "class", "const", "continue", "debugger", "default", "delete",
    "do", "else", "enum", "export", "extends", "false", "finally", "for", "function", "if",
    "implements", "import", "in", "instanceof", "interface", "let", "new", "null", "package",
    "private", "protected", "public", "return", "static", "super", "switch", "this", "throw",
    "true", "try", "typeof", "var", "void", "while", "with", "yield"]

def IsReserved (word : List Char) : Prop :=
  String.ofList word ∈ reservedWords

instance (word : List Char) : Decidable (IsReserved word) :=
  inferInstanceAs (Decidable (_ ∈ _))

inductive Token where
  | string (text : List Char)
  | name (name : List Char)
  | reserved (word : List Char)
  | opening (bracket : Bracket)
  | closing (bracket : Bracket)
  | plus
  | equals
  | question
  | colon
  | semicolon
  deriving DecidableEq, Repr

/-- A token of punctuation. Longer tokens that start with one of these are not of the fragment. -/
def symbol? : List Char → Option (Token × List Char)
  | '+' :: rest => if rest.head? = some '+' ∨ rest.head? = some '=' then none else some (.plus, rest)
  | '=' :: '=' :: rest => if rest.head? = some '=' then none else some (.equals, rest)
  | '?' :: rest =>
    if rest.head? = some '?' ∨ rest.head? = some '.' then none else some (.question, rest)
  | ':' :: rest => some (.colon, rest)
  | ';' :: rest => some (.semicolon, rest)
  | c :: rest =>
    ((Bracket.opening? c).map Token.opening).or ((Bracket.closing? c).map Token.closing) |>.map
      fun token => (token, rest)
  | [] => none

def wordToken (word : List Char) : Token :=
  if IsReserved word then .reserved word else .name word

def token? (c : Char) (cs : List Char) : Option (Token × List Char) :=
  if isIdentifierStart c then
    some (wordToken (c :: cs.takeWhile isIdentifierChar), cs.dropWhile isIdentifierChar)
  else if c = '\x27' ∨ c = '\x22' then
    (readString? c cs).map fun (text, rest) => (.string text, rest)
  else symbol? (c :: cs)

theorem length_lt_of_symbol? {text rest : List Char} {token : Token}
    (h : symbol? text = some (token, rest)) : rest.length < text.length := by
  unfold symbol? at h
  split at h
  · split at h
    · cases h
    · cases h
      exact Nat.lt_succ_self _
  · split at h
    · cases h
    · cases h
      simp only [List.length_cons]
      omega
  · split at h
    · cases h
    · cases h
      exact Nat.lt_succ_self _
  · cases h
    exact Nat.lt_succ_self _
  · cases h
    exact Nat.lt_succ_self _
  · obtain ⟨_, _, heq⟩ := Option.map_eq_some_iff.mp h
    cases heq
    exact Nat.lt_succ_self _
  · cases h

theorem length_le_of_token? {c : Char} {cs rest : List Char} {token : Token}
    (h : token? c cs = some (token, rest)) : rest.length ≤ cs.length := by
  unfold token? at h
  split at h
  · cases h
    exact (List.dropWhile_sublist _).length_le
  · split at h
    · obtain ⟨⟨text, after⟩, hread, heq⟩ := Option.map_eq_some_iff.mp h
      cases heq
      exact Nat.le_of_lt (length_lt_of_readString? hread)
    · exact Nat.lt_succ_iff.mp (length_lt_of_symbol? h)

def tokens (text : List Char) : Option (List Token) :=
  match text with
  | [] => some []
  | c :: cs =>
    if c = ' ' then tokens cs
    else
      match h : token? c cs with
      | none => none
      | some (token, rest) =>
        have := length_le_of_token? h
        (tokens rest).map (token :: ·)
termination_by text.length

inductive Expr where
  | string (text : List Char)
  | name (name : List Char)
  | entry (record key : Expr)
  | sum (left right : Expr)
  | isNull (operand : Expr)
  | conditional (test yes no : Expr)
  deriving DecidableEq, Repr

abbrev Reading (text : List Token) : Type :=
  Option (Expr × { rest : List Token // rest.length < text.length })

mutual

def readPrimary : (text : List Token) → Reading text
  | .string chars :: rest => some (.string chars, ⟨rest, Nat.lt_succ_self _⟩)
  | .name name :: rest => some (.name name, ⟨rest, Nat.lt_succ_self _⟩)
  | .opening .round :: rest =>
    match readExpression rest with
    | some (expr, ⟨.closing .round :: after, h⟩) =>
      some (expr, ⟨after, by simp only [List.length_cons] at *; omega⟩)
    | _ => none
  | _ => none
termination_by text => 5 * text.length
decreasing_by simp only [List.length_cons]; omega

def readOperand (text : List Token) : Reading text :=
  match readPrimary text with
  | some (record, ⟨.opening .square :: rest, h⟩) =>
    match readExpression rest with
    | some (key, ⟨.closing .square :: after, hkey⟩) =>
      some (.entry record key, ⟨after, by simp only [List.length_cons] at *; omega⟩)
    | _ => none
  | result => result
termination_by 5 * text.length + 1
decreasing_by
  · omega
  · simp only [List.length_cons] at *; omega

def readSummands (left : Expr) (text : List Token) :
    Option (Expr × { rest : List Token // rest.length ≤ text.length }) :=
  match text with
  | .plus :: rest =>
    match readOperand rest with
    | some (right, ⟨after, h⟩) =>
      match readSummands (.sum left right) after with
      | some (expr, ⟨last, hlast⟩) =>
        some (expr, ⟨last, by simp only [List.length_cons]; omega⟩)
      | none => none
    | none => none
  | text => some (left, ⟨text, Nat.le_refl _⟩)
termination_by 5 * text.length
decreasing_by all_goals simp only [List.length_cons]; omega

def readSum (text : List Token) : Reading text :=
  match readOperand text with
  | some (left, ⟨rest, h⟩) =>
    match readSummands left rest with
    | some (expr, ⟨after, hafter⟩) => some (expr, ⟨after, by omega⟩)
    | none => none
  | none => none
termination_by 5 * text.length + 2
decreasing_by all_goals omega

def readTest (text : List Token) : Reading text :=
  match readSum text with
  | some (operand, ⟨.equals :: .reserved word :: rest, h⟩) =>
    if word = "null".toList then
      some (.isNull operand, ⟨rest, by simp only [List.length_cons] at *; omega⟩)
    else none
  | result => result
termination_by 5 * text.length + 3
decreasing_by omega

def readExpression (text : List Token) : Reading text :=
  match readTest text with
  | some (test, ⟨.question :: rest, h⟩) =>
    match readExpression rest with
    | some (yes, ⟨.colon :: last, hyes⟩) =>
      match readExpression last with
      | some (no, ⟨after, hno⟩) =>
        some (.conditional test yes no, ⟨after, by simp only [List.length_cons] at *; omega⟩)
      | none => none
    | _ => none
  | result => result
termination_by 5 * text.length + 4
decreasing_by
  · omega
  · simp only [List.length_cons] at *; omega
  · simp only [List.length_cons] at *; omega

end

/-- The values of names. -/
abbrev Names := List Char → Option Literal

def eval (names : Names) : Expr → Option Literal
  | .string text => some (.string (String.ofList text))
  | .name name => names name
  | .entry record key => do
    match ← eval names record, ← eval names key with
    | .object entries, .string key => Table.get? entries key
    | _, _ => none
  | .sum left right => do (← eval names left).add? (← eval names right)
  | .isNull operand => do
    match ← eval names operand with
    | .null => return .bool true
    | .undefined => return .bool true
    | _ => return .bool false
  | .conditional test yes no => do
    match ← eval names test with
    | .bool true => eval names yes
    | .bool false => eval names no
    | _ => none

/-- The value of a text that is one expression. -/
def run (names : Names) (text : String) : Option Literal := do
  match readExpression (← tokens text.toList) with
  | some (expr, ⟨[], _⟩) => eval names expr
  | _ => none

def function? : List Token → Option (List Char × Expr)
  | .opening .round :: .reserved word :: .opening .round :: .name param :: .closing .round ::
      .opening .curly :: .reserved inner :: body =>
    match readExpression body with
    | some (expr, ⟨[.semicolon, .closing .curly, .closing .round], _⟩) =>
      if word = "function".toList ∧ inner = "return".toList then some (param, expr) else none
    | _ => none
  | _ => none

/-- What the function of a text returns for an argument. -/
def call (text : String) (argument : Literal) : Option Literal := do
  let (param, body) ← function? (← tokens text.toList)
  eval (fun name => if name = param then some argument else none) body

end TemplateMessages.Script.Sum
