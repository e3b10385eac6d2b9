import Mathlib.Logic.Relation
import TemplateMessages.Proofs.Expression.ReaderResults
import TemplateMessages.Proofs.Text.Validity

set_option autoImplicit false

/-!
# Routines that move a cursor

The readers of constant expressions as routines over the bytes of an expression. All of them share
one cursor: a routine looks at the text behind it, moves it by a number of bytes and calls routines,
itself among them. A loop is a routine that calls itself at its end. Nothing here says that the
cursor stays between characters, or that a routine comes to an end: a run is a finite derivation.
-/

namespace TemplateMessages.Expression

open TemplateMessages.Number (Binary64)
open TemplateMessages.Text

inductive Routine where
  | whole
  | sum
  | sumFrom (value : Literal)
  | term
  | primary
  | items (items : List Literal)
  | entries (entries : List (String × Literal))
  | key
  | string (quote : Char) (gathered : List Char)
  | number
  | digits (point exponent : Bool)
  | name
  | blanks

namespace Routine

@[reducible]
def Value : Routine → Type
  | whole | sum | sumFrom _ | term | primary => Literal
  | items _ => List Literal
  | entries _ => List (String × Literal)
  | key => String
  | string _ _ => List Char
  | number => Binary64
  | digits _ _ | name | blanks => Unit

inductive Kind where
  | whole | sum | sumFrom | term | primary | items | entries | key | string | number | digits | name
  | blanks
  deriving DecidableEq, Repr

@[simp]
def kind : Routine → Kind
  | whole => .whole
  | sum => .sum
  | sumFrom _ => .sumFrom
  | term => .term
  | primary => .primary
  | items _ => .items
  | entries _ => .entries
  | key => .key
  | string _ _ => .string
  | number => .number
  | digits _ _ => .digits
  | name => .name
  | blanks => .blanks

end Routine

inductive Program (α : Type) where
  | done (value : α)
  | refuse
  | refuseAt (position : Nat)
  | look (next : List Char → Program α)
  | here (next : Nat → Program α)
  | slice (start : Nat) (next : List Char → Program α)
  | advance (count : Nat) (next : Program α)
  | call (routine : Routine) (next : routine.Value → Program α)

namespace Program

variable {α : Type}

def eat (expected : Char) (found missing : Program α) : Program α :=
  .call .blanks fun _ => .look fun rest =>
    if rest.head? = some expected then .advance expected.utf8Size found else missing

def orRefuse : Option α → Program α
  | some value => .done value
  | none => .refuse

end Program

def escaped (e : Char) : List Char :=
  if e = 'n' then ['\n']
  else if e = 't' then ['\t']
  else if e = 'r' then ['\r']
  else if e = '0' then ['\x00']
  else if e = '\n' then []
  else [e]

open Program in
def program : (routine : Routine) → Program routine.Value
  | .whole =>
    call .sum fun value => call .blanks fun _ => look fun rest =>
      if rest.isEmpty then done value else refuse
  | .sum => call .term fun first => call (.sumFrom first) done
  | .sumFrom value =>
    call .blanks fun _ => look fun
      | [] => done value
      | c :: cs =>
        if c = '+' ∧ cs.head? ≠ some '+' ∧ cs.head? ≠ some '=' then
          advance 1 (here fun position => call .term fun term =>
            match value.add? term with
            | some sum => call (.sumFrom sum) done
            | none => refuseAt position)
        else done value
  | .term =>
    call .blanks fun _ => look fun
      | [] => call .primary done
      | c :: _ =>
        if c = '-' ∨ c = '+' then
          advance 1 (call .term fun operand =>
            orRefuse (operand.asNumber?.map fun number =>
              .number (if c = '-' then number.neg else number)))
        else call .primary done
  | .primary =>
    call .blanks fun _ => look fun
      | [] => refuse
      | c :: _ =>
        if c = '\x27' ∨ c = '\x22' ∨ c = '\x60' then
          advance 1 (call (.string c []) fun value => done (.string (String.ofList value)))
        else if c.isDigit ∨ c = '.' then call .number fun value => done (.number value)
        else if c = '(' then advance 1 (call .sum fun value => eat ')' (done value) refuse)
        else if c = '[' then advance 1 (call (.items []) fun items => done (.array items))
        else if c = '{' then advance 1 (call (.entries []) fun entries => done (.object entries))
        else if isIdentifierStart c then
          here fun start => call .name fun _ => slice start fun name => orRefuse (constant? name)
        else refuse
  | .items items =>
    eat ']' (done items)
      (call .sum fun item =>
        eat ',' (call (.items (items ++ [item])) done)
          (eat ']' (done (items ++ [item])) refuse))
  | .entries entries =>
    eat '}' (done entries)
      (call .blanks fun _ => call .key fun key =>
        eat ':'
          (call .sum fun value =>
            eat ',' (call (.entries (Table.put entries key value)) done)
              (eat '}' (done (Table.put entries key value)) refuse))
          refuse)
  | .key =>
    look fun
      | [] => refuse
      | c :: _ =>
        if isIdentifierStart c then
          here fun start => call .name fun _ => slice start fun name => done (String.ofList name)
        else if c = '\x27' ∨ c = '\x22' then
          advance 1 (call (.string c []) fun key => done (String.ofList key))
        else if c.isDigit then call .number fun key => done key.text
        else refuse
  | .string quote gathered =>
    look fun
      | [] => refuse
      | c :: _ => advance c.utf8Size <|
        if c = quote then done gathered
        else if c = '\\' then
          look fun
            | [] => refuse
            | e :: _ =>
              advance e.utf8Size (call (.string quote (gathered ++ escaped e)) done)
        else look fun rest =>
          if c = '$' ∧ quote = '\x60' ∧ rest.head? = some '{' then refuse
          else if c = '\n' ∧ quote ≠ '\x60' then refuse
          else call (.string quote (gathered ++ [c])) done
  | .number =>
    here fun start => call (.digits false false) fun _ => slice start fun digits =>
      match Binary64.ofText? digits with
      | some value => done value
      | none => refuseAt start
  | .digits point exponent =>
    look fun
      | [] => done ()
      | c :: cs =>
        if c.isDigit then advance 1 (call (.digits point exponent) done)
        else if c = '.' ∧ !point ∧ !exponent then advance 1 (call (.digits true exponent) done)
        else if (c = 'e' ∨ c = 'E') ∧ !exponent then
          if cs.head? = some '+' ∨ cs.head? = some '-' then
            advance 1 (advance 1 (call (.digits point true) done))
          else advance 1 (call (.digits point true) done)
        else done ()
  | .name =>
    look fun
      | [] => done ()
      | c :: _ => if isIdentifierChar c then advance 1 (call .name done) else done ()
  | .blanks =>
    look fun
      | [] => done ()
      | c :: _ => if isBlank c then advance c.utf8Size (call .blanks done) else done ()

/-- A program that is started at a position comes to a value and leaves the cursor at a position, or
it refuses the text at one. A run is finite: what it calls runs to its end. -/
inductive Runs (source : List Char) :
    {α : Type} → Program α → Nat → Except Nat (α × Nat) → Prop
  | done {α : Type} (value : α) (cursor : Nat) :
      Runs source (.done value) cursor (.ok (value, cursor))
  | refuse {α : Type} (cursor : Nat) : Runs source (.refuse : Program α) cursor (.error cursor)
  | refuseAt {α : Type} (position cursor : Nat) :
      Runs source (.refuseAt position : Program α) cursor (.error position)
  | look {α : Type} {next : List Char → Program α} {cursor : Nat} {outcome : Except Nat (α × Nat)}
      (later : Runs source (next (dropBytes cursor source)) cursor outcome) :
      Runs source (.look next) cursor outcome
  | here {α : Type} {next : Nat → Program α} {cursor : Nat} {outcome : Except Nat (α × Nat)}
      (later : Runs source (next cursor) cursor outcome) : Runs source (.here next) cursor outcome
  | slice {α : Type} {start : Nat} {next : List Char → Program α} {cursor : Nat}
      {outcome : Except Nat (α × Nat)}
      (later : Runs source (next (Span.slice ⟨start, cursor⟩ source)) cursor outcome) :
      Runs source (.slice start next) cursor outcome
  | advance {α : Type} {count : Nat} {next : Program α} {cursor : Nat}
      {outcome : Except Nat (α × Nat)} (later : Runs source next (cursor + count) outcome) :
      Runs source (.advance count next) cursor outcome
  | refused {α : Type} {routine : Routine} {next : routine.Value → Program α}
      {cursor position : Nat} (called : Runs source (program routine) cursor (.error position)) :
      Runs source (.call routine next) cursor (.error position)
  | called {α : Type} {routine : Routine} {next : routine.Value → Program α} {cursor behind : Nat}
      {value : routine.Value} {outcome : Except Nat (α × Nat)}
      (called : Runs source (program routine) cursor (.ok (value, behind)))
      (later : Runs source (next value) behind outcome) :
      Runs source (.call routine next) cursor outcome

theorem Runs.unique {source : List Char} {α : Type} {p : Program α} {cursor : Nat}
    {outcome other : Except Nat (α × Nat)} (h : Runs source p cursor outcome)
    (h' : Runs source p cursor other) : outcome = other := by
  induction h with
  | done | refuse | refuseAt =>
    cases h'
    rfl
  | look _ ih | here _ ih | slice _ ih | advance _ ih =>
    cases h' with
    | _ later => exact ih later
  | refused _ ih =>
    cases h' with
    | refused called => exact congrArg Except.error (Except.error.inj (ih called))
    | called called _ => cases ih called
  | called _ _ ih ihNext =>
    cases h' with
    | refused called => cases ih called
    | called called later =>
      obtain ⟨rfl, rfl⟩ := Prod.mk.inj (Except.ok.inj (ih called))
      exact ihNext later

inductive Next (source : List Char) {α : Type} : Program α × Nat → Program α × Nat → Prop
  | look (next : List Char → Program α) (cursor : Nat) :
      Next source (.look next, cursor) (next (dropBytes cursor source), cursor)
  | here (next : Nat → Program α) (cursor : Nat) :
      Next source (.here next, cursor) (next cursor, cursor)
  | slice (start : Nat) (next : List Char → Program α) (cursor : Nat) :
      Next source (.slice start next, cursor) (next (Span.slice ⟨start, cursor⟩ source), cursor)
  | advance (count : Nat) (next : Program α) (cursor : Nat) :
      Next source (.advance count next, cursor) (next, cursor + count)
  | call {routine : Routine} (next : routine.Value → Program α) {cursor behind : Nat}
      {value : routine.Value}
      (called : Runs source (program routine) cursor (.ok (value, behind))) :
      Next source (.call routine next, cursor) (next value, behind)

/-- A routine that is started at a position comes to a point of its program, with the cursor at a
position. -/
def Passes (source : List Char) (routine : Routine) (start : Nat)
    (point : Program routine.Value × Nat) : Prop :=
  Relation.ReflTransGen (Next source) (program routine, start) point

def Calls (source : List Char) (caller callee : Routine × Nat) : Prop :=
  ∃ next, Passes source caller.1 caller.2 (.call callee.1 next, callee.2)

def Started (source : List Char) : Routine × Nat → Prop :=
  Relation.ReflTransGen (Calls source) (.whole, 0)

end TemplateMessages.Expression
