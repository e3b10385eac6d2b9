import TemplateMessages.Expression.Nesting
import TemplateMessages.Table
import TemplateMessages.Text.Blank
import TemplateMessages.Text.Span

set_option autoImplicit false

/-!
# Translation calls in an expression

A candidate is a call of a translation function where an operand can stand: at the start of the
expression or behind an operator. It reaches to the parenthesis that closes its arguments. A call
inside the arguments of another one is no candidate of its own.
-/

namespace TemplateMessages.Call

open TemplateMessages.Expression (Nesting Bracket)
open TemplateMessages.Text

inductive Function where
  | translate
  | exists?
  deriving DecidableEq, Repr, Inhabited

def Function.shortName : Function → String
  | translate => "t"
  | exists? => "te"

def Function.ofShortName? (name : String) : Option Function :=
  if name = "t" then some .translate else if name = "te" then some .exists? else none

/-- The names under which an expression calls the translation functions, each name once. -/
abbrev FunctionNames := Table Function

namespace FunctionNames

def default : FunctionNames := [("t", .translate)]

/-- Longest names first, so that no name hides a longer one. -/
def longestFirst (names : FunctionNames) : FunctionNames :=
  names.mergeSort fun a b =>
    b.1.utf8ByteSize < a.1.utf8ByteSize || (a.1.utf8ByteSize == b.1.utf8ByteSize && a.1 ≤ b.1)

end FunctionNames

inductive Place where
  | text
  | attributeValue
  deriving DecidableEq, Repr, Inhabited

structure Candidate where
  span : Span
  content : String
  name : String
  function : Function
  place : Place
  /-- Nothing but white space is around the call. -/
  sole : Bool
  deriving DecidableEq, Repr, Inhabited

/-- The text between the first parenthesis of the call and its last. -/
def Candidate.arguments (candidate : Candidate) : List Char :=
  ((candidate.content.toList.dropWhile (· ≠ '(')).drop 1).dropLast

def operators : List String := [
  "+", "-", "*", "/", "++", "--", "(", "!", "==", "===", "!==", "!=", "%", "**", "\x7b", "[", ",",
  "*=", "/=", "%=", "+=", "-=", "^", "^=", "?.", "?"]

structure Head where
  lead : List Char
  name : String
  function : Function
  gap : List Char
  deriving Repr, Inhabited

def Head.chars (head : Head) : List Char :=
  head.lead ++ head.name.toList ++ head.gap ++ ['(']

def headNamed? (lead text : List Char) (name : String) (function : Function) :
    Option (Head × List Char) :=
  if name.toList.isPrefixOf text then
    let rest := text.drop name.toList.length
    match skipBlanks rest with
    | '(' :: after => some (⟨lead, name, function, rest.takeWhile isBlank⟩, after)
    | _ => none
  else none

def headOf? (names : FunctionNames) (lead text : List Char) : Option (Head × List Char) :=
  names.findSome? fun (name, function) => headNamed? lead text name function

def headAfterBlanks? (names : FunctionNames) (lead text : List Char) :
    (blanks : Nat) → Option (Head × List Char)
  | 0 => headOf? names lead text
  | blanks + 1 =>
    match headOf? names (lead ++ text.take (blanks + 1)) (text.drop (blanks + 1)) with
    | some found => some found
    | none => headAfterBlanks? names lead text blanks

def headAfter? (names : FunctionNames) (operator : List Char) (text : List Char) :
    Option (Head × List Char) :=
  if operator.isPrefixOf text then
    let rest := text.drop operator.length
    headAfterBlanks? names operator rest (rest.takeWhile isBlank).length
  else none

/-- The head of a call at the start of a text, the start of the expression standing for an
operator. -/
def head? (names : FunctionNames) (atStart : Bool) (text : List Char) :
    Option (Head × List Char) :=
  let operators := operators.map String.toList
  (if atStart then [] :: operators else operators).findSome? (headAfter? names · text)

theorem append_of_headNamed? {lead text rest : List Char} {name : String} {function : Function}
    {head : Head} (h : headNamed? lead text name function = some (head, rest)) :
    head.chars ++ rest = lead ++ text := by
  unfold headNamed? at h
  split at h
  · rename_i hname
    obtain ⟨tail, rfl⟩ := List.isPrefixOf_iff_prefix.mp hname
    dsimp only at h
    rw [List.drop_left] at h
    split at h
    · rename_i after hskip
      simp only [Option.some.injEq, Prod.mk.injEq] at h
      obtain ⟨rfl, rfl⟩ := h
      have whole : tail.takeWhile isBlank ++ skipBlanks tail = tail :=
        List.takeWhile_append_dropWhile
      rw [hskip] at whole
      simp only [Head.chars]
      conv => rhs; rw [← whole]
      simp
    · simp at h
  · simp at h

theorem append_of_headOf? {names : FunctionNames} {lead text rest : List Char} {head : Head}
    (h : headOf? names lead text = some (head, rest)) : head.chars ++ rest = lead ++ text := by
  obtain ⟨⟨name, function⟩, _, found⟩ := List.exists_of_findSome?_eq_some h
  exact append_of_headNamed? found

theorem append_of_headAfterBlanks? {names : FunctionNames} {lead text rest : List Char}
    {blanks : Nat} {head : Head}
    (h : headAfterBlanks? names lead text blanks = some (head, rest)) :
    head.chars ++ rest = lead ++ text := by
  induction blanks with
  | zero => exact append_of_headOf? h
  | succ blanks ih =>
    simp only [headAfterBlanks?] at h
    split at h
    · rename_i found heq
      obtain rfl : found = (head, rest) := Option.some.inj h
      rw [append_of_headOf? heq, List.append_assoc, List.take_append_drop]
    · exact ih h

theorem append_of_head? {names : FunctionNames} {atStart : Bool} {text rest : List Char}
    {head : Head} (h : head? names atStart text = some (head, rest)) :
    head.chars ++ rest = text := by
  obtain ⟨operator, _, found⟩ := List.exists_of_findSome?_eq_some h
  unfold headAfter? at found
  split at found
  · rename_i hoperator
    obtain ⟨tail, rfl⟩ := List.isPrefixOf_iff_prefix.mp hoperator
    dsimp only at found
    rw [List.drop_left] at found
    exact append_of_headAfterBlanks? found
  · simp at found

theorem length_lt_of_head? {names : FunctionNames} {atStart : Bool} {text rest : List Char}
    {head : Head} (h : head? names atStart text = some (head, rest)) :
    rest.length < text.length := by
  rw [← append_of_head? h]
  simp only [Head.chars, List.length_append, List.length_singleton]
  omega

structure Cursor where
  position : Nat
  atStart : Bool
  blankBefore : Bool
  lastStop : Nat
  deriving Repr, Inhabited

namespace Cursor

def move (cursor : Cursor) (chars : List Char) : Cursor :=
  { cursor with
    position := cursor.position + byteLength chars
    atStart := false
    blankBefore := cursor.blankBefore && isBlankText chars }

end Cursor

def candidate? (place : Place) (cursor : Cursor) (head : Head) (rest : List Char) :
    Option Candidate :=
  if cursor.position < cursor.lastStop then none
  else
    (Expression.findClosing rest .round).map fun length =>
      let start := cursor.position + byteLength head.lead
      let front := head.name.toList ++ head.gap ++ ['(']
      { span := ⟨start, start + byteLength front + length⟩
        content := String.ofList (front ++ takeBytes length rest)
        name := head.name
        function := head.function
        place := place
        sole := cursor.blankBefore && isBlankText head.lead && isBlankText (dropBytes length rest) }

def candidatesFrom (names : FunctionNames) (place : Place) (cursor : Cursor) (text : List Char) :
    List Candidate :=
  match h : head? names cursor.atStart text with
  | none =>
    match text with
    | [] => []
    | c :: cs => candidatesFrom names place (cursor.move [c]) cs
  | some (head, rest) =>
    have := length_lt_of_head? h
    let next := cursor.move head.chars
    match candidate? place cursor head rest with
    | none => candidatesFrom names place next rest
    | some candidate =>
      candidate :: candidatesFrom names place { next with lastStop := candidate.span.stop } rest
termination_by text.length

/-- The candidates of an expression in source order, the expression starting at byte `base`. -/
def candidates (names : FunctionNames) (expression : List Char) (base : Nat) (place : Place) :
    List Candidate :=
  if names.isEmpty then []
  else candidatesFrom names.longestFirst place ⟨base, true, true, 0⟩ expression

end TemplateMessages.Call
