set_option autoImplicit false

/-!
# Bracket and quote nesting

The host expressions of a template are never parsed. A `Nesting` only knows which brackets are open
and whether a string is, which is enough to find where a balanced expression ends. A backslash has
no meaning here: the next equal quote closes a string.
-/

namespace TemplateMessages.Expression

inductive Quote where
  | single
  | double
  | back
  deriving DecidableEq, Repr, Inhabited

namespace Quote

def toChar : Quote → Char
  | single => '\x27'
  | double => '\x22'
  | back => '\x60'

def ofChar? (c : Char) : Option Quote :=
  if c = '\x27' then some single
  else if c = '\x22' then some double
  else if c = '\x60' then some back
  else none

end Quote

inductive Bracket where
  | round
  | square
  | curly
  deriving DecidableEq, Repr, Inhabited

namespace Bracket

def opening? : Char → Option Bracket
  | '(' => some round
  | '[' => some square
  | '{' => some curly
  | _ => none

def closing? : Char → Option Bracket
  | ')' => some round
  | ']' => some square
  | '}' => some curly
  | _ => none

end Bracket

inductive Step where
  | inside
  /-- A closer emptied the stack of open brackets. -/
  | closed
  /-- A closer does not match the innermost open bracket. -/
  | mismatch
  deriving DecidableEq, Repr, Inhabited

structure Nesting where
  /-- The open brackets, innermost first. -/
  brackets : List Bracket
  quote : Option Quote
  deriving DecidableEq, Repr, Inhabited

namespace Nesting

def empty : Nesting := ⟨[], none⟩

def opened (bracket : Bracket) : Nesting := ⟨[bracket], none⟩

def isBalanced (nesting : Nesting) : Bool :=
  nesting.brackets.isEmpty && nesting.quote.isNone

/-- Close `bracket`. After a mismatch the nesting is what it was. -/
def close (nesting : Nesting) (bracket : Bracket) : Nesting × Step :=
  match nesting.brackets with
  | [] => (nesting, .mismatch)
  | top :: outer =>
    if top = bracket then
      (⟨outer, nesting.quote⟩, if outer.isEmpty then .closed else .inside)
    else (nesting, .mismatch)

def feed (nesting : Nesting) (c : Char) : Nesting × Step :=
  match nesting.quote with
  | some quote =>
    if c = quote.toChar then (⟨nesting.brackets, none⟩, .inside) else (nesting, .inside)
  | none =>
    match Quote.ofChar? c with
    | some quote => (⟨nesting.brackets, some quote⟩, .inside)
    | none =>
      match Bracket.opening? c with
      | some bracket => (⟨bracket :: nesting.brackets, none⟩, .inside)
      | none =>
        match Bracket.closing? c with
        | some bracket => nesting.close bracket
        | none => (nesting, .inside)

def closingFrom (nesting : Nesting) : List Char → Option Nat
  | [] => none
  | c :: cs =>
    match nesting.feed c with
    | (_, .closed) => some c.utf8Size
    | (_, .mismatch) => none
    | (next, .inside) => (next.closingFrom cs).map (c.utf8Size + ·)

def consFirst (c : Char) : List (List Char) → List (List Char)
  | [] => [[c]]
  | part :: parts => (c :: part) :: parts

def splitFrom (nesting : Nesting) (separator : Char) : List Char → Option (List (List Char))
  | [] => if nesting.isBalanced then some [[]] else none
  | c :: cs =>
    if c = separator ∧ nesting.isBalanced then (nesting.splitFrom separator cs).map ([] :: ·)
    else
      match nesting.feed c with
      | (_, .mismatch) => none
      | (next, _) => (next.splitFrom separator cs).map (consFirst c)

def findFrom (nesting : Nesting) (separator : Char) : List Char → Option Nat
  | [] => none
  | c :: cs =>
    if c = separator ∧ nesting.isBalanced then some 0
    else
      match nesting.feed c with
      | (_, .mismatch) => none
      | (next, _) => (next.findFrom separator cs).map (c.utf8Size + ·)

end Nesting

/-- The number of bytes up to and with the bracket that closes one already open in front of the
text. -/
def findClosing (text : List Char) (bracket : Bracket) : Option Nat :=
  (Nesting.opened bracket).closingFrom text

/-- The parts of a balanced text between the separators outside brackets and strings. -/
def splitTopLevel (text : List Char) (separator : Char) : Option (List (List Char)) :=
  Nesting.empty.splitFrom separator text

/-- The byte position of the first separator outside brackets and strings. -/
def findTopLevel (text : List Char) (separator : Char) : Option Nat :=
  Nesting.empty.findFrom separator text

end TemplateMessages.Expression
