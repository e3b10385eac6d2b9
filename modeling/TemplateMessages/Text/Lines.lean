import TemplateMessages.Text.Span

set_option autoImplicit false

/-!
# Lines and columns

A `LineIndex` holds the byte position at which each line starts. Lines and columns count from one,
and columns count characters.
-/

namespace TemplateMessages.Text

structure Location where
  line : Nat
  column : Nat
  deriving DecidableEq, Repr, Inhabited

def Location.display (location : Location) : String :=
  toString location.line ++ ":" ++ toString location.column

def Location.le (a b : Location) : Bool :=
  a.line < b.line || (a.line == b.line && a.column ≤ b.column)

def lineStartsFrom (position : Nat) : List Char → List Nat
  | [] => []
  | c :: cs =>
    let next := position + c.utf8Size
    if c = '\n' then next :: lineStartsFrom next cs else lineStartsFrom next cs

structure LineIndex where
  /-- Where each line starts, in ascending order; the first line starts at 0. -/
  starts : List Nat
  deriving Repr, Inhabited

namespace LineIndex

def ofText (source : List Char) : LineIndex :=
  ⟨0 :: lineStartsFrom 0 source⟩

/-- The line that holds a byte position, and the column in it. A position past the end of the text
counts as its end. -/
def location (index : LineIndex) (source : List Char) (position : Nat) : Location :=
  let upTo := index.starts.takeWhile (· ≤ position)
  let lineStart := upTo.getLastD 0
  ⟨upTo.length, (takeBytes (position - lineStart) (dropBytes lineStart source)).length + 1⟩

/-- The text of a line without its line break and the carriage returns before it; nothing when
there is no such line. -/
def lineText (index : LineIndex) (source : List Char) (line : Nat) : List Char :=
  match line with
  | 0 => []
  | previous + 1 =>
    match index.starts[previous]? with
    | none => []
    | some start =>
      let rest := dropBytes start source
      let text := match index.starts[previous + 1]? with
        | some next => takeBytes (next - 1 - start) rest
        | none => rest
      (text.reverse.dropWhile (· = '\r')).reverse

end LineIndex

end TemplateMessages.Text
