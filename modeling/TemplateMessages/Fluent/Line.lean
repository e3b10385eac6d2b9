import TemplateMessages.Fluent.Syntax
import TemplateMessages.Fluent.Token

set_option autoImplicit false

/-!
# Lines of Fluent patterns

The text of a pattern is read line by line. The indentation that all its further lines share is not
part of it, and neither are blanks at its end.
-/

namespace TemplateMessages.Fluent

open TemplateMessages.Text (Rest Shorter)

inductive RunEnd where
  | lineFeed
  | carriageReturn
  | placeable
  | endOfText
  deriving DecidableEq, Repr, Inhabited

/-- Text up to a placeable or the end of the line, with the line feed, and whether all of it is
spaces. -/
structure Run where
  chars : List Char
  blank : Bool
  runEnd : RunEnd
  deriving Repr, Inhabited

def readRun (text : List Char) : Following Run text :=
  match text with
  | [] => .ok (⟨[], true, .endOfText⟩, .whole [])
  | '\n' :: rest => .ok (⟨['\n'], true, .lineFeed⟩, (Rest.whole rest).behind '\n')
  | '\r' :: '\n' :: rest =>
    .ok (⟨[], true, .carriageReturn⟩, (Rest.whole ('\n' :: rest)).behind '\r')
  | '{' :: rest => .ok (⟨[], true, .placeable⟩, .whole ('{' :: rest))
  | '}' :: rest => .error ⟨.unbalancedClosingBrace, '}' :: rest⟩
  | c :: rest =>
    match readRun rest with
    | .error stop => .error stop
    | .ok (run, after) =>
      .ok (⟨c :: run.chars, isSpace c && run.blank, run.runEnd⟩, after.behind c)

inductive RunStart where
  | firstLine
  | newLine
  | insideLine
  deriving DecidableEq, Repr, Inhabited

inductive Piece where
  | placeable (expression : Expression)
  /-- `chars` starts with `indent` spaces when it starts a line. -/
  | text (chars : List Char) (indent : Nat) (newLine blank : Bool)
  deriving Inhabited

namespace Piece

def isBlank : Piece → Bool
  | placeable _ => false
  | text _ _ _ blank => blank

def toElement (common : Option Nat) : Piece → Element
  | placeable expression => .placeable expression
  | text chars indent newLine _ =>
    let cut := if newLine then (match common with | some n => min indent n | none => indent) else 0
    .text (String.ofList (chars.drop cut))

end Piece

def isBlankChar (c : Char) : Bool :=
  c == ' ' || c == '\r' || c == '\n'

def trimLast : List Element → Pattern
  | [] => []
  | [.text value] => [.text (String.ofList (value.toList.reverse.dropWhile isBlankChar).reverse)]
  | element :: elements => element :: trimLast elements

/-- The pattern of some pieces, the blank ones at the end excepted; nothing when all are blank. -/
def patternOf (common : Option Nat) (pieces : List Piece) : Option Pattern :=
  match (pieces.reverse.dropWhile Piece.isBlank).reverse with
  | [] => none
  | kept => some (trimLast (kept.map (Piece.toElement common)))

def leastIndent (common : Option Nat) (indent : Nat) : Option Nat :=
  match common with
  | some n => some (min n indent)
  | none => some indent

def continuesPattern (c : Char) : Bool :=
  c != '.' && c != '}' && c != '[' && c != '*'

def lineContinues (indent : Nat) (rest : List Char) : Bool :=
  match rest with
  | [] => false
  | c :: _ => if indent = 0 then c == '\r' || c == '\n' else continuesPattern c

def pieceOf (start : RunStart) (indent : Nat) (common : Option Nat) (run : Run) :
    Option Nat × List Piece :=
  let newLine := start == .newLine
  if run.chars.isEmpty then (common, [])
  else
    let common := if newLine && !run.blank then leastIndent common indent else common
    let counts := !newLine || !run.blank || run.runEnd == .lineFeed
    let chars := List.replicate indent ' ' ++ run.chars
    (common, if counts then [.text chars indent newLine run.blank] else [])

/-- Where the run behind another one starts. -/
def RunEnd.next : RunEnd → RunStart
  | lineFeed => .newLine
  | carriageReturn => .newLine
  | placeable => .insideLine
  | endOfText => .insideLine

theorem length_lt_of_readRun {text : List Char} {run : Run} {rest : Rest text}
    (h : readRun text = .ok (run, rest)) (hne : text ≠ []) (hopen : text.head? ≠ some '{') :
    rest.val.length < text.length := by
  unfold readRun at h
  split at h
  · exact absurd rfl hne
  · simp only [Except.ok.injEq, Prod.mk.injEq] at h
    simp [← h.2, Rest.behind, Rest.whole]
  · simp only [Except.ok.injEq, Prod.mk.injEq] at h
    simp [← h.2, Rest.behind, Rest.whole]
  · simp at hopen
  · simp at h
  · split at h
    · simp at h
    · simp only [Except.ok.injEq, Prod.mk.injEq] at h
      rename_i after _
      simp only [← h.2, Rest.behind, List.length_cons]
      exact Nat.lt_succ_of_le after.property

theorem length_lt_of_readLine {c : Char} {cs : List Char} {indent : Nat} {run : Run}
    {rest : List Char} {hle : rest.length ≤ ((c :: cs).drop indent).length}
    (h : readRun ((c :: cs).drop indent) = .ok (run, ⟨rest, hle⟩)) (hopen : c ≠ '{') :
    rest.length < (c :: cs).length := by
  cases indent with
  | zero => exact length_lt_of_readRun h (by simp) (by simpa using hopen)
  | succ n =>
    rw [List.length_drop] at hle
    simp only [List.length_cons] at hle ⊢
    omega

end TemplateMessages.Fluent
