import TemplateMessages.Report.Issue
import TemplateMessages.Text.Width

set_option autoImplicit false

/-!
# Showing issues

Issues are shown in the order of their files and positions. Each one shows its line with a caret
below the place; a count of all issues closes the report.
-/

namespace TemplateMessages.Report

open TemplateMessages.Text (displayWidth)

def successMark : String := "✓"

def failureMark : String := "✘"

def spaces (count : Nat) : String :=
  String.ofList (List.replicate count ' ')

def flushRight (width : Nat) (text : String) : String :=
  spaces (width - text.length) ++ text

def plural (count : Nat) (singular many : String) : String :=
  if count = 1 then singular else many

namespace Issue

def lineAndColumn (issue : Issue) : Nat × Nat :=
  match issue.position? with
  | some position => (position.location.line, position.location.column)
  | none => (0, 0)

/-- The order of a report: by file, then by line and column. -/
def le (a b : Issue) : Bool :=
  if a.file = b.file then
    let (aLine, aColumn) := a.lineAndColumn
    let (bLine, bColumn) := b.lineAndColumn
    aLine < bLine || (aLine == bLine && aColumn ≤ bColumn)
  else a.file ≤ b.file

/-- The line of the source and the caret below the place, the numbers of lines taking `width`
columns. -/
def sourceLines (width : Nat) (position : SourcePosition) : List String :=
  let before := position.line.toList.take (position.location.column - 1)
  [spaces width ++ " |",
    flushRight width (toString position.location.line) ++ " | " ++ position.line,
    spaces width ++ " | " ++ spaces (displayWidth before) ++ "^"]

def display (width : Nat) (issue : Issue) : List String :=
  let place := match issue.position? with
    | some position => issue.file ++ ":" ++ position.location.display
    | none => issue.file
  let source := match issue.position? with
    | some position => sourceLines width position
    | none => []
  let hint := match issue.hint? with
    | some hint => [spaces width ++ " = hint: " ++ hint]
    | none => []
  let title := issue.severity.text ++ ": " ++ issue.message ++ "  " ++ issue.rule
  [title, "  --> " ++ place] ++ source ++ [spaces width ++ " = note: " ++ issue.details] ++ hint ++
    [""]

end Issue

def numberWidth (issues : List Issue) : Nat :=
  let lines := issues.map fun issue => issue.lineAndColumn.1
  (toString (lines.foldl max 0)).length

def countLine (issues : List Issue) : String :=
  let errors := (issues.filter (·.severity = .error)).length
  let warnings := issues.length - errors
  failureMark ++ " " ++ toString issues.length ++ " problems (" ++ toString errors ++ " " ++
    plural errors "error" "errors" ++ ", " ++ toString warnings ++ " " ++
    plural warnings "warning" "warnings" ++ ")"

def display (issues : List Issue) : List String :=
  if issues.isEmpty then []
  else
    let width := numberWidth issues
    (issues.mergeSort Issue.le).flatMap (Issue.display width) ++ [countLine issues]

end TemplateMessages.Report
