import TemplateMessages.Report.Issue
import TemplateMessages.Template.Resolution

set_option autoImplicit false

/-!
# Transforming a template

The calls of a template are replaced by their translations. A call without one becomes an issue, or,
where missing translations are errors, the error of the whole transformation.
-/

namespace TemplateMessages.Template

open TemplateMessages.Report (Issue SourcePosition)
open TemplateMessages.Text
open TemplateMessages.Translation

inductive OnMissing where
  | skip
  | error
  deriving DecidableEq, Repr, Inhabited

structure Options where
  locale : String
  fallback : String
  blockName : String
  removeBlock : Bool
  onMissing : OnMissing
  file : String
  deriving DecidableEq, Repr, Inhabited

inductive TransformError where
  | unterminatedTemplate (location : Location)
  | missingTranslation (location : Location) (expression : String) (error : TranslationError)
  deriving DecidableEq, Repr, Inhabited

def TransformError.message : TransformError → String
  | unterminatedTemplate location =>
    "template block opened at " ++ location.display ++ " is never closed"
  | missingTranslation location expression error =>
    location.display ++ ": " ++ error.message ++ " in `" ++ expression ++ "`"

structure Output where
  code : String
  issues : List Issue
  translated : Nat
  deriving DecidableEq, Repr, Inhabited

def sourcePosition (source : List Char) (lines : LineIndex) (file : String) (position : Nat) :
    SourcePosition :=
  let location := lines.location source position
  ⟨file, location, String.ofList (lines.lineText source location.line)⟩

/-- The issue of a skipped call with its location. -/
def skippedIssue (source : List Char) (lines : LineIndex) (file : String) (call : SkippedCall) :
    Location × Issue :=
  let position := sourcePosition source lines file call.candidate.span.start
  (position.location, .skippedTranslation position call.candidate.content call.error)

def missingError? (source : List Char) (lines : LineIndex) (skipped : List SkippedCall) :
    Option TransformError :=
  (skipped.find? (·.error.isMissing)).map fun call =>
    .missingTranslation (lines.location source call.candidate.span.start) call.candidate.content
      call.error

def transformRegion (source : List Char) (lines : LineIndex) (region : Span) (options : Options)
    (translator : Translator) (context : Context) :
    Except TransformError (Outcome × List Issue) :=
  let outcome := resolveRegion source region translator.functions (translator.translate context)
  let missing :=
    if options.onMissing = .error then missingError? source lines outcome.skipped else none
  match missing with
  | some error => .error error
  | none =>
    let issues := outcome.skipped.map (skippedIssue source lines options.file)
    .ok (outcome, (issues.mergeSort fun a b => a.1.le b.1).map (·.2))

/-- Markup without a component around it. -/
def transformTemplate (source : List Char) (options : Options) (translator : Translator) :
    Except TransformError Output := do
  let lines := LineIndex.ofText source
  let context : Context := ⟨options.locale, options.fallback, []⟩
  let (outcome, issues) ←
    transformRegion source lines ⟨0, byteLength source⟩ options translator context
  return ⟨String.ofList (Edit.applyAll outcome.edits source), issues, outcome.translated⟩

end TemplateMessages.Template
