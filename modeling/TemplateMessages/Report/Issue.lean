import TemplateMessages.Text.Lines
import TemplateMessages.Translation.Error

set_option autoImplicit false

/-!
# Issues

An issue is something that was left undone and that a user may want to mend.
-/

namespace TemplateMessages.Report

open TemplateMessages.Text (Location)
open TemplateMessages.Translation (TranslationError)

inductive Severity where
  | error
  | warning
  deriving DecidableEq, Repr, Inhabited

def Severity.text : Severity → String
  | error => "error"
  | warning => "warning"

/-- A position in a file, with its line for display. -/
structure SourcePosition where
  file : String
  location : Location
  line : String
  deriving DecidableEq, Repr, Inhabited

inductive Issue where
  | skippedTranslation (position : SourcePosition) (expression : String) (error : TranslationError)
  | invalidBlock (position : SourcePosition) (block error : String)
  | messagesNotLoaded (file error : String)
  deriving DecidableEq, Repr, Inhabited

namespace Issue

def severity (_ : Issue) : Severity := .warning

def rule : Issue → String
  | skippedTranslation .. => "skipped-translation"
  | invalidBlock .. => "invalid-block"
  | messagesNotLoaded .. => "message-load"

def position? : Issue → Option SourcePosition
  | skippedTranslation position _ _ => some position
  | invalidBlock position _ _ => some position
  | messagesNotLoaded .. => none

/-- The file that the issue is about. -/
def file : Issue → String
  | skippedTranslation position _ _ => position.file
  | invalidBlock position _ _ => position.file
  | messagesNotLoaded file _ => file

def message : Issue → String
  | skippedTranslation _ expression _ => "skipped translation \x22" ++ expression ++ "\x22"
  | invalidBlock _ block _ => "ignored <" ++ block ++ "> block"
  | messagesNotLoaded .. => "could not load messages"

def details : Issue → String
  | skippedTranslation _ _ error => error.message
  | invalidBlock _ _ error => error
  | messagesNotLoaded _ error => error

def hint? : Issue → Option String
  | skippedTranslation _ _ error =>
    match error with
    | .unknownKey .. => some "add the key to the message catalog or fix the key"
    | .unknownMessage _ => some "add the key to the message catalog or fix the key"
    | .call _ => some "the first argument must be a string literal key"
    | .missingVariable .. => some "pass every placeholder in the params object"
    | .unknownVariable _ => some "pass every placeholder in the params object"
    | _ => none
  | _ => none

end Issue

end TemplateMessages.Report
