import TemplateMessages.Files.Tree
import TemplateMessages.Fluent.Resource
import TemplateMessages.Project.Config
import TemplateMessages.Report.Issue
import TemplateMessages.Text.Shown
import TemplateMessages.Translation.Translator

set_option autoImplicit false

/-!
# Message files of a project

The messages of each locale are in a file of their own in one directory, named for the locale. A
file that cannot be used, all or in part, becomes an issue.
-/

namespace TemplateMessages.Project

open TemplateMessages.Files
open TemplateMessages.Report (Issue)
open TemplateMessages.Text (shownPath)
open TemplateMessages.Translation (Source)

inductive MessagesError where
  | noDirectory (path : Path)
  | notDirectory (path : Path)
  deriving DecidableEq, Repr, Inhabited

def MessagesError.message : MessagesError → String
  | noDirectory path =>
    "Messages directory '" ++ path.text ++
      "' does not exist.\nHint: Check your .bakerc.json 'messagesRoot' setting."
  | notDirectory path => "'" ++ path.text ++ "' is not a directory."

/-- The messages of a file, or nothing, and what is wrong with it. -/
abbrev FileMessages (α : Type) := Option α × List String

def catalogMessages (text : List Char) : FileMessages Catalog.Messages :=
  match Catalog.parseMessages text with
  | .ok (messages, skipped) => (some messages, skipped.map (·.message))
  | .error error => (none, [error.message])

def fluentMessages (text : List Char) : FileMessages Fluent.Catalog :=
  let (catalog, errors) := Fluent.parse text
  (some catalog, errors.map (·.message))

def readMessages {α : Type} (tree : Tree) (parse : List Char → FileMessages α) (path : Path) :
    FileMessages α :=
  match tree.read path with
  | .ok text => parse text.toList
  | .error error =>
    (none, ["Failed to read file: " ++ shownPath path.text ++ ": " ++ error.message])

def messageFiles (tree : Tree) (directory : Path) (extension : String) : List (String × Path) :=
  match tree.locate directory with
  | .error _ => []
  | .ok place =>
    let paths := ((tree.names place).mergeSort (· ≤ ·)).map directory.joinName
    paths.filterMap fun path =>
      if path.extension? = some extension then path.stem?.map (·, path) else none

/-- The messages of all files of a directory by locale, and the issues of the files. -/
def gatherMessages {α : Type} (tree : Tree) (directory : Path) (extension : String)
    (parse : List Char → FileMessages α) : Table α × List Issue :=
  let read := (messageFiles tree directory extension).map fun (locale, path) =>
    (locale, path, readMessages tree parse path)
  (read.filterMap fun (locale, _, messages, _) => messages.map (locale, ·),
    read.flatMap fun (_, path, _, errors) => errors.map (.messagesNotLoaded path.text))

def loadMessages (tree : Tree) (directory : Path) (format : MessageFormat) (isolating : Bool) :
    Except MessagesError (Source × List Issue) :=
  match tree.lookUp directory with
  | .missing => .error (.noDirectory directory)
  | .file _ => .error (.notDirectory directory)
  | .directory =>
    match format with
    | .catalog =>
      let (messages, issues) := gatherMessages tree directory format.extension catalogMessages
      .ok (.catalog messages, issues)
    | .fluent =>
      let (catalogs, issues) := gatherMessages tree directory format.extension fluentMessages
      .ok (.fluent catalogs isolating, issues)

end TemplateMessages.Project
