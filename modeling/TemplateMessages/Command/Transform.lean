import TemplateMessages.Command.Arguments
import TemplateMessages.Command.Outcome
import TemplateMessages.Component.Transform
import TemplateMessages.Project.Messages
import TemplateMessages.Project.Scan
import TemplateMessages.Project.Settings
import TemplateMessages.Report.Display

set_option autoImplicit false

/-!
# Transforming files

The command selects files, transforms each one by itself, and reports what happened. A file that
fails stays as it is and does not keep the others from being transformed.
-/

namespace TemplateMessages.Command

open TemplateMessages.Files
open TemplateMessages.Project
open TemplateMessages.Report (Issue plural)
open TemplateMessages.Template (Options Output TransformError)
open TemplateMessages.Translation (Translator)

inductive RunError where
  | settings (error : SettingsError)
  | config (error : ConfigError)
  | messages (error : MessagesError)
  | missingPath (path : Path)
  | severalFiles (count : Nat)
  deriving Repr, Inhabited

def RunError.message : RunError → String
  | settings error => error.message
  | config error => error.message
  | messages error => error.message
  | missingPath path => "Path does not exist: " ++ path.text
  | severalFiles count =>
    toString count ++ " files matched; use --write or --out-dir to transform more than one file"

inductive Target where
  | output
  | inPlace
  /-- Under a directory, at the same place as under the working directory. -/
  | mirror (directory : Path)
  deriving DecidableEq, Repr, Inhabited

inductive FileFailure where
  | unreadable (path : Path) (error : FileError)
  | transform (error : TransformError)
  | noDirectory (directory : Path) (error : FileError)
  | unwritable (path : Path) (error : FileError)
  deriving DecidableEq, Repr, Inhabited

def FileFailure.message : FileFailure → String
  | unreadable path error => "Failed to read " ++ path.text ++ ": " ++ error.message
  | transform error => error.message
  | noDirectory directory error =>
    "Failed to create " ++ directory.text ++ ": " ++ error.message
  | unwritable path error => "Failed to write " ++ path.text ++ ": " ++ error.message

def applyArguments (config : Config) (arguments : TransformArguments) : Config :=
  { config with
    format := arguments.format.getD config.format
    locale := arguments.locale.getD config.locale
    fallback := arguments.fallback.getD config.fallback
    onMissing := if arguments.strict then .error else config.onMissing }

def seenFrom (working path : Path) : Path :=
  (path.below? working).getD path

def filesOfArgument (tree : Tree) (working : Path) (ignores : List String) (argument : String) :
    Except RunError (List Path) :=
  let path := working.join (Path.ofString argument)
  match tree.lookUp path with
  | .directory => .ok (scan tree path [] ignores).files
  | .file _ => .ok [path]
  | .missing => .error (.missingPath path)

def distinctPaths (paths : List Path) : List Path :=
  (paths.mergeSort Path.le).eraseRepsBy fun a b => a.components == b.components

/-- The files to transform, and what the search for them passed over. -/
def selectFiles (tree : Tree) (working : Path) (settings : Settings) (arguments : List String) :
    Except RunError (List Path × List ScanWarning) :=
  if arguments.isEmpty then
    let found := scan tree settings.directory settings.config.includes settings.config.ignores
    .ok (found.files, found.warnings)
  else do
    let files ← arguments.mapM (filesOfArgument tree working settings.config.ignores)
    return (distinctPaths files.flatten, [])

def targetOf (working : Path) (arguments : TransformArguments) (count : Nat) :
    Except RunError Target :=
  match arguments.outDirectory with
  | some directory => .ok (.mirror (working.join (Path.ofString directory)))
  | none =>
    if arguments.write then .ok .inPlace
    else if count = 1 then .ok .output
    else .error (.severalFiles count)

structure Plan where
  working : Path
  config : Config
  translator : Translator
  target : Target
  deriving Repr, Inhabited

namespace Plan

def options (plan : Plan) (path : Path) : Options where
  locale := plan.config.locale
  fallback := plan.config.fallback
  blockName := plan.config.blockName
  removeBlock := plan.config.removeBlock
  onMissing := plan.config.onMissing
  file := (seenFrom plan.working path).text

def mirrored (plan : Plan) (directory path : Path) : Path :=
  let relative := seenFrom plan.working path
  directory.join ((relative.below? .root).getD relative)

def writeUnder (tree : Tree) (path : Path) (text : String) : Except FileFailure Tree :=
  let directory := path.parent?.getD .root
  match tree.makeDirectories directory with
  | .error error => .error (.noDirectory directory error)
  | .ok tree =>
    match tree.write path text with
    | .error error => .error (.unwritable path error)
    | .ok tree => .ok tree

/-- Put the code of a file where it goes. A file that is to be written in place and stays the same
is not written. -/
def store (plan : Plan) (tree : Tree) (path : Path) (source code : String) :
    Except FileFailure Tree :=
  match plan.target with
  | .output => .ok tree
  | .inPlace =>
    if code = source then .ok tree
    else
      match tree.write path code with
      | .error error => .error (.unwritable path error)
      | .ok tree => .ok tree
  | .mirror directory => writeUnder tree (plan.mirrored directory path) code

def transformFile (plan : Plan) (tree : Tree) (path : Path) : Except FileFailure (Output × Tree) :=
  match tree.read path with
  | .error error => .error (.unreadable path error)
  | .ok source =>
    match Component.transformComponent source.toList (plan.options path) plan.translator with
    | .error error => .error (.transform error)
    | .ok output => (plan.store tree path source output.code).map fun tree => (output, tree)

structure FileResult where
  path : Path
  result : Except FileFailure Output
  deriving Repr

/-- Transform some files one after the other. -/
def transformFiles (plan : Plan) (tree : Tree) : List Path → List FileResult × Tree
  | [] => ([], tree)
  | path :: paths =>
    match plan.transformFile tree path with
    | .error failure =>
      let (results, tree) := transformFiles plan tree paths
      (⟨path, .error failure⟩ :: results, tree)
    | .ok (output, tree) =>
      let (results, tree) := transformFiles plan tree paths
      (⟨path, .ok output⟩ :: results, tree)

def resultLines (plan : Plan) (verbose : Bool) (file : FileResult) : List String :=
  let name := (seenFrom plan.working file.path).text
  match file.result with
  | .ok output =>
    if verbose then
      ["Transformed " ++ name ++ " (" ++ toString output.translated ++ " translated)"]
    else []
  | .error failure => ["error: could not transform " ++ name, "  = " ++ failure.message]

end Plan

def outputsOf (results : List Plan.FileResult) : List Output :=
  results.filterMap fun file => file.result.toOption

def closingLine (results : List Plan.FileResult) : String :=
  let outputs := outputsOf results
  let failed := results.length - outputs.length
  let translated := outputs.foldl (fun total output => total + output.translated) 0
  if failed > 0 then
    Report.failureMark ++ " " ++ toString failed ++ " " ++ plural failed "file" "files" ++ " failed"
  else
    Report.successMark ++ " Transformed " ++ toString results.length ++ " " ++
      plural results.length "file" "files" ++ " (" ++ toString translated ++ " " ++
      plural translated "translation" "translations" ++ ")"

def Plan.run (plan : Plan) (tree : Tree) (arguments : TransformArguments) (files : List Path)
    (loadIssues : List Issue) : Outcome :=
  let (results, tree) := plan.transformFiles tree files
  let outputs := outputsOf results
  let issues := (if arguments.verbose then loadIssues else []) ++ outputs.flatMap (·.issues)
  let failed := outputs.length < results.length
  {
    status := if failed || (arguments.strict && !issues.isEmpty) then .failure else .success
    output := if plan.target = .output then String.join (outputs.map (·.code)) else ""
    messages := lines
      (results.flatMap (plan.resultLines arguments.verbose) ++ Report.display issues ++
        [closingLine results])
    tree := tree
  }

/-- What a run does: the files are selected and their target is known. -/
structure Selection where
  files : List Path
  warnings : List ScanWarning
  loadIssues : List Issue
  translator : Translator
  settings : Settings
  deriving Repr, Inhabited

def messagesRootOf (working : Path) (settings : Settings) (arguments : TransformArguments) : Path :=
  match arguments.messagesRoot with
  | some path => working.join (Path.ofString path)
  | none => settings.directory.join (Path.ofString settings.config.messagesRoot)

/-- Read the configuration and the messages, and select the files. -/
def prepare (tree : Tree) (working : Path) (arguments : TransformArguments) :
    Except RunError Selection := do
  let loaded ← (loadSettings tree working).mapError .settings
  let config := applyArguments loaded.config arguments
  let settings : Settings := ⟨config, loaded.directory⟩
  config.validate.mapError .config
  let messagesRoot := messagesRootOf working settings arguments
  let (source, loadIssues) ←
    (loadMessages tree messagesRoot config.format config.isolating).mapError .messages
  let (files, warnings) ← selectFiles tree working settings arguments.paths
  return ⟨files, warnings, loadIssues, ⟨source, config.functions⟩, settings⟩

def warningLine (message : String) : String :=
  "warning: " ++ message

def failedRun (tree : Tree) (warnings : List String) (error : RunError) : Outcome :=
  ⟨.error, "", lines (warnings ++ ["Error: " ++ error.message]), tree⟩

/-- Transform the files that the arguments stand for. -/
def transform (tree : Tree) (working : Path) (arguments : TransformArguments) : Outcome :=
  match prepare tree working arguments with
  | .error error => failedRun tree [] error
  | .ok selection =>
    let warnings :=
      if arguments.verbose then selection.warnings.map fun warning => warningLine warning.message
      else []
    if selection.files.isEmpty then
      ⟨.success, "", lines (warnings ++ [warningLine "No component files found"]), tree⟩
    else
      match targetOf working arguments selection.files.length with
      | .error error => failedRun tree warnings error
      | .ok target =>
        let plan : Plan := ⟨working, selection.settings.config, selection.translator, target⟩
        let outcome := plan.run tree arguments selection.files selection.loadIssues
        { outcome with messages := lines warnings ++ outcome.messages }

end TemplateMessages.Command
