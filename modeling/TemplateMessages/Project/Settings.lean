import TemplateMessages.Files.Tree
import TemplateMessages.Project.Config
import TemplateMessages.Text.Shown

set_option autoImplicit false

/-!
# Settings

The configuration of a project is the nearest file of its name in the working directory or one
around it. The search does not leave a repository. Without a file the defaults hold and the project
is the working directory.
-/

namespace TemplateMessages.Project

open TemplateMessages.Files
open TemplateMessages.Json (FormError)
open TemplateMessages.Text (shownPath)

def configName : String := ".bakerc.json"

def repositoryMark : String := ".git"

inductive SettingsError where
  | unreadable (path : Path) (error : FileError)
  | malformed (path : Path) (error : FormError)
  | invalid (error : ConfigError)
  deriving Repr, Inhabited

def SettingsError.message : SettingsError → String
  | unreadable path error =>
    "Failed to read config file: " ++ shownPath path.text ++ ": " ++ error.message
  | malformed path error =>
    "Failed to parse config file: " ++ shownPath path.text ++ ": " ++ error.message
  | invalid error => error.message

/-- The first of some directories with a configuration file, unless one in front of it is the root
of a repository. -/
def configDirectory? (tree : Tree) : List Path → Option Path
  | [] => none
  | directory :: around =>
    if tree.contains (directory.joinName configName) then some directory
    else if tree.contains (directory.joinName repositoryMark) then none
    else configDirectory? tree around

structure Settings where
  config : Config
  directory : Path
  deriving Repr, Inhabited

def loadSettings (tree : Tree) (working : Path) : Except SettingsError Settings :=
  match configDirectory? tree working.lineage with
  | none => .ok ⟨.default, working⟩
  | some directory =>
    let path := directory.joinName configName
    match tree.read path with
    | .error error => .error (.unreadable path error)
    | .ok text =>
      match Config.parse text.toList with
      | .error error => .error (.malformed path error)
      | .ok config =>
        match config.validate with
        | .error error => .error (.invalid error)
        | .ok () => .ok ⟨config, directory⟩

end TemplateMessages.Project
