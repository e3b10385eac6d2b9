import TemplateMessages.Command.Run

set_option autoImplicit false

/-!
# What a command looks at

A command never looks at more than the configuration files around the working directory and the
places below a few paths, which the configuration and the arguments name.
-/

namespace TemplateMessages.Command

open TemplateMessages.Files
open TemplateMessages.Project

/-- The path in front of the first part of a pattern that is not followed as it is. -/
def fixedPart (path : Path) : Path :=
  ⟨path.parts.takeWhile fun part => part.toList.all fun c => !(['*', '?', '['].contains c)⟩

def startOf (base : Path) (entry : String) : Path :=
  let path := base.join (Path.ofString entry)
  if Pattern.isWild entry then fixedPart path else path

def reachOf (working : Path) (settings : Settings) (arguments : TransformArguments) : List Path :=
  let starts :=
    if !arguments.paths.isEmpty then
      arguments.paths.map fun path => working.join (Path.ofString path)
    else if settings.config.includes.isEmpty then [settings.directory]
    else settings.config.includes.map (startOf settings.directory)
  let target := arguments.outDirectory.toList.map fun path => working.join (Path.ofString path)
  messagesRootOf working settings arguments :: starts ++ target

def configPaths (working : Path) : List Path :=
  working.lineage.map (·.joinName configName)

def markPaths (working : Path) : List Path :=
  working.lineage.map (·.joinName repositoryMark)

/-- The paths below which a command looks, in a working directory whose configuration files are in
`tree`. -/
def Request.reach (request : Request) (tree : Tree) (working : Path) : List Path :=
  match request with
  | .transform arguments =>
    match loadSettings tree working with
    | .ok settings =>
      reachOf working { settings with config := applyArguments settings.config arguments } arguments
    | .error _ => []
  | _ => []

def outermost (places : List Place) : List Place :=
  (places.filter fun place =>
    places.all fun other => (Tree.behind? other place).isNone).eraseDups

def changedTexts (before after : Tree) : List (Place × String) :=
  after.files.filterMap fun (place, content) =>
    match content with
    | .text text => if before.entry place = .file content then none else some (place, text)
    | _ => none

end TemplateMessages.Command
