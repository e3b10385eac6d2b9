import TemplateMessages.Command.Reach

set_option autoImplicit false

/-!
# The program

The program takes a picture of the files that a command looks at, runs the command on it, and writes
the files that have changed.
-/

namespace TemplateMessages.Program

open TemplateMessages.Command
open TemplateMessages.Files

def pathText (place : Place) : String :=
  "/" ++ String.intercalate "/" place

def isDirectory (place : Place) : IO Bool := do
  let start ← IO.currentDir
  (start / pathText place).isDir

def isPresent (place : Place) : IO Bool := do
  let start ← IO.currentDir
  (start / pathText place).pathExists

def namesIn (place : Place) : IO (List String) := do
  let start ← IO.currentDir
  return (← (start / pathText place).readDir).toList.map (·.fileName)

def isWritable (place : Place) : IO Bool := do
  try
    let _ ← IO.FS.Handle.mk (pathText place) .readWrite
    return true
  catch _ => return false

def contentAt (place : Place) : IO Content := do
  match String.fromUTF8? (← IO.FS.readBinFile (pathText place)) with
  | some text => return if ← isWritable place then .text text else .readOnly text
  | none => return .binary

/-- The extensions of the files that a command may read without being told their names. -/
def readExtensions : List String := ["vue", "json", "ftl"]

def addFile (tree : Tree) (place : Place) (content : Content) : Tree :=
  { tree with files := (place, content) :: tree.files }

/-- Add what is at a place and below it. The content of a file that nothing reads is left out. -/
partial def addBelow (named : Bool) (tree : Tree) (place : Place) : IO Tree := do
  if ← isDirectory place then
    let names ← namesIn place
    names.foldlM (fun tree name => addBelow false tree (place ++ [name])) (tree.putDirectory place)
  else if ← isPresent place then
    let isRead := named || ((Path.splitName (place.getLastD "")).2).any readExtensions.contains
    return addFile tree place (← if isRead then contentAt place else pure .binary)
  else return tree

def surroundings (working : Path) : IO Tree := do
  let marked ← (markPaths working).foldlM (fun tree path => do
    return if ← isPresent path.place then tree.putDirectory path.place else tree) Tree.empty
  (configPaths working).foldlM (fun tree path => addBelow true tree path.place)
    (marked.putDirectory working.place)

def writeText (place : Place) (text : String) : IO Unit := do
  IO.FS.createDirAll (pathText place.dropLast)
  IO.FS.writeFile (pathText place) text

/-- Run a command in the current directory. -/
def run (request : Request) : IO UInt32 := do
  let working := Path.ofString (← IO.currentDir).toString
  let around ← surroundings working
  let places := outermost ((request.reach around working).map Path.place)
  let apart := { around with
    files := around.files.filter fun file =>
      places.all fun place => !place.isPrefixOf file.1 }
  let tree ← places.foldlM (addBelow true) apart
  let outcome := request.run tree working
  IO.print outcome.output
  IO.eprint outcome.messages
  for (place, text) in changedTexts tree outcome.tree do
    writeText place text
  return UInt32.ofNat outcome.status.code

def explain (usage : Usage) : IO UInt32 := do
  match usage with
  | .help =>
    IO.print helpScreen
    return 0
  | .version =>
    IO.println versionLine
    return 0
  | _ =>
    IO.eprintln ("error: " ++ usage.message)
    return 2

end TemplateMessages.Program

open TemplateMessages

def main (arguments : List String) : IO UInt32 := do
  match Command.Request.parse arguments with
  | .ok request => Program.run request
  | .error usage => Program.explain usage
