import TemplateMessages.Files.Path

set_option autoImplicit false

/-!
# File trees

A tree holds files and directories by their place, which is the list of names from the root. A path
is followed part by part; each part needs the directory in front of it. Of permissions only one is
known, that a file is not to be written over; a write is carried out or leaves the tree as it was.
-/

namespace TemplateMessages.Files

/-- The names on the way from the root. -/
abbrev Place := List String

inductive Content where
  | text (value : String)
  /-- A text that may be read but not be written over. -/
  | readOnly (value : String)
  | binary
  deriving DecidableEq, Repr, Inhabited

inductive FileError where
  | notFound
  | denied
  | alreadyExists
  | notDirectory
  | isDirectory
  | notText
  deriving DecidableEq, Repr, Inhabited

def FileError.message : FileError → String
  | notFound => "No such file or directory (os error 2)"
  | denied => "Permission denied (os error 13)"
  | alreadyExists => "File exists (os error 17)"
  | notDirectory => "Not a directory (os error 20)"
  | isDirectory => "Is a directory (os error 21)"
  | notText => "stream did not contain valid UTF-8"

def Content.read : Content → Except FileError String
  | text value => .ok value
  | readOnly value => .ok value
  | binary => .error .notText

/-- What a file holds when a text has been written over it. -/
def Content.replace (content : Content) (text : String) : Except FileError Content :=
  match content with
  | readOnly _ => .error .denied
  | _ => .ok (.text text)

structure Tree where
  files : List (Place × Content)
  /-- Directories; those that hold something need not be listed. -/
  directories : List Place
  deriving Repr, Inhabited

inductive Entry where
  | file (content : Content)
  | directory
  | missing
  deriving DecidableEq, Repr, Inhabited

namespace Tree

def empty : Tree := ⟨[], []⟩

def places (tree : Tree) : List Place :=
  tree.files.map (·.1) ++ tree.directories

def hasDirectory (tree : Tree) (place : Place) : Bool :=
  place.isEmpty || tree.directories.any (place.isPrefixOf ·) ||
    tree.files.any fun file => place.isPrefixOf file.1 && place != file.1

def entry (tree : Tree) (place : Place) : Entry :=
  match tree.files.find? (·.1 == place) with
  | some file => .file file.2
  | none => if tree.hasDirectory place then .directory else .missing

def putFile (tree : Tree) (place : Place) (content : Content) : Tree :=
  { tree with files := tree.files.filter (·.1 != place) ++ [(place, content)] }

def putDirectory (tree : Tree) (place : Place) : Tree :=
  { tree with directories := tree.directories ++ [place] }

def follow (tree : Tree) (place : Place) : List String → Except FileError Place
  | [] => .ok place
  | part :: parts =>
    match tree.entry place with
    | .missing => .error .notFound
    | .file _ => .error .notDirectory
    | .directory =>
      if isSilent part then follow tree place parts
      else if part = ".." then follow tree place.dropLast parts
      else follow tree (place ++ [part]) parts

/-- The place of an absolute path. There may be nothing at it, but its directory is there. -/
def locate (tree : Tree) (path : Path) : Except FileError Place :=
  tree.follow [] path.parts

/-- What an absolute path leads to. -/
def lookUp (tree : Tree) (path : Path) : Entry :=
  match tree.locate path with
  | .ok place => tree.entry place
  | .error _ => .missing

def contains (tree : Tree) (path : Path) : Bool :=
  tree.lookUp path != .missing

def isDirectory (tree : Tree) (path : Path) : Bool :=
  tree.lookUp path == .directory

def isFile (tree : Tree) (path : Path) : Bool :=
  match tree.lookUp path with
  | .file _ => true
  | _ => false

def read (tree : Tree) (path : Path) : Except FileError String := do
  match tree.entry (← tree.locate path) with
  | .file content => content.read
  | .directory => .error .isDirectory
  | .missing => .error .notFound

/-- Put a text into a file, which is new or has its content replaced. -/
def write (tree : Tree) (path : Path) (text : String) : Except FileError Tree := do
  let place ← tree.locate path
  match tree.entry place with
  | .directory => .error .isDirectory
  | .file content => (content.replace text).map (tree.putFile place)
  | .missing => .ok (tree.putFile place (.text text))

def makeDirectory (tree : Tree) (path : Path) : Except FileError Tree := do
  let place ← tree.locate path
  match tree.entry place with
  | .missing => .ok (tree.putDirectory place)
  | _ => .error .alreadyExists

/-- Make the first of some directories, each lying in the next one, with those around it that are
missing. -/
def makeLineage (tree : Tree) : List Path → Except FileError Tree
  | [] => .error .notFound
  | path :: around =>
    let make (tree : Tree) : Except FileError Tree :=
      match tree.makeDirectory path with
      | .ok tree => .ok tree
      | .error error => if tree.isDirectory path then .ok tree else .error error
    match make tree with
    | .error .notFound => (makeLineage tree around).bind make
    | result => result

def makeDirectories (tree : Tree) (path : Path) : Except FileError Tree :=
  tree.makeLineage path.lineage

def behind? (place inner : Place) : Option Place :=
  if place.isPrefixOf inner && place != inner then some (inner.drop place.length) else none

def filesBelow (tree : Tree) (place : Place) : List Place :=
  tree.files.filterMap fun file => behind? place file.1

def allBelow (tree : Tree) (place : Place) : List Place :=
  ((tree.places.filterMap (behind? place)).flatMap beginnings).eraseDups

def names (tree : Tree) (place : Place) : List String :=
  ((tree.places.filterMap (behind? place)).filterMap List.head?).eraseDups

end Tree

end TemplateMessages.Files
