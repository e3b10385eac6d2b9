import TemplateMessages.Files.Pattern
import TemplateMessages.Files.Tree

set_option autoImplicit false

/-!
# Searching by pattern

A pattern of an absolute path is searched for part by part. A part without wildcards is followed as
it is; any other one is compared with the names in a directory.
-/

namespace TemplateMessages.Files

inductive SearchStep where
  | follow (part : String)
  | inside (pattern : Pattern)
  | below (pattern : Pattern)
  | directoriesBelow
  deriving DecidableEq, Repr, Inhabited

namespace SearchStep

def ofPatterns : List Pattern → List SearchStep
  | [] => []
  | pattern :: patterns =>
    if pattern.tokens = [.anyDirectories] then
      match ofPatterns patterns, patterns with
      | _, [] => [.directoriesBelow]
      | steps, next :: _ =>
        if next.tokens = [.anyDirectories] then steps else .below next :: steps.tail
    else
      match pattern.literal? with
      | some part => .follow part :: ofPatterns patterns
      | none => .inside pattern :: ofPatterns patterns

/-- The parts of a path behind its first slash, a final slash making no part of its own. -/
def searchedParts (path : Path) : List String :=
  let parts := path.parts.tail
  if parts.getLast? = some "" then parts.dropLast else parts

/-- The steps of a pattern, which has to be sound as a whole and in each of its parts. -/
def ofPath (path : Path) : Except PatternError (List SearchStep) := do
  let _ ← Pattern.parse path.text
  return ofPatterns (← (searchedParts path).mapM Pattern.parse)

def entriesBelow (tree : Tree) (path : Path) : List Path :=
  match tree.locate path with
  | .error _ => []
  | .ok place => (tree.allBelow place).map fun way => path.join ⟨way⟩

def take (tree : Tree) (path : Path) : SearchStep → List Path
  | follow part =>
    let next := path.joinName part
    let found := if part = "." || part = ".." then tree.isDirectory path else tree.contains next
    if found then [next] else []
  | inside pattern =>
    match tree.locate path with
    | .error _ => []
    | .ok place =>
      if tree.isDirectory path then
        let points := if pattern.tokens.head? = some (.char '.') then [".", ".."] else []
        ((tree.names place ++ points).filter pattern.isMatch).map path.joinName
      else []
  | below pattern =>
    (entriesBelow tree path).filter fun entry => entry.parts.getLast?.any pattern.isMatch
  | directoriesBelow => (entriesBelow tree path).filter tree.isDirectory

def takeAll (tree : Tree) : List SearchStep → Path → List Path
  | [], path => [path]
  | step :: steps, path => (step.take tree path).flatMap (takeAll tree steps)

end SearchStep

def Tree.search (tree : Tree) (path : Path) : Except PatternError (List Path) := do
  let steps ← SearchStep.ofPath path
  return (SearchStep.takeAll tree steps .root).filter tree.isDirectory

end TemplateMessages.Files
