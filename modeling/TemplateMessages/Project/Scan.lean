import TemplateMessages.Files.Search

set_option autoImplicit false

/-!
# Finding component files

A scan collects the component files under a directory. Includes narrow it to some of the
directories, and ignores leave paths out again.
-/

namespace TemplateMessages.Project

open TemplateMessages.Files

def isComponentFile (path : Path) : Bool :=
  path.extension? = some "vue"

inductive Ignore where
  | below (path : Path)
  | wild (pattern : Pattern)
  deriving DecidableEq, Repr, Inhabited

def Ignore.covers (ignore : Ignore) (path : Path) : Bool :=
  match ignore with
  | below directory => path.isBelow directory
  | wild pattern => pattern.isMatch path.text

def Ignore.ofEntry (base : Path) (entry : String) : Except PatternError Ignore :=
  if Pattern.isWild entry then (Pattern.parse entry).map .wild
  else .ok (.below (base.join (Path.ofString entry)))

inductive ScanWarning where
  | invalidIgnore (entry : String) (error : PatternError)
  | invalidInclude (entry : String) (error : PatternError)
  | missingInclude (path : Path)
  deriving DecidableEq, Repr, Inhabited

def ScanWarning.message : ScanWarning → String
  | invalidIgnore entry error => "Invalid ignore pattern '" ++ entry ++ "': " ++ error.message
  | invalidInclude entry error => "Invalid glob pattern '" ++ entry ++ "': " ++ error.message
  | missingInclude path => "Include path does not exist: " ++ path.text

/-- Collect what is sound among some results, and what is not. -/
def partitionResults {ε α : Type} : List (Except ε α) → List ε × List α
  | [] => ([], [])
  | .ok value :: results =>
    ((partitionResults results).1, value :: (partitionResults results).2)
  | .error error :: results =>
    (error :: (partitionResults results).1, (partitionResults results).2)

def readIgnores (base : Path) (entries : List String) : List ScanWarning × List Ignore :=
  partitionResults (entries.map fun entry =>
    match Ignore.ofEntry base entry with
    | .ok ignore => .ok ignore
    | .error error => .error (.invalidIgnore entry error))

def includedPaths (tree : Tree) (base : Path) (entry : String) : Except ScanWarning (List Path) :=
  let path := base.join (Path.ofString entry)
  if Pattern.isWild entry then
    match tree.search path with
    | .ok paths => .ok paths
    | .error error => .error (.invalidInclude entry error)
  else if tree.contains path then .ok [path]
  else .error (.missingInclude path)

/-- The paths where a scan starts: `base` itself when nothing is included. -/
def startPaths (tree : Tree) (base : Path) (includes : List String) :
    List ScanWarning × List Path :=
  if includes.isEmpty then ([], [base])
  else
    let (warnings, paths) := partitionResults (includes.map (includedPaths tree base))
    (warnings, paths.flatten)

def filesFrom (tree : Tree) (path : Path) : List Path :=
  match tree.locate path with
  | .error _ => []
  | .ok place =>
    match tree.entry place with
    | .file _ => [path]
    | .directory => (tree.filesBelow place).map fun way => path.join ⟨way⟩
    | .missing => []

structure Scan where
  /-- In the order of their texts, each text once. -/
  files : List Path
  warnings : List ScanWarning
  deriving Repr, Inhabited

def sortedPaths (paths : List Path) : List Path :=
  (paths.mergeSort fun a b => a.text ≤ b.text).eraseReps

/-- Scan a directory. -/
def scan (tree : Tree) (base : Path) (includes ignores : List String) : Scan :=
  let (ignoreWarnings, ignores) := readIgnores base ignores
  let (includeWarnings, starts) := startPaths tree base includes
  let found := (starts.flatMap (filesFrom tree)).filter fun path =>
    isComponentFile path && !ignores.any (·.covers path)
  ⟨sortedPaths found, ignoreWarnings ++ includeWarnings⟩

end TemplateMessages.Project
