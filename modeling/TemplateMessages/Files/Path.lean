set_option autoImplicit false

/-!
# Paths

A path is kept as it is written, cut at its slashes, so that joining paths and showing them loses
nothing. Its components are what is left when empty parts and single points are passed over; two
paths with the same components name the same file.
-/

namespace TemplateMessages.Files

structure Path where
  parts : List String
  deriving DecidableEq, Repr, Inhabited

inductive Component where
  | root
  | here
  | up
  | name (value : String)
  deriving DecidableEq, Repr, Inhabited, Ord

def splitSlashes : List Char → List (List Char)
  | [] => [[]]
  | c :: cs =>
    if c = '/' then [] :: splitSlashes cs
    else
      match splitSlashes cs with
      | [] => [[c]]
      | part :: parts => (c :: part) :: parts

def isSilent (part : String) : Bool :=
  part = "" || part = "."

def dropSilentEnd (parts : List String) : List String :=
  (parts.reverse.dropWhile isSilent).reverse

def componentOf? (part : String) : Option Component :=
  if isSilent part then none else if part = ".." then some .up else some (.name part)

def beginnings {α : Type} : List α → List (List α)
  | [] => []
  | x :: xs => [x] :: (beginnings xs).map (x :: ·)

namespace Path

def ofString (text : String) : Path :=
  ⟨(splitSlashes text.toList).map String.ofList⟩

def text (path : Path) : String :=
  String.intercalate "/" path.parts

def root : Path := ⟨["", ""]⟩

def isAbsolute (path : Path) : Bool :=
  match path.parts with
  | "" :: _ :: _ => true
  | _ => false

def partsBeforeSlash (path : Path) : List String :=
  if path.parts.getLast? = some "" then path.parts.dropLast else path.parts

/-- A path as seen from `base`. An absolute one stays as it is. -/
def join (base path : Path) : Path :=
  if path.isAbsolute then path else ⟨base.partsBeforeSlash ++ path.parts⟩

def joinName (base : Path) (name : String) : Path :=
  ⟨base.partsBeforeSlash ++ [name]⟩

def components (path : Path) : List Component :=
  match path.parts with
  | [""] => []
  | "" :: parts => .root :: parts.filterMap componentOf?
  | "." :: parts => .here :: parts.filterMap componentOf?
  | parts => parts.filterMap componentOf?

/-- The order of paths: component by component, names by their characters. -/
def le (a b : Path) : Bool :=
  (compare a.components b.components).isLE

def fileName? (path : Path) : Option String :=
  match path.components.getLast? with
  | some (.name value) => some value
  | _ => none

def splitName (name : String) : String × Option String :=
  let back := name.toList.reverse
  match back.dropWhile (· ≠ '.') with
  | [] => (name, none)
  | _ :: stem =>
    if stem.isEmpty then (name, none)
    else (String.ofList stem.reverse, some (String.ofList (back.takeWhile (· ≠ '.')).reverse))

def stem? (path : Path) : Option String :=
  path.fileName?.map fun name => (splitName name).1

def extension? (path : Path) : Option String :=
  path.fileName?.bind fun name => (splitName name).2

def partsBehind? : List Component → List String → Option (List String)
  | [], parts => some parts
  | component :: components, parts =>
    match parts.dropWhile isSilent with
    | [] => none
    | part :: parts =>
      if componentOf? part = some component then partsBehind? components parts else none

/-- An absolute path as seen from an absolute directory that its components start with. -/
def below? (path directory : Path) : Option Path :=
  if path.isAbsolute && directory.isAbsolute then
    (partsBehind? directory.components.tail path.parts.tail).map fun parts =>
      match dropSilentEnd (parts.dropWhile isSilent) with
      | [] => ⟨[""]⟩
      | parts => ⟨parts⟩
  else none

/-- The components of `path` start with those of `directory`. -/
def isBelow (path directory : Path) : Bool :=
  directory.components.isPrefixOf path.components

def lineage (path : Path) : List Path :=
  let inner := (beginnings path.parts.tail).filter fun parts =>
    parts.getLast?.any fun part => !isSilent part
  (inner.map fun parts => ⟨"" :: parts⟩).reverse ++ [root]

def parent? (path : Path) : Option Path :=
  path.lineage[1]?

/-- The names that are left of an absolute path when two points take back the name in front. -/
def place (path : Path) : List String :=
  path.components.foldl
    (fun names component =>
      match component with
      | .name value => names ++ [value]
      | .up => names.dropLast
      | _ => names)
    []

end Path

end TemplateMessages.Files
