set_option autoImplicit false

/-!
# Locale identifiers

A locale identifier is a sequence of subtags with hyphens between them: a language, perhaps a
script, a region and variants, and then extensions, each behind a single letter or digit. What
counts for plural rules is the language, the script and the region, which a subdivision of it may
name as well; the rest is only checked.
-/

namespace TemplateMessages.Plural

structure Locale where
  language : String
  script : Option String
  region : Option String
  deriving DecidableEq, Repr, Inhabited

namespace Subtag

def split : List Char → List (List Char)
  | [] => [[]]
  | c :: cs =>
    if c = '-' then [] :: split cs
    else
      match split cs with
      | [] => [[c]]
      | subtag :: subtags => (c :: subtag) :: subtags

def lower (subtag : List Char) : List Char :=
  subtag.map Char.toLower

def isAlphanumeric (low high : Nat) (subtag : List Char) : Bool :=
  low ≤ subtag.length && subtag.length ≤ high && subtag.all Char.isAlphanum

def isLanguage (subtag : List Char) : Bool :=
  (subtag.length == 2 || subtag.length == 3) && subtag.all Char.isAlpha

def isScript (subtag : List Char) : Bool :=
  subtag.length == 4 && subtag.all Char.isAlpha

def isRegion (subtag : List Char) : Bool :=
  (subtag.length == 2 && subtag.all Char.isAlpha) || (subtag.length == 3 && subtag.all Char.isDigit)

def isVariant (subtag : List Char) : Bool :=
  isAlphanumeric 5 8 subtag || (isAlphanumeric 4 4 subtag && subtag.head?.any Char.isDigit)

def isKey : List Char → Bool
  | [a, b] => a.isAlphanum && b.isAlpha
  | _ => false

def isFieldKey : List Char → Bool
  | [a, b] => a.isAlpha && b.isDigit
  | _ => false

def isValue (subtag : List Char) : Bool :=
  isAlphanumeric 3 8 subtag

def titleCase (subtag : List Char) : String :=
  match subtag with
  | [] => ""
  | c :: cs => String.ofList (c.toUpper :: cs.map Char.toLower)

end Subtag

open Subtag

def readVariants? (seen : List (List Char)) : List (List Char) → Option (List (List Char))
  | [] => some []
  | subtag :: rest =>
    if isVariant subtag then
      if seen.contains (lower subtag) then none else readVariants? (lower subtag :: seen) rest
    else some (subtag :: rest)

def readScriptAndRegion (subtags : List (List Char)) :
    Option String × Option String × List (List Char) :=
  let (script, rest) :=
    match subtags with
    | [] => (none, [])
    | subtag :: rest =>
      if isScript subtag then (some (titleCase subtag), rest) else (none, subtag :: rest)
  match rest with
  | [] => (script, none, [])
  | subtag :: rest =>
    if isRegion subtag then (script, some (String.ofList (subtag.map Char.toUpper)), rest)
    else (script, none, subtag :: rest)

def readKeywords? : List (List Char) → Option (List (List Char) × List (List Char))
  | [] => some ([], [])
  | subtag :: rest =>
    if isKey subtag || isValue subtag then
      (readKeywords? rest).map fun (keywords, rest) => (lower subtag :: keywords, rest)
    else if subtag.length = 2 then none
    else some ([], subtag :: rest)

/-- A Unicode extension holds attributes, none of them twice, and then keywords; these are given
with the subtags behind them. -/
def readUnicodeExtension? (seen : List (List Char)) : List (List Char) →
    Option (List (List Char) × List (List Char))
  | [] => if seen.isEmpty then none else some ([], [])
  | subtag :: rest =>
    if isValue subtag then
      if seen.contains (lower subtag) then none
      else readUnicodeExtension? (lower subtag :: seen) rest
    else if subtag.length = 2 then readKeywords? (subtag :: rest)
    else if seen.isEmpty then none
    else some ([], subtag :: rest)

/-- The values of the first keyword with a key; the value `true` says no more than the key. -/
def keywordValues (key : List Char) (keywords : List (List Char)) : List (List Char) :=
  (((keywords.dropWhile (· != key)).drop 1).takeWhile isValue).filter (· != "true".toList)

def subdivisionRegion? (subdivision : List Char) : Option String :=
  let size := if subdivision.head?.any Char.isDigit then 3 else 2
  let region := subdivision.take size
  if isRegion region && isAlphanumeric 1 4 (subdivision.drop size) then
    some (String.ofList (region.map Char.toUpper))
  else none

def keywordRegion? (keywords : List (List Char)) : Option String :=
  match keywordValues ['s', 'd'] keywords with
  | [subdivision] => subdivisionRegion? subdivision
  | _ => none

def readFields? (inField needsValue : Bool) : List (List Char) → Option (List (List Char))
  | [] => if needsValue then none else some []
  | subtag :: rest =>
    if inField && isValue subtag then readFields? true false rest
    else if needsValue then none
    else if isFieldKey subtag then readFields? true true rest
    else some (subtag :: rest)

def readTransformExtension? : List (List Char) → Option (List (List Char))
  | [] => none
  | subtag :: rest =>
    if isLanguage subtag then do
      let (_, _, rest) := readScriptAndRegion rest
      let rest ← readVariants? [] rest
      readFields? false false rest
    else if isFieldKey subtag then readFields? true true rest
    else none

/-- Whether a subtag is short enough to belong to an extension, be it well formed or not. -/
def fitsExtension (subtag : List Char) : Bool :=
  let size := (String.ofList subtag).utf8ByteSize
  2 ≤ size && size ≤ 8

def readOtherExtension? (subtags : List (List Char)) : Option (List (List Char)) :=
  if (subtags.takeWhile fitsExtension).any (isAlphanumeric 2 8) then
    some (subtags.dropWhile fitsExtension)
  else none

/-- One extension behind its letter or digit, which has to be new: the region that it names, if any,
and the subtags behind it. An `x` takes all that follows. -/
def readExtension? (seen : List Char) (singleton : Char) (subtags : List (List Char)) :
    Option (Option String × List (List Char)) :=
  if seen.contains singleton || !singleton.isAlphanum then none
  else if singleton = 'u' then
    (readUnicodeExtension? [] subtags).map fun (keywords, rest) => (keywordRegion? keywords, rest)
  else if singleton = 't' then (readTransformExtension? subtags).map (none, ·)
  else if singleton = 'x' then
    if !subtags.isEmpty && subtags.all (isAlphanumeric 1 8) then some (none, []) else none
  else (readOtherExtension? subtags).map (none, ·)

/-- The region that the extensions behind the language part name, if any; nothing when they are not
well formed. Each one takes at least its letter, so as many rounds as there are subtags are
enough. -/
def readExtensions? (seen : List Char) : Nat → List (List Char) → Option (Option String)
  | _, [] => some none
  | 0, _ => none
  | rounds + 1, [c] :: rest =>
    match readExtension? seen c.toLower rest with
    | none => none
    | some (region, rest) =>
      (readExtensions? (c.toLower :: seen) rounds rest).map fun other => region <|> other
  | _ + 1, _ :: _ => none

def Locale.ofText? (text : String) : Option Locale :=
  match split text.toList with
  | [] => none
  | language :: subtags =>
    if isLanguage language then do
      let (script, region, rest) := readScriptAndRegion subtags
      let extensions ← readVariants? [] rest
      let named ← readExtensions? [] extensions.length extensions
      some ⟨String.ofList (lower language), script, region <|> named⟩
    else none

end TemplateMessages.Plural
