import TemplateMessages.Text.Rest

set_option autoImplicit false

/-!
# Patterns of paths

In a pattern a star stands for any text, slashes included, and a question mark for any character.
Brackets stand for one character of a class, and two stars, which fill a whole part of the path, for
any number of directories. Every other character stands for itself.
-/

namespace TemplateMessages.Files

open TemplateMessages.Text (Shorter)

structure CharRange where
  first : Char
  last : Char
  deriving DecidableEq, Repr, Inhabited

def CharRange.holds (range : CharRange) (c : Char) : Bool :=
  range.first ≤ c && c ≤ range.last

inductive PatternToken where
  | char (c : Char)
  | anyChar
  /-- A character in one of the ranges or, when excluded, in none of them. -/
  | oneOf (excluded : Bool) (ranges : List CharRange)
  | anyText
  | anyDirectories
  deriving DecidableEq, Repr, Inhabited

inductive PatternFault where
  | tooManyStars
  | directoriesNotAlone
  | unfinishedClass
  deriving DecidableEq, Repr, Inhabited

def PatternFault.message : PatternFault → String
  | tooManyStars => "wildcards are either regular `*` or recursive `**`"
  | directoriesNotAlone => "recursive wildcards must form a single path component"
  | unfinishedClass => "invalid range pattern"

structure PatternError where
  position : Nat
  fault : PatternFault
  deriving DecidableEq, Repr, Inhabited

def PatternError.message (error : PatternError) : String :=
  "Pattern syntax error near position " ++ toString error.position ++ ": " ++ error.fault.message

structure Pattern where
  tokens : List PatternToken
  deriving DecidableEq, Repr, Inhabited

namespace Pattern

def rangesOf : List Char → List CharRange
  | first :: '-' :: last :: cs => ⟨first, last⟩ :: rangesOf cs
  | c :: cs => ⟨c, c⟩ :: rangesOf cs
  | [] => []

/-- The text up to a closing bracket and the rest behind it, which is shorter. -/
def breakAtBracket (text : List Char) : Option (List Char × Shorter text) :=
  match text with
  | [] => none
  | c :: cs =>
    if c = ']' then some ([], .tail c cs)
    else (breakAtBracket cs).map fun (inside, rest) => (c :: inside, rest.past c)

/-- A class behind its opening bracket. The first character of a class may be a closing bracket. -/
def readClass (text : List Char) : Option (PatternToken × Shorter text) :=
  match text with
  | '!' :: first :: cs =>
    (breakAtBracket cs).map fun (inside, rest) =>
      (.oneOf true (rangesOf (first :: inside)), (rest.past first).past '!')
  | '!' :: [] => none
  | first :: cs =>
    (breakAtBracket cs).map fun (inside, rest) =>
      (.oneOf false (rangesOf (first :: inside)), rest.past first)
  | [] => none

/-- The tokens of a text that has `position` characters in front, the last of which is `before`. -/
def readTokens (position : Nat) (before : Option Char) (text : List Char) :
    Except PatternError (List PatternToken) :=
  match text with
  | [] => .ok []
  | '?' :: cs => (readTokens (position + 1) (some '?') cs).map (.anyChar :: ·)
  | '*' :: '*' :: '*' :: _ => .error ⟨position + 2, .tooManyStars⟩
  | '*' :: '*' :: cs =>
    if before.all (· = '/') then
      match cs with
      | [] => .ok [.anyDirectories]
      | c :: cs =>
        if c = '/' then (readTokens (position + 3) (some '/') cs).map (.anyDirectories :: ·)
        else .error ⟨position + 2, .directoriesNotAlone⟩
    else .error ⟨position - 1, .directoriesNotAlone⟩
  | '*' :: cs => (readTokens (position + 1) (some '*') cs).map (.anyText :: ·)
  | '[' :: cs =>
    match readClass cs with
    | none => .error ⟨position, .unfinishedClass⟩
    | some (token, ⟨rest, _⟩) =>
      (readTokens (position + 1 + (cs.length - rest.length)) (some ']') rest).map (token :: ·)
  | c :: cs => (readTokens (position + 1) (some c) cs).map (.char c :: ·)
termination_by text.length
decreasing_by all_goals simp only [List.length_cons]; omega

def parse (text : String) : Except PatternError Pattern :=
  (readTokens 0 none text.toList).map (⟨·⟩)

/-- Has a wildcard. A text without one names a path as it is, brackets included. -/
def isWild (text : String) : Bool :=
  text.toList.any fun c => c = '*' || c = '?'

def ends : List Char → List (List Char)
  | [] => [[]]
  | c :: cs => (c :: cs) :: ends cs

def endsBehindSlash : List Char → List (List Char)
  | [] => []
  | c :: cs => if c = '/' then cs :: endsBehindSlash cs else endsBehindSlash cs

def accepts (token : PatternToken) (c : Char) : Bool :=
  match token with
  | .char d => c = d
  | .anyChar => true
  | .oneOf excluded ranges => (ranges.any (·.holds c)) != excluded
  | .anyText => false
  | .anyDirectories => false

def tokensMatch : List PatternToken → List Char → Bool
  | [], text => text.isEmpty
  | .anyText :: tokens, text => (ends text).any (tokensMatch tokens)
  | .anyDirectories :: tokens, text =>
    (text :: endsBehindSlash text ++ [[]]).any (tokensMatch tokens)
  | token :: tokens, text =>
    match text with
    | [] => false
    | c :: cs => accepts token c && tokensMatch tokens cs

def isMatch (pattern : Pattern) (text : String) : Bool :=
  tokensMatch pattern.tokens text.toList

def literal? (pattern : Pattern) : Option String :=
  (pattern.tokens.mapM fun (token : PatternToken) =>
    match token with
    | .char c => some c
    | _ => none).map String.ofList

end Pattern

end TemplateMessages.Files
