import TemplateMessages.Expression.Literal
import TemplateMessages.Expression.Quoted
import TemplateMessages.Text.Blank
import TemplateMessages.Translation.Error

set_option autoImplicit false

/-!
# Messages with placeholders

A message is a sequence of texts and placeholders such as `{name}`. With constant params the
placeholders become their values; with other params they become code that looks the values up when
the template renders.
-/

namespace TemplateMessages.Catalog

open TemplateMessages.Expression (Literal quoted quotedChars)
open TemplateMessages.Text
open TemplateMessages.Translation (TranslationError)

inductive Part where
  | text (chars : List Char)
  | placeholder (name : List Char)
  deriving DecidableEq, Repr, Inhabited

def isPlaceholderChar (c : Char) : Bool :=
  c != '{' && c != '}' && !isBlank c

def readPlaceholder? (text : List Char) : Option (List Char × List Char) :=
  let start := skipBlanks text
  let name := start.takeWhile isPlaceholderChar
  match name, skipBlanks (start.dropWhile isPlaceholderChar) with
  | _ :: _, '}' :: rest => some (name, rest)
  | _, _ => none

theorem length_lt_of_readPlaceholder? {text name rest : List Char}
    (h : readPlaceholder? text = some (name, rest)) : rest.length < text.length := by
  unfold readPlaceholder? at h
  dsimp only at h
  split at h
  · rename_i after _ hskip
    simp only [Option.some.injEq, Prod.mk.injEq] at h
    obtain ⟨_, rfl⟩ := h
    have h₁ := length_skipBlanks_le text
    have h₂ := (List.dropWhile_sublist isPlaceholderChar (l := skipBlanks text)).length_le
    have h₃ := length_skipBlanks_le ((skipBlanks text).dropWhile isPlaceholderChar)
    rw [hskip, List.length_cons] at h₃
    omega
  · simp at h

def consText (c : Char) : List Part → List Part
  | .text chars :: parts => .text (c :: chars) :: parts
  | parts => .text [c] :: parts

def parts (message : List Char) : List Part :=
  match message with
  | [] => []
  | c :: cs =>
    if c = '{' then
      match h : readPlaceholder? cs with
      | some (name, rest) =>
        have := length_lt_of_readPlaceholder? h
        .placeholder name :: parts rest
      | none => consText c (parts cs)
    else consText c (parts cs)
termination_by message.length
decreasing_by all_goals simp only [List.length_cons]; omega

def firstPlaceholder? (parts : List Part) : Option String :=
  parts.findSome? fun
    | .placeholder name => some (String.ofList name)
    | .text _ => none

/-- The message with a value for every placeholder; `null` and `undefined` are no values. -/
def substitute (parts : List Part) (key : String) (values : Literal) :
    Except TranslationError String :=
  match parts with
  | [] => .ok ""
  | .text chars :: parts => (substitute parts key values).map (String.ofList chars ++ ·)
  | .placeholder name :: parts =>
    match values.get? (String.ofList name) with
    | none => .error (.missingVariable (String.ofList name) key)
    | some .undefined => .error (.missingVariable (String.ofList name) key)
    | some .null => .error (.missingVariable (String.ofList name) key)
    | some value => (substitute parts key values).map (value.text ++ ·)

def Part.operand : Part → String
  | text chars => quoted (String.ofList chars)
  | placeholder name =>
    let value := "p[" ++ quoted (String.ofList name) ++ "]"
    "(" ++ value ++ " == null ? '' : " ++ value ++ ")"

def operands (parts : List Part) : List String :=
  match parts with
  | .text chars :: part :: parts =>
    Part.operand (.text chars) :: part.operand :: parts.map Part.operand
  | parts => "''" :: parts.map Part.operand

/-- The call of a function that fills the placeholders in from the params. -/
def runtimeCode (parts : List Part) (params : String) : String :=
  "(function(p)\x7breturn " ++ " + ".intercalate (operands parts) ++ ";\x7d)(" ++ params ++ ")"

end TemplateMessages.Catalog
