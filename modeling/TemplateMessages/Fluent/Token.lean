import TemplateMessages.Fluent.Fault
import TemplateMessages.Text.Rest

set_option autoImplicit false

/-!
# Tokens of Fluent resources

Blanks, names, numbers and string literals. Readers give the rest of the text with the proof that
it is shorter; where they fail they give the text they have got to.
-/

namespace TemplateMessages.Fluent

open TemplateMessages.Text (Rest Shorter)

/-- A fault and the text at which it was found. -/
structure Stop where
  fault : Fault
  rest : List Char
  deriving Repr, Inhabited

abbrev Reading (α : Type) (text : List Char) : Type :=
  Except Stop (α × Shorter text)

abbrev Following (α : Type) (text : List Char) : Type :=
  Except Stop (α × Rest text)

def isSpace (c : Char) : Bool :=
  c == ' '

def skipSpaces (text : List Char) : Rest text :=
  .dropWhile isSpace text

def lineBreak? : (text : List Char) → Option (Shorter text)
  | '\n' :: rest => some (.tail '\n' rest)
  | '\r' :: '\n' :: rest => some ((Shorter.tail '\n' rest).past '\r')
  | _ => none

/-- The text without the spaces and line breaks in front. -/
def skipBlank (text : List Char) : Rest text :=
  match text with
  | ' ' :: rest => (skipBlank rest).behind ' '
  | '\n' :: rest => (skipBlank rest).behind '\n'
  | '\r' :: '\n' :: rest => ((skipBlank rest).behind '\n').behind '\r'
  | rest => .whole rest

def blankLine? (text : List Char) : Option (Shorter text) :=
  let ⟨line, h⟩ := skipSpaces text
  (lineBreak? line).map fun rest => rest.within h

def skipBlankLines (text : List Char) : Rest text :=
  match blankLine? text with
  | none => .whole text
  | some ⟨rest, h⟩ => (Rest.inside (skipBlankLines rest) h).toRest
termination_by text.length
decreasing_by exact h

def expect (token : Char) (text : List Char) : Reading Unit text :=
  match text with
  | [] => .error ⟨.expectedToken token, []⟩
  | c :: rest =>
    if c = token then .ok ((), .tail c rest) else .error ⟨.expectedToken token, c :: rest⟩

/-- The text behind a character, when it starts with it. -/
def behind? (token : Char) (text : List Char) : Option (Shorter text) :=
  match text with
  | [] => none
  | c :: rest => if c = token then some (.tail c rest) else none

def behindArrow? : (text : List Char) → Option (Shorter text)
  | '-' :: '>' :: rest => some ((Shorter.tail '>' rest).past '-')
  | _ => none

def skipOptional (token : Char) (text : List Char) : Bool × Rest text :=
  match text with
  | [] => (false, .whole [])
  | c :: rest =>
    if c = token then (true, (Rest.whole rest).behind c) else (false, .whole (c :: rest))

def isIdentifierChar (c : Char) : Bool :=
  c.isAlphanum || c == '-' || c == '_'

def readIdentifier (text : List Char) : Reading String text :=
  match text with
  | [] => .error ⟨.expectedCharRange .letter, []⟩
  | c :: cs =>
    if c.isAlpha then
      .ok (String.ofList (c :: cs.takeWhile isIdentifierChar),
        (Rest.dropWhile isIdentifierChar cs).past c)
    else .error ⟨.expectedCharRange .letter, c :: cs⟩

def readDigits (text : List Char) : Reading (List Char) text :=
  match text with
  | [] => .error ⟨.expectedCharRange .digit, []⟩
  | c :: cs =>
    if c.isDigit then
      .ok (c :: cs.takeWhile Char.isDigit, (Rest.dropWhile Char.isDigit cs).past c)
    else .error ⟨.expectedCharRange .digit, c :: cs⟩

/-- A minus sign that may be missing, digits, and a point with digits that may be missing. -/
def readNumber (text : List Char) : Reading String text := do
  let (negative, ⟨unsigned, h⟩) := skipOptional '-' text
  let (digits, ⟨rest, h'⟩) ← readDigits unsigned
  let whole := if negative then '-' :: digits else digits
  let (point, ⟨afterPoint, h''⟩) := skipOptional '.' rest
  if point then
    let (fraction, after) ← readDigits afterPoint
    return (String.ofList (whole ++ '.' :: fraction), ((after.within h'').inside h').within h)
  else return (String.ofList whole, Shorter.within ⟨rest, h'⟩ h)

def isHexDigit (c : Char) : Bool :=
  c.isDigit || ('a' ≤ c && c ≤ 'f') || ('A' ≤ c && c ≤ 'F')

def firstByte (c : Char) : Nat :=
  let n := c.toNat
  if n < 0x80 then n
  else if n < 0x800 then 0xC0 + n / 0x40
  else if n < 0x10000 then 0xE0 + n / 0x1000
  else 0xF0 + n / 0x40000

def readHexDigits (count : Nat) (text : List Char) : Following (List Char) text :=
  let digits := (text.take count).takeWhile isHexDigit
  let rest := Rest.drop digits.length text
  if digits.length = count then .ok (digits, rest)
  else .error ⟨.invalidUnicodeEscape (String.ofList (digits ++ rest.val.take 1)), rest.val⟩

/-- The inside of a string literal up to its closing quote, which is left. -/
def readStringText (text : List Char) : Following (List Char) text :=
  match text with
  | [] => .ok ([], .whole [])
  | c :: cs =>
    if c = '\x22' then .ok ([], .whole (c :: cs))
    else if c = '\n' then .error ⟨.unterminatedString, c :: cs⟩
    else if c = '\\' then
      match cs with
      | [] => .error ⟨.unknownEscape (firstByte ' '), c :: cs⟩
      | e :: rest =>
        if e = '\\' ∨ e = '{' ∨ e = '\x22' then
          match readStringText rest with
          | .error stop => .error stop
          | .ok (value, after) => .ok (c :: e :: value, (after.behind e).behind c)
        else if e = 'u' ∨ e = 'U' then
          match readHexDigits (if e = 'u' then 4 else 6) rest with
          | .error stop => .error stop
          | .ok (digits, ⟨more, h⟩) =>
            match readStringText more with
            | .error stop => .error stop
            | .ok (value, after) =>
              .ok (c :: e :: digits ++ value, ((after.within h).behind e).behind c)
        else .error ⟨.unknownEscape (firstByte e), c :: cs⟩
    else
      match readStringText cs with
      | .error stop => .error stop
      | .ok (value, after) => .ok (c :: value, after.behind c)
termination_by text.length
decreasing_by
  · exact Nat.lt_succ_of_lt (Nat.lt_succ_self _)
  · exact Nat.lt_succ_of_lt (Nat.lt_succ_of_le h)
  · exact Nat.lt_succ_self _

def readAttributeAccess (text : List Char) : Following (Option String) text := do
  let (point, ⟨rest, h⟩) := skipOptional '.' text
  if point then
    let (name, after) ← readIdentifier rest
    return (some name, after.toRest.within h)
  else return (none, .whole text)

def isCallee (name : String) : Bool :=
  name.toList.all fun c => c.isUpper || c.isDigit || c == '_' || c == '-'

end TemplateMessages.Fluent
