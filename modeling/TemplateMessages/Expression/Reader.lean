import TemplateMessages.Expression.Literal
import TemplateMessages.Expression.Nesting
import TemplateMessages.Expression.Quoted
import TemplateMessages.Text.Blank
import TemplateMessages.Text.Rest
import TemplateMessages.Text.Span

set_option autoImplicit false

/-!
# Reading constant expressions

The expressions that are read are strings, numbers, `true`, `false`, `null`, `undefined`, arrays,
objects, parentheses, signs and sums. Every other expression is refused, and nothing is executed.
Each reader gives the text after what it read, with the proof that something was read; where it
refuses it gives the text it has got to.
-/

namespace TemplateMessages.Expression

open TemplateMessages.Number (Binary64)
open TemplateMessages.Text (Rest Shorter byteLength firstBehind? isBlank skipBlanks)

abbrev Reading (α : Type) (text : List Char) : Type :=
  Except (List Char) (α × Shorter text)

def readString (quote : Char) : (text : List Char) → Reading (List Char) text
  | [] => .error []
  | c :: cs =>
    if c = quote then .ok ([], .tail c cs)
    else if c = '\\' then
      match cs with
      | [] => .error []
      | e :: rest =>
        match readString quote rest with
        | .error stop => .error stop
        | .ok (value, after) =>
          let value :=
            if e = 'n' then '\n' :: value
            else if e = 't' then '\t' :: value
            else if e = 'r' then '\r' :: value
            else if e = '0' then '\x00' :: value
            else if e = '\n' then value
            else e :: value
          .ok (value, (after.past e).past c)
    else if c = '$' ∧ quote = '\x60' ∧ cs.head? = some '{' then .error cs
    else if c = '\n' ∧ quote ≠ '\x60' then .error cs
    else
      match readString quote cs with
      | .error stop => .error stop
      | .ok (value, after) => .ok (c :: value, after.past c)

/-- The longest run of digits with at most one point, which stands before the exponent, and at most
one exponent letter with an optional sign behind it. -/
def numberChars (point exponent : Bool) : (text : List Char) → List Char × Rest text
  | [] => ([], .whole [])
  | c :: cs =>
    if c.isDigit then
      let (digits, rest) := numberChars point exponent cs
      (c :: digits, rest.behind c)
    else if c = '.' ∧ !point ∧ !exponent then
      let (digits, rest) := numberChars true exponent cs
      (c :: digits, rest.behind c)
    else if (c = 'e' ∨ c = 'E') ∧ !exponent then
      match cs with
      | sign :: more =>
        if sign = '+' ∨ sign = '-' then
          let (digits, rest) := numberChars point true more
          (c :: sign :: digits, (rest.behind sign).behind c)
        else
          let (digits, rest) := numberChars point true (sign :: more)
          (c :: digits, rest.behind c)
      | [] => ([c], .empty [c])
    else ([], .whole (c :: cs))

def readNumber (c : Char) (cs : List Char) : Reading Binary64 (c :: cs) :=
  let (digits, rest) := numberChars (c == '.') false cs
  match Binary64.ofText? (c :: digits) with
  | some value => .ok (value, rest.past c)
  | none => .error (c :: cs)

/-- The rest of a text after white space and one given character, which is there or not. -/
def skipTo (expected : Char) (text : List Char) : Option (Shorter text) :=
  match firstBehind? isBlank text with
  | none => none
  | some (c, rest) => if c = expected then some rest else none

def skipName (c : Char) (cs : List Char) : Shorter (c :: cs) :=
  (Rest.dropWhile isIdentifierChar cs).past c

def readKey (text : List Char) : Reading String text :=
  match text with
  | [] => .error []
  | c :: cs =>
    if isIdentifierStart c then
      .ok (String.ofList (c :: cs.takeWhile isIdentifierChar), skipName c cs)
    else if c = '\x27' ∨ c = '\x22' then
      match readString c cs with
      | .error stop => .error stop
      | .ok (key, rest) => .ok (String.ofList key, rest.past c)
    else if c.isDigit then
      match readNumber c cs with
      | .error stop => .error stop
      | .ok (key, rest) => .ok (key.text, rest)
    else .error (c :: cs)

mutual

def readSum (text : List Char) : Reading Literal text :=
  match readTerm text with
  | .error stop => .error stop
  | .ok (first, ⟨rest, h⟩) =>
    match readSumFrom first rest with
    | .error stop => .error stop
    | .ok (value, after) => .ok (value, after.inside h)
termination_by 4 * text.length + 2
decreasing_by all_goals omega

def readSumFrom (value : Literal) (text : List Char) :
    Except (List Char) (Literal × Rest text) :=
  match firstBehind? isBlank text with
  | none => .ok (value, .empty text)
  | some (c, ⟨cs, hcs⟩) =>
    if c = '+' ∧ cs.head? ≠ some '+' ∧ cs.head? ≠ some '=' then
      match readTerm cs with
      | .error stop => .error stop
      | .ok (term, ⟨rest, h⟩) =>
        match value.add? term with
        | none => .error cs
        | some sum =>
          match readSumFrom sum rest with
          | .error stop => .error stop
          | .ok (total, after) => .ok (total, ((after.inside h).inside hcs).toRest)
    else .ok (value, Shorter.withHead c ⟨cs, hcs⟩)
termination_by 4 * text.length + 2
decreasing_by all_goals omega

def readTerm (text : List Char) : Reading Literal text :=
  match firstBehind? isBlank text with
  | none => .error []
  | some (c, ⟨cs, hcs⟩) =>
    if c = '-' ∨ c = '+' then
      match readTerm cs with
      | .error stop => .error stop
      | .ok (operand, ⟨rest, h⟩) =>
        match operand.asNumber? with
        | none => .error rest
        | some number =>
          .ok (.number (if c = '-' then number.neg else number), Shorter.inside ⟨rest, h⟩ hcs)
    else
      match readPrimary c cs with
      | .error stop => .error stop
      | .ok (value, rest) => .ok (value, rest.within hcs)
termination_by 4 * text.length + 1
decreasing_by
  · omega
  · simp only [List.length_cons]
    omega

def readPrimary (c : Char) (cs : List Char) : Reading Literal (c :: cs) :=
  if c = '\x27' ∨ c = '\x22' ∨ c = '\x60' then
    match readString c cs with
    | .error stop => .error stop
    | .ok (value, rest) => .ok (.string (String.ofList value), rest.past c)
  else if c.isDigit ∨ c = '.' then
    match readNumber c cs with
    | .error stop => .error stop
    | .ok (value, rest) => .ok (.number value, rest)
  else if c = '(' then
    match readSum cs with
    | .error stop => .error stop
    | .ok (value, ⟨rest, h⟩) =>
      match skipTo ')' rest with
      | none => .error (skipBlanks rest)
      | some after => .ok (value, (after.inside h).past c)
  else if c = '[' then
    match readItems [] cs with
    | .error stop => .error stop
    | .ok (items, rest) => .ok (.array items, rest.past c)
  else if c = '{' then
    match readEntries [] cs with
    | .error stop => .error stop
    | .ok (entries, rest) => .ok (.object entries, rest.past c)
  else if isIdentifierStart c then
    let rest := skipName c cs
    match String.ofList (c :: cs.takeWhile isIdentifierChar) with
    | "true" => .ok (.bool true, rest)
    | "false" => .ok (.bool false, rest)
    | "null" => .ok (.null, rest)
    | "undefined" => .ok (.undefined, rest)
    | _ => .error rest.val
  else .error (c :: cs)
termination_by 4 * (c :: cs).length
decreasing_by all_goals simp only [List.length_cons]; omega

/-- The items of an array up to its bracket, after those already read. A comma may stand behind
the last one. -/
def readItems (items : List Literal) (text : List Char) : Reading (List Literal) text :=
  match skipTo ']' text with
  | some after => .ok (items, after)
  | none =>
    match readSum text with
    | .error stop => .error stop
    | .ok (item, ⟨rest, h⟩) =>
      match skipTo ',' rest with
      | some ⟨more, h'⟩ =>
        match readItems (items ++ [item]) more with
        | .error stop => .error stop
        | .ok (all, after) => .ok (all, (after.inside h').inside h)
      | none =>
        match skipTo ']' rest with
        | some after => .ok (items ++ [item], after.inside h)
        | none => .error (skipBlanks rest)
termination_by 4 * text.length + 3
decreasing_by all_goals omega

def readEntries (entries : List (String × Literal)) (text : List Char) :
    Reading (List (String × Literal)) text :=
  match skipTo '}' text with
  | some after => .ok (entries, after)
  | none =>
    let ⟨start, hstart⟩ := Rest.dropWhile isBlank text
    match readKey start with
    | .error stop => .error stop
    | .ok (key, ⟨afterKey, hkey⟩) =>
      match skipTo ':' afterKey with
      | none => .error (skipBlanks afterKey)
      | some ⟨afterColon, hcolon⟩ =>
        match readSum afterColon with
        | .error stop => .error stop
        | .ok (value, ⟨rest, h⟩) =>
          let entries := Table.put entries key value
          match skipTo ',' rest with
          | some ⟨more, h'⟩ =>
            match readEntries entries more with
            | .error stop => .error stop
            | .ok (all, after) =>
              .ok (all, ((((after.inside h').inside h).inside hcolon).inside hkey).within hstart)
          | none =>
            match skipTo '}' rest with
            | some after =>
              .ok (entries, (((after.inside h).inside hcolon).inside hkey).within hstart)
            | none => .error (skipBlanks rest)
termination_by 4 * text.length + 3
decreasing_by all_goals omega

end

structure NotLiteral where
  /-- The byte position where reading stopped. -/
  offset : Nat
  deriving DecidableEq, Repr, Inhabited

def NotLiteral.message (error : NotLiteral) : String :=
  "not a literal expression at offset " ++ toString error.offset

def evaluateChars (expression : List Char) : Except NotLiteral Literal :=
  let stopAt (rest : List Char) : NotLiteral := ⟨byteLength expression - byteLength rest⟩
  match readSum expression with
  | .error rest => .error (stopAt rest)
  | .ok (value, ⟨rest, _⟩) =>
    match skipBlanks rest with
    | [] => .ok value
    | c :: cs => .error (stopAt (c :: cs))

def evaluate (expression : String) : Except NotLiteral Literal :=
  evaluateChars expression.toList

end TemplateMessages.Expression
