import TemplateMessages.Fluent.Reader
import TemplateMessages.Text.Span

set_option autoImplicit false

/-!
# Reading Fluent resources

A resource is a sequence of messages, terms and comments. An entry that cannot be read is reported
and skipped up to the next line that can start an entry.
-/

namespace TemplateMessages.Fluent

open TemplateMessages.Text (Rest Shorter Span byteLength)

def readAssignment (text : List Char) : Reading (String × Option Pattern) text := do
  let (id, ⟨afterId, h⟩) ← readIdentifier text
  let ⟨line, h'⟩ := skipSpaces afterId
  let (_, ⟨afterEquals, h''⟩) ← expect '=' line
  let (pattern, rest) ← readPattern afterEquals
  return ((id, pattern), ((rest.inside h'').within h').inside h)

/-- One attribute on a line of its own. -/
def readAttribute? (text : List Char) : Option ((String × Pattern) × Shorter text) :=
  let ⟨line, h⟩ := skipSpaces text
  match behind? '.' line with
  | some ⟨rest, hpoint⟩ =>
    match readAssignment rest with
    | .ok ((name, some value), after) => some ((name, value), (after.inside hpoint).within h)
    | _ => none
  | none => none

def readAttributes (text : List Char) : List (String × Pattern) × Rest text :=
  match readAttribute? text with
  | none => ([], .whole text)
  | some (attr, ⟨rest, h⟩) =>
    let (attrs, after) := readAttributes rest
    (attr :: attrs, (after.inside h).toRest)
termination_by text.length
decreasing_by exact h

def readFields (text : List Char) :
    Reading (String × Option Pattern × List (String × Pattern)) text := do
  let ((id, value), ⟨rest, h⟩) ← readAssignment text
  let ⟨lines, h'⟩ := skipBlankLines rest
  let (attributes, after) := readAttributes lines
  return ((id, value, attributes), (after.within h').inside h)

def skipLine (text : List Char) : Rest text :=
  match text with
  | [] => .whole []
  | c :: cs =>
    match lineBreak? (c :: cs) with
    | some rest => rest.toRest
    | none => (skipLine cs).behind c

def commentLevel (text : List Char) : Nat :=
  ((text.take 3).takeWhile (· = '#')).length

def behindSigns? (level : Nat) (text : List Char) : Option (Shorter text) :=
  match text with
  | [] => none
  | c :: cs =>
    if level ≠ 0 ∧ commentLevel (c :: cs) = level then some ((Rest.drop (level - 1) cs).past c)
    else none

/-- The text behind the further lines of a comment, which are all of one level. A line without a
space behind its signs ends the comment. -/
def skipCommentLines (level : Nat) (text : List Char) : Rest text :=
  match behindSigns? level text with
  | none => .whole text
  | some ⟨rest, h⟩ =>
    if rest.isEmpty then .empty text
    else if rest.head? = some '\n' ∨ rest.head? = some ' ' then
      let ⟨next, hnext⟩ := skipLine rest
      (Rest.inside ((skipCommentLines level next).within hnext) h).toRest
    else .whole text
termination_by text.length
decreasing_by exact Nat.lt_of_le_of_lt hnext h

def readComment (text : List Char) : Following Unit text :=
  let level := commentLevel ('#' :: text)
  let ⟨rest, h⟩ := Rest.drop (level - 1) text
  if rest.isEmpty then .ok ((), .empty text)
  else if rest.head? = some '\n' ∨ rest.head? = some ' ' then
    let ⟨next, hnext⟩ := skipLine rest
    .ok ((), ((skipCommentLines level next).within hnext).within h)
  else .error ⟨.expectedToken ' ', rest⟩

inductive Entry where
  | comment
  | message (id : String) (message : Message)
  | term (id : String) (term : Term)
  deriving Inhabited

def readEntry (c : Char) (cs : List Char) : Reading Entry (c :: cs) :=
  if c = '#' then
    match readComment cs with
    | .error stop => .error stop
    | .ok (_, rest) => .ok (.comment, rest.past c)
  else if c = '-' then
    match readFields cs with
    | .error stop => .error stop
    | .ok ((id, some value, attributes), rest) =>
      .ok (.term id ⟨value, attributes⟩, rest.past c)
    | .ok ((id, none, _), ⟨rest, _⟩) => .error ⟨.expectedTermField id, rest⟩
  else
    match readFields (c :: cs) with
    | .error stop => .error stop
    | .ok ((id, value, attributes), rest) =>
      if value.isNone && attributes.isEmpty then .error ⟨.expectedMessageField id, rest.val⟩
      else .ok (.message id ⟨value, attributes⟩, rest)

def startsEntry (c : Char) : Bool :=
  c.isAlpha || c == '-' || c == '#'

def nextEntry (atLineStart : Bool) : (text : List Char) → Rest text
  | [] => .whole []
  | c :: cs =>
    if atLineStart && startsEntry c then .whole (c :: cs) else (nextEntry (c == '\n') cs).behind c

theorem length_lt_of_getLast?_take {text rest : List Char} {last : Char}
    (h : (text.take (text.length - rest.length)).getLast? = some last) :
    rest.length < text.length := by
  apply Nat.lt_of_sub_ne_zero
  intro hzero
  simp [hzero] at h

def recover (c : Char) (cs rest : List Char) : Shorter (c :: cs) :=
  match h : ((c :: cs).take ((c :: cs).length - rest.length)).getLast? with
  | none => (nextEntry (c == '\n') cs).past c
  | some last => (nextEntry (last == '\n') rest).inside (length_lt_of_getLast?_take h)

structure SyntaxError where
  fault : Fault
  span : Span
  deriving Repr, Inhabited

def SyntaxError.message (error : SyntaxError) : String :=
  error.fault.message ++ " at bytes " ++ error.span.display

/-- A missing field is blamed on the whole entry, any other fault on the byte where it was found. -/
def Stop.locate (stop : Stop) (entry position : Nat) : SyntaxError :=
  match stop.fault with
  | .expectedMessageField _ => ⟨stop.fault, ⟨entry, position⟩⟩
  | .expectedTermField _ => ⟨stop.fault, ⟨entry, position⟩⟩
  | _ => ⟨stop.fault, ⟨position, position + 1⟩⟩

def Catalog.add (catalog : Catalog) : Entry → Catalog
  | .comment => catalog
  | .message id message => { catalog with messages := catalog.messages.put id message }
  | .term id term => { catalog with terms := catalog.terms.put id term }

def behindBlankLines {text : List Char} (rest : Shorter text) : Shorter text :=
  let ⟨rest, h⟩ := rest
  (skipBlankLines rest).inside h

def readEntries (total : Nat) (catalog : Catalog) (text : List Char) :
    Catalog × List SyntaxError :=
  match text with
  | [] => (catalog, [])
  | c :: cs =>
    match readEntry c cs with
    | .ok (entry, rest) =>
      let ⟨next, _⟩ := behindBlankLines rest
      readEntries total (catalog.add entry) next
    | .error stop =>
      let ⟨next, _⟩ := behindBlankLines (recover c cs stop.rest)
      let error := stop.locate (total - byteLength (c :: cs)) (total - byteLength stop.rest)
      let (catalog, errors) := readEntries total catalog next
      (catalog, error :: errors)
termination_by text.length
decreasing_by all_goals assumption

/-- The catalog of a resource, and the errors in source order. -/
def parse (source : List Char) : Catalog × List SyntaxError :=
  readEntries (byteLength source) ⟨[], []⟩ (skipBlankLines source).val

end TemplateMessages.Fluent
