import TemplateMessages.Expression.Reader

set_option autoImplicit false

/-!
# Entries of an object expression

The keys of an object literal with the source text of their values, which need not be constant.
-/

namespace TemplateMessages.Expression

open TemplateMessages.Text (trim takeBytes dropBytes)

def propertyKey? (text : List Char) : Option String :=
  if isIdentifier text then some (String.ofList text)
  else
    match evaluateChars text with
    | .ok (.string value) => some value
    | .ok (.number value) => some value.text
    | _ => none

def entry? (part : List Char) : Option (String × String) :=
  match findTopLevel part ':' with
  | some colon =>
    (propertyKey? (trim (takeBytes colon part))).map fun key =>
      (key, String.ofList (trim (dropBytes (colon + 1) part)))
  | none =>
    if isIdentifier part then some (String.ofList part, String.ofList part) else none

def braced? (text : List Char) : Option (List Char) :=
  match text with
  | [] => none
  | c :: cs => if c = '{' ∧ cs.getLast? = some '}' then some cs.dropLast else none

/-- The entries of an object literal in source order, each value as its source text. Nothing when
the text is no object literal. -/
def objectEntries (text : String) : Option (List (String × String)) := do
  let body ← braced? (trim text.toList)
  let parts ← splitTopLevel body ','
  ((parts.map trim).filter (! ·.isEmpty)).mapM entry?

end TemplateMessages.Expression
