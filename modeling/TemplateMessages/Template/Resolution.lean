import TemplateMessages.Template.Site
import TemplateMessages.Translation.Translator

set_option autoImplicit false

/-!
# Translating the expressions of a template

Every call of an expression is translated on its own; a call that has no translation stays as it is.
When the whole expression is a constant string afterwards, the string takes the place of its site.
-/

namespace TemplateMessages.Template

open TemplateMessages.Call (Candidate FunctionNames)
open TemplateMessages.Expression (Literal)
open TemplateMessages.Text
open TemplateMessages.Translation

structure SkippedCall where
  candidate : Candidate
  error : TranslationError
  deriving DecidableEq, Repr, Inhabited

structure Outcome where
  edits : List Edit
  skipped : List SkippedCall
  recognized : Nat
  translated : Nat
  deriving DecidableEq, Repr, Inhabited

namespace Outcome

def none : Outcome := ⟨[], [], 0, 0⟩

def append (a b : Outcome) : Outcome where
  edits := a.edits ++ b.edits
  skipped := a.skipped ++ b.skipped
  recognized := a.recognized + b.recognized
  translated := a.translated + b.translated

def all (outcomes : List Outcome) : Outcome :=
  outcomes.foldr append none

end Outcome

abbrev Translated := Candidate × Except TranslationError Replacement

def callEdit? (call : Translated) : Option Edit :=
  match call.2 with
  | .ok replacement => some ⟨call.1.span, replacement.code⟩
  | .error _ => .none

def skippedCall? (call : Translated) : Option SkippedCall :=
  match call.2 with
  | .ok _ => .none
  | .error error => some ⟨call.1, error⟩

def mayCollapse (call : Translated) : Bool :=
  match call.2 with
  | .ok replacement => replacement.mayCollapse
  | .error _ => false

/-- The string that an expression is after its edits, when it is one. Other constants are not
strings and keep their types. -/
def constantText? (source : List Char) (inner : Span) (edits : List Edit) : Option String :=
  let shifted := edits.map fun edit =>
    { edit with span := ⟨edit.span.start - inner.start, edit.span.stop - inner.start⟩ }
  match Expression.evaluateChars (trim (Edit.applyAll shifted (inner.slice source))) with
  | .ok (.string text) => some text
  | _ => .none

/-- What becomes of one site. -/
def resolve (source : List Char) (names : FunctionNames)
    (translate : Candidate → Except TranslationError Replacement) (site : Site) : Outcome :=
  let found := Call.candidates names (site.inner.slice source) site.inner.start site.place
  let calls : List Translated := found.map fun candidate => (candidate, translate candidate)
  let edits := calls.filterMap callEdit?
  let literal :=
    if calls.all mayCollapse then constantText? source site.inner edits else .none
  { edits := if edits.isEmpty then [] else site.edits edits literal
    skipped := calls.filterMap skippedCall?
    recognized := found.length
    translated := edits.length }

def resolveRegion (source : List Char) (region : Span) (names : FunctionNames)
    (translate : Candidate → Except TranslationError Replacement) : Outcome :=
  Outcome.all ((sites source region).map (resolve source names translate))

end TemplateMessages.Template
