import TemplateMessages.Text.Span

set_option autoImplicit false

/-!
# Splicing edits into a text

Edits are taken in the order of their spans. An edit that starts before the end of the last one
taken is dropped, and all that lies outside the taken spans is copied.
-/

namespace TemplateMessages.Text

structure Edit where
  span : Span
  replacement : String
  deriving DecidableEq, Repr, Inhabited

namespace Edit

def delete (span : Span) : Edit :=
  ⟨span, ""⟩

def le (a b : Edit) : Bool :=
  a.span.start < b.span.start || (a.span.start == b.span.start && a.span.stop ≤ b.span.stop)

def splice (cursor : Nat) (rest : List Char) : List Edit → List Char
  | [] => rest
  | edit :: edits =>
    if edit.span.start < cursor then splice cursor rest edits
    else
      takeBytes (edit.span.start - cursor) rest ++ edit.replacement.toList ++
        splice edit.span.stop (dropBytes (edit.span.stop - cursor) rest) edits

/-- The text with the edits carried out. -/
def applyAll (edits : List Edit) (source : List Char) : List Char :=
  splice 0 source (edits.mergeSort le)

end Edit

end TemplateMessages.Text
