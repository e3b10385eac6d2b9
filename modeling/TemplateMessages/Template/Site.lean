import TemplateMessages.Markup.Escape
import TemplateMessages.Markup.Token
import TemplateMessages.Call.Candidate
import TemplateMessages.Text.Edit

set_option autoImplicit false

/-!
# Expressions of a template

The expressions of a template stand between double braces in its text, and in the values of bound
attributes.
-/

namespace TemplateMessages.Template

open TemplateMessages.Markup
open TemplateMessages.Text

structure Interpolation where
  whole : Span
  inner : Span
  deriving DecidableEq, Repr, Inhabited

/-- The inside of an interpolation that starts a text, up to the first closing braces behind at
least one character, and the text behind them. -/
def readInterpolation? : List Char → Option (List Char × List Char)
  | '{' :: '{' :: c :: cs =>
    (breakOn? ['}', '}'] cs).map fun (before, rest) => (c :: before, rest)
  | _ => none

theorem append_of_readInterpolation? {text inner rest : List Char}
    (h : readInterpolation? text = some (inner, rest)) :
    '{' :: '{' :: inner ++ '}' :: '}' :: rest = text := by
  unfold readInterpolation? at h
  split at h
  · rename_i c cs
    obtain ⟨⟨before, tail⟩, found, outer⟩ := Option.map_eq_some_iff.mp h
    simp only [Prod.mk.injEq] at outer
    obtain ⟨rfl, rfl⟩ := outer
    rw [← append_of_breakOn? found]
    simp
  · simp at h

def interpolationsFrom (position : Nat) (text : List Char) : List Interpolation :=
  match h : readInterpolation? text with
  | some (inner, rest) =>
    have : rest.length < text.length := by
      rw [← append_of_readInterpolation? h]
      simp only [List.length_append, List.length_cons]
      omega
    let start := position + 2
    let stop := start + byteLength inner
    ⟨⟨position, stop + 2⟩, ⟨start, stop⟩⟩ :: interpolationsFrom (stop + 2) rest
  | none =>
    match text with
    | [] => []
    | c :: cs => interpolationsFrom (position + c.utf8Size) cs
termination_by text.length

inductive Site where
  | interpolation (expression : Interpolation)
  | binding (attr : Attribute) (value : AttributeValue)
  deriving DecidableEq, Repr, Inhabited

namespace Site

def inner : Site → Span
  | interpolation expression => expression.inner
  | binding _ value => value.span

def place : Site → Call.Place
  | interpolation _ => .text
  | binding .. => .attributeValue

/-- What becomes of a site whose expression has the constant text `literal`, if it has one, after
the edits of its calls. An attribute whose name is an expression stays bound. -/
def edits (site : Site) (callEdits : List Edit) (literal : Option String) : List Edit :=
  match site, literal with
  | interpolation expression, some text => [⟨expression.whole, escapeQuotes text⟩]
  | interpolation _, none => callEdits
  | binding attr value, literal =>
    match literal, attr.dynamic with
    | some text, false => [⟨attr.span, attr.staticName ++ "=\x22" ++ escapeQuotes text ++ "\x22"⟩]
    | _, _ => callEdits.map fun edit => ⟨edit.span, escapeQuote value.quote edit.replacement⟩

end Site

def textSites (source : List Char) (span : Span) : List Site :=
  (interpolationsFrom span.start (span.slice source)).map .interpolation

def tagSites (tag : StartTag) : List Site :=
  tag.attributes.filterMap fun attr =>
    match attr.binding?, attr.value with
    | some _, some value => some (.binding attr value)
    | _, _ => none

def sites (source : List Char) (region : Span) : List Site :=
  let scanned := scan source region
  scanned.translatableText.flatMap (textSites source) ++ scanned.translatableTags.flatMap tagSites

end TemplateMessages.Template
