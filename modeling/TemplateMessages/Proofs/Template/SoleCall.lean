import TemplateMessages.Proofs.Call.Search
import TemplateMessages.Proofs.Expression.QuotedReading
import TemplateMessages.Proofs.Markup.References
import TemplateMessages.Proofs.Template.Accounting
import TemplateMessages.Proofs.Text.Characters
import TemplateMessages.Proofs.Text.Composition

set_option autoImplicit false

/-!
# An interpolation that is one call

The message of the call is written as a string literal, which is read back as a constant, and the
constant takes the place of the interpolation. It is the message unless that has one of the two
Unicode separators.
-/

namespace TemplateMessages.Template

open TemplateMessages.Call (Arguments Candidate FunctionNames)
open TemplateMessages.Catalog (LocaleMessages firstPlaceholder? lookup? parts)
open TemplateMessages.Expression
open TemplateMessages.Markup (escapeQuotes escapeQuoteChar toList_escapeQuotes doubleQuoteReference
  singleQuoteReference)
open TemplateMessages.Text
open TemplateMessages.Translation

/-- The interpolation is one call with a key and no params, whose message has no placeholders. -/
structure SoleMessage (source : List Char) (functions : FunctionNames) (messages : LocaleMessages)
    (context : Context) (expression : Interpolation) (found : Candidate) (text : String) :
    Prop where
  call : found ∈ Call.candidates functions (expression.inner.slice source) expression.inner.start
    .text
  sole : found.sole = true
  function : found.function = .translate
  message : ∃ key locale, Arguments.parse found.arguments = .ok ⟨key, none, locale⟩ ∧
    lookup? messages context key locale = some text
  plain : firstPlaceholder? (parts text.toList) = none

variable {source : List Char} {functions : FunctionNames} {messages : LocaleMessages}
  {context : Context} {expression : Interpolation} {found : Candidate} {text : String}

namespace SoleMessage

theorem translate_eq (h : SoleMessage source functions messages context expression found text) :
    Catalog.translate messages context found = .ok ⟨quoted text, true⟩ := by
  obtain ⟨key, locale, harguments, hmessage⟩ := h.message
  unfold Catalog.translate
  rw [harguments, h.function]
  simp only [Except.mapError, bind, Except.bind, hmessage, Catalog.replacement, h.plain]

theorem constantText?_eq
    (h : SoleMessage source functions messages context expression found text) :
    constantText? source expression.inner [⟨found.span, quoted text⟩] = some (respelled text) := by
  obtain ⟨before, after, hinner, hbefore, hafter, hstart⟩ := Call.blank_around_of_sole h.call h.sole
  have hspan : found.span = ⟨expression.inner.start + byteLength before,
      expression.inner.start + byteLength before + byteLength found.content.toList⟩ := by
    rw [← hstart, ← (Call.covers_of_mem_candidates h.call).stop_eq]
  have hrewritten : Rewritten expression.inner.start (expression.inner.slice source)
      [⟨found.span, quoted text⟩] (before ++ quotedChars text.toList ++ after) := by
    have hedit := @Rewritten.edit expression.inner.start before found.content.toList after after []
      (quoted text) (.kept _ after)
    have hquoted : (quoted text).toList = quotedChars text.toList := String.toList_ofList
    rwa [← hspan, hinner, hquoted] at hedit
  have hread : Expression.evaluateChars (trim (before ++ quotedChars text.toList ++ after)) =
      .ok (.string (respelled text)) := by
    have htrim : trim (before ++ quotedChars text.toList ++ after) = quotedChars text.toList :=
      trim_between_blanks _ hbefore hafter (by decide) (by decide)
    rw [htrim]
    exact evaluateChars_quotedChars text.toList
  have happlied := hrewritten.applyAll_movedBack
  unfold constantText?
  unfold Edit.movedBack at happlied
  dsimp only
  rw [happlied, hread]

theorem edits_resolve
    (h : SoleMessage source functions messages context expression found text) :
    (resolve source functions (Catalog.translate messages context)
      (.interpolation expression)).edits = [⟨expression.whole, escapeQuotes (respelled text)⟩] := by
  have hcalls : (Site.interpolation expression).calls source functions = [found] :=
    Call.candidates_eq_singleton h.call h.sole
  have hedits : callEdits (Catalog.translate messages context) [found] =
      [⟨found.span, quoted text⟩] := by
    simp [callEdits, callEdit?, h.translate_eq]
  rw [resolve_eq, hcalls]
  dsimp only
  rw [hedits]
  simp [mayCollapse, h.translate_eq, Site.inner, h.constantText?_eq, Site.edits]

end SoleMessage

theorem mem_escapeQuoteChar_of_isSeparator {c d : Char} (hd : IsSeparator d)
    (h : d ∈ escapeQuoteChar c) : d = c := by
  have hreferences : d ∉ doubleQuoteReference.toList ++ singleQuoteReference.toList := by
    rcases hd with rfl | rfl <;> decide
  rw [List.mem_append, not_or] at hreferences
  unfold escapeQuoteChar at h
  split at h
  · exact absurd h hreferences.1
  · split at h
    · exact absurd h hreferences.2
    · exact List.mem_singleton.mp h

theorem escapeQuotes_respelled_eq_iff (text : String) :
    escapeQuotes (respelled text) = escapeQuotes text ↔ ∀ c ∈ text.toList, ¬IsSeparator c := by
  constructor
  · intro heq c hc hseparator
    have hself : escapeQuoteChar c = [c] := by
      rcases hseparator with rfl | rfl <;> decide
    have hescaped : c ∈ (escapeQuotes text).toList := by
      simpa using ⟨c, hc, by simp [hself]⟩
    rw [← heq, toList_escapeQuotes, List.mem_flatMap] at hescaped
    obtain ⟨d, hd, hmem⟩ := hescaped
    obtain rfl := mem_escapeQuoteChar_of_isSeparator hseparator hmem
    rw [respelled, String.toList_ofList] at hd
    exact not_isSeparator_of_mem_respell hd hseparator
  · intro h
    rw [(respelled_eq_self_iff text).mpr h]

/-- A string literal is read back just when its text has no separators, and just then the text takes
the place of an interpolation that is one call and has it as its message. -/
theorem collapses_iff (text : String) :
    (evaluate (quoted text) = .ok (.string (respelled text)) ∧
      (evaluate (quoted text) = .ok (.string text) ↔ ∀ c ∈ text.toList, ¬IsSeparator c)) ∧
    ∀ {source functions messages context expression found},
      SoleMessage source functions messages context expression found text →
        let outcome :=
          resolve source functions (Catalog.translate messages context) (.interpolation expression)
        outcome.edits = [⟨expression.whole, escapeQuotes (respelled text)⟩] ∧
          (outcome.edits = [⟨expression.whole, escapeQuotes text⟩] ↔
            ∀ c ∈ text.toList, ¬IsSeparator c) := by
  refine ⟨⟨evaluate_quoted text, ?_⟩, fun h => ?_⟩
  · rw [evaluate_quoted, ← respelled_eq_self_iff]
    simp only [Except.ok.injEq, Literal.string.injEq]
  · intro outcome
    have hedits : outcome.edits = _ := h.edits_resolve
    refine ⟨hedits, ?_⟩
    rw [hedits, ← escapeQuotes_respelled_eq_iff]
    simp only [List.cons.injEq, Edit.mk.injEq, true_and, and_true]

def separatedMessage : LocaleMessages :=
  [("en", [("k", "a\u2028b")])]

def soleTemplate : List Char :=
  "<p>\x7b\x7b t('k') \x7d\x7d</p>".toList

def soleInterpolation : Interpolation :=
  ⟨⟨3, 15⟩, ⟨5, 13⟩⟩

theorem collapses_iff_separatedMessage :
    let context : Context := ⟨"en", "en", []⟩
    (∃ found, SoleMessage soleTemplate .default separatedMessage context soleInterpolation found
        "a\u2028b") ∧
      let outcome := resolve soleTemplate .default (Catalog.translate separatedMessage context)
        (.interpolation soleInterpolation)
      outcome.edits = [⟨⟨3, 15⟩, "au2028b"⟩] ∧
        outcome.edits ≠ [⟨⟨3, 15⟩, escapeQuotes "a\u2028b"⟩] := by
  have hsole : SoleMessage soleTemplate .default separatedMessage ⟨"en", "en", []⟩
      soleInterpolation ⟨⟨6, 12⟩, "t('k')", "t", .translate, .text, true⟩ "a\u2028b" :=
    ⟨by decide +kernel, rfl, rfl, ⟨"k", none, by decide +kernel⟩, by decide +kernel⟩
  obtain ⟨hedits, hexact⟩ := (collapses_iff _).2 hsole
  refine ⟨⟨_, hsole⟩, ?_, ?_⟩
  · rw [hedits]
    decide +kernel
  · exact fun heq => hexact.mp heq '\u2028' (by decide) (.inl rfl)

end TemplateMessages.Template
