import TemplateMessages.Proofs.Catalog.ReplacementCode
import TemplateMessages.Proofs.Fluent.MessageValue
import TemplateMessages.Proofs.Fluent.PlainResources
import TemplateMessages.Translation.Translator

set_option autoImplicit false

/-!
# Replacements as operands

The code that stands for a call is balanced when the arguments of the call are. It can stand
wherever the call stood, but for one case: a Fluent message whose value is a bare sum, or the source
text of a param that is no operand itself.
-/

namespace TemplateMessages.Translation

open TemplateMessages.Call (Candidate)
open TemplateMessages.Expression (objectEntries)
open TemplateMessages.Fluent (messageValue paramSources translationCode_eq)
open TemplateMessages.Script (IsBalanced HasOperator SelfContained)

def BalancedParams (arguments : Call.Arguments) : Prop :=
  ∀ params, arguments.params = some params → IsBalanced params.toList ∧
    ∀ entries, objectEntries params = some entries → ∀ entry ∈ entries, IsBalanced entry.2.toList

def Source.IsRead : Source → Prop
  | catalog _ => True
  | fluent catalogs _ => ∀ entry ∈ catalogs, ∃ text, (Fluent.parse text).1 = entry.2

def Translator.OpenCall (translator : Translator) (context : Context) (candidate : Candidate) :
    Prop :=
  match translator.source with
  | .catalog _ => False
  | .fluent catalogs isolating =>
    candidate.function = .translate ∧ ∃ arguments value,
      Call.Arguments.parse candidate.arguments = .ok arguments ∧
        messageValue catalogs isolating context arguments = .ok value ∧
          value.IsOpen (paramSources arguments.params)

variable {translator : Translator} {context : Context} {candidate : Candidate}
  {replacement : Replacement}

theorem isBalanced_of_mem_paramSources {arguments : Call.Arguments} (h : BalancedParams arguments) :
    ∀ source ∈ paramSources arguments.params, IsBalanced source.toList := by
  intro source hsource
  obtain ⟨entry, hentry, rfl⟩ := List.mem_map.mp hsource
  cases hparams : arguments.params with
  | none =>
    rw [hparams] at hentry
    cases hentry
  | some params =>
    rw [hparams, Option.bind_some] at hentry
    cases hentries : objectEntries params with
    | none =>
      rw [hentries] at hentry
      cases hentry
    | some entries =>
      rw [hentries] at hentry
      exact (h params hparams).2 entries hentries entry hentry

/-- A replacement is balanced, and it is one operand just when the call is not open. -/
theorem selfContained_translate_iff (hread : translator.source.IsRead)
    (hparams : ∀ arguments, Call.Arguments.parse candidate.arguments = .ok arguments →
      BalancedParams arguments)
    (h : translator.translate context candidate = .ok replacement) :
    IsBalanced replacement.code.toList ∧
      (SelfContained replacement.code.toList ↔ ¬translator.OpenCall context candidate) := by
  obtain ⟨source, functions⟩ := translator
  cases source with
  | catalog messages =>
    have hoperand := Catalog.selfContained_translate h fun arguments hparse params hgiven =>
      (hparams arguments hparse params hgiven).1
    exact ⟨hoperand.1, fun _ hopen => hopen, fun _ => hoperand⟩
  | fluent catalogs isolating =>
    obtain ⟨arguments, hparse, hanswer | htext⟩ := Fluent.code_of_translate h
    · obtain ⟨hfunction, answer, hcode⟩ := hanswer
      have hoperand := Script.selfContained_boolText answer
      rw [hcode]
      refine ⟨hoperand.1, fun _ hopen => ?_, fun _ => hoperand⟩
      cases hfunction.symm.trans hopen.1
    · obtain ⟨hfunction, value, hvalue, hcode⟩ := htext
      have hplain : ∀ entry ∈ catalogs, entry.2.Plain := by
        intro entry hentry
        obtain ⟨text, htext⟩ := hread entry hentry
        rw [← htext]
        exact Fluent.plain_parse text
      have hbuilt := Fluent.built_messageValue hplain hvalue
      have hsources := isBalanced_of_mem_paramSources (hparams arguments hparse)
      have hbalanced := (hbuilt.balanced hsources).resultCode
      have hopenCall :
          Translator.OpenCall ⟨.fluent catalogs isolating, functions⟩ context candidate ↔
            value.IsOpen (paramSources arguments.params) := by
        constructor
        · rintro ⟨_, others, other, hothers, hother, hopen⟩
          cases hparse.symm.trans hothers
          cases hvalue.symm.trans hother
          exact hopen
        · intro hopen
          exact ⟨hfunction, arguments, value, hparse, hvalue, hopen⟩
      rw [hcode, hopenCall, ← hbuilt.hasOperator_iff hsources]
      exact ⟨hbalanced, fun hoperand => hoperand.2, fun hnone => ⟨hbalanced, hnone⟩⟩

def greetings : Translator :=
  ⟨.fluent [("en", (Fluent.parse "hello = Hello, \x7b $name \x7d!".toList).1)] false,
    [("t", .translate)]⟩

def greetingCall : Candidate :=
  ⟨⟨0, 31⟩, "t('hello', \x7b name: user.name \x7d)", "t", .translate, .text, false⟩

theorem selfContained_translate_iff_greetings :
    ∃ replacement, greetings.translate ⟨"en", "", []⟩ greetingCall = .ok replacement ∧
      replacement.code = "'Hello, ' + user.name + '!'" ∧
        IsBalanced replacement.code.toList ∧ ¬SelfContained replacement.code.toList ∧
          greetings.OpenCall ⟨"en", "", []⟩ greetingCall := by
  have hread : greetings.source.IsRead := by
    intro entry hentry
    rw [List.mem_singleton.mp hentry]
    exact ⟨_, rfl⟩
  have hparse : (Call.Arguments.parse greetingCall.arguments).toOption =
      some ⟨"hello", some "\x7b name: user.name \x7d", none⟩ := by decide
  have hentries : objectEntries "\x7b name: user.name \x7d" = some [("name", "user.name")] := by
    decide
  have hparams : ∀ arguments, Call.Arguments.parse greetingCall.arguments = .ok arguments →
      BalancedParams arguments := by
    intro arguments harguments
    rw [harguments] at hparse
    obtain rfl := Option.some.inj hparse
    rintro params ⟨⟩
    refine ⟨by decide, ?_⟩
    intro entries hgiven entry hentry
    obtain rfl := Option.some.inj (hentries.symm.trans hgiven)
    rw [List.mem_singleton.mp hentry]
    decide
  have hcode : (greetings.translate ⟨"en", "", []⟩ greetingCall).toOption =
      some ⟨"'Hello, ' + user.name + '!'", false⟩ := by decide +kernel
  cases h : greetings.translate ⟨"en", "", []⟩ greetingCall with
  | error error =>
    rw [h] at hcode
    cases hcode
  | ok replacement =>
    rw [h] at hcode
    obtain rfl := Option.some.inj hcode
    obtain ⟨hbalanced, hiff⟩ := selfContained_translate_iff hread hparams h
    have hoperand : ¬SelfContained "'Hello, ' + user.name + '!'".toList := by decide
    refine ⟨_, rfl, rfl, hbalanced, hoperand, ?_⟩
    by_contra hopen
    exact hoperand (hiff.mpr hopen)

end TemplateMessages.Translation
