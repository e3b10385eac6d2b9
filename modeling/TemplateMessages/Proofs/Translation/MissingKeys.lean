import TemplateMessages.Proofs.Fluent.MissingMessages
import TemplateMessages.Translation.Translator

set_option autoImplicit false

/-!
# Keys without a translation

That a key has no translation is said in two ways: its call fails as missing, and the question whether
it has one is answered with no. Of a message catalog both say the same. Of a Fluent catalog the call
is also missing where its message refers to a missing one, and the answer is also no where the message
lacks the part of the key.
-/

namespace TemplateMessages.Translation

open TemplateMessages.Call (Candidate)
open TemplateMessages.Catalog (LocaleMessages)

variable {translator : Translator} {context : Context} {call : Candidate}

namespace Translator

def Misses (translator : Translator) (context : Context) (call : Candidate) : Prop :=
  ∃ error, translator.translate context call = .error error ∧ error.isMissing = true

/-- The question whether the key of the call has a translation is answered with no. -/
def Denies (translator : Translator) (context : Context) (call : Candidate) : Prop :=
  translator.translate context { call with function := .exists? } = .ok ⟨"false", true⟩

def Nowhere (translator : Translator) (context : Context) (call : Candidate) : Prop :=
  ∃ arguments, Call.Arguments.parse call.arguments = .ok arguments ∧
    match translator.source with
    | .catalog messages =>
      Catalog.lookup? messages context arguments.key arguments.locale = none
    | .fluent catalogs _ => Fluent.Nowhere catalogs context arguments

/-- The first Fluent catalog with the message of the key lacks the part that the key asks for. -/
def Partless (translator : Translator) (context : Context) (call : Candidate) : Prop :=
  ∃ arguments, Call.Arguments.parse call.arguments = .ok arguments ∧
    match translator.source with
    | .catalog _ => False
    | .fluent catalogs _ => Fluent.Partless catalogs context arguments

/-- A Fluent catalog has the key, but its expansion comes to a message that is not there. -/
def Dangling (translator : Translator) (context : Context) (call : Candidate) : Prop :=
  ∃ arguments, Call.Arguments.parse call.arguments = .ok arguments ∧
    match translator.source with
    | .catalog _ => False
    | .fluent catalogs isolating => Fluent.Dangling catalogs isolating context arguments

end Translator

theorem isMissing_substitute {parts : List Catalog.Part} {key : String}
    {values : Expression.Literal} {error : TranslationError}
    (h : Catalog.substitute parts key values = .error error) : error.isMissing = false := by
  induction parts generalizing error with
  | nil => cases h
  | cons part parts ih =>
    have later (front : String)
        (h : (Catalog.substitute parts key values).map (front ++ ·) = .error error) :
        error.isMissing = false := by
      cases hrest : Catalog.substitute parts key values with
      | ok text =>
        rw [hrest] at h
        cases h
      | error other =>
        rw [hrest] at h
        cases h
        exact ih hrest
    cases part with
    | text chars => exact later _ h
    | placeholder name =>
      rw [Catalog.substitute] at h
      split at h
      · cases h
        rfl
      · cases h
        rfl
      · cases h
        rfl
      · exact later _ h

theorem isMissing_replacement {message key : String} {params : Option String}
    {error : TranslationError} (h : Catalog.replacement message key params = .error error) :
    error.isMissing = false := by
  unfold Catalog.replacement at h
  dsimp only at h
  split at h
  · split at h <;> cases h
    rfl
  · split at h
    · cases h
      rfl
    · split at h
      · cases h
        rfl
      · split at h
        · cases h
        · split at h
          · rename_i entries _
            cases htext : Catalog.substitute (Catalog.parts message.toList) key (.object entries) with
            | ok text =>
              rw [htext] at h
              cases h
            | error other =>
              rw [htext] at h
              cases h
              exact isMissing_substitute htext
          · cases h
            rfl
          · cases h

section

variable {messages : LocaleMessages} {arguments : Call.Arguments}

theorem catalogTranslate_of_translate
    (hparse : Call.Arguments.parse call.arguments = .ok arguments)
    (hfunction : call.function = .translate) : Catalog.translate messages context call =
      match Catalog.lookup? messages context arguments.key arguments.locale with
      | none => .error (.unknownKey arguments.key (arguments.locale.getD context.locale))
      | some message => Catalog.replacement message arguments.key arguments.params := by
  unfold Catalog.translate
  rw [hparse, hfunction]
  dsimp only [bind, Except.bind, Except.mapError]
  cases Catalog.lookup? messages context arguments.key arguments.locale <;> rfl

theorem catalogTranslate_of_exists?
    (hparse : Call.Arguments.parse call.arguments = .ok arguments)
    (hfunction : call.function = .exists?) : Catalog.translate messages context call =
      .ok ⟨toString (Catalog.lookup? messages context arguments.key arguments.locale).isSome,
        true⟩ := by
  unfold Catalog.translate
  rw [hparse, hfunction]
  rfl

end

theorem error_of_parse {error : Call.CallError}
    (h : Call.Arguments.parse call.arguments = .error error) :
    translator.translate context call = .error (.call error) := by
  unfold Translator.translate
  cases translator.source with
  | catalog messages =>
    dsimp only
    unfold Catalog.translate
    rw [h]
    rfl
  | fluent catalogs isolating =>
    dsimp only
    unfold Fluent.translate
    rw [h]
    rfl

theorem not_misses_of_exists? (h : call.function = .exists?) : ¬translator.Misses context call := by
  rintro ⟨error, herror, hmissing⟩
  cases hparse : Call.Arguments.parse call.arguments with
  | error other =>
    cases herror.symm.trans (error_of_parse hparse)
    cases hmissing
  | ok arguments =>
    unfold Translator.translate at herror
    split at herror
    · rw [catalogTranslate_of_exists? hparse h] at herror
      cases herror
    · rw [Fluent.translate_of_exists? hparse h] at herror
      cases herror

theorem exists_arguments_iff {arguments : Call.Arguments} {P : Call.Arguments → Prop}
    (hparse : Call.Arguments.parse call.arguments = .ok arguments) :
    (∃ found, Call.Arguments.parse call.arguments = .ok found ∧ P found) ↔ P arguments := by
  simp only [hparse, Except.ok.injEq, exists_eq_left']

theorem misses_iff (h : call.function = .translate) : translator.Misses context call ↔
    translator.Nowhere context call ∨ translator.Dangling context call := by
  obtain ⟨source, names⟩ := translator
  unfold Translator.Nowhere Translator.Dangling
  cases hparse : Call.Arguments.parse call.arguments with
  | error error =>
    simp only [reduceCtorEq, false_and, exists_false, or_self, iff_false]
    rintro ⟨other, herror, hmissing⟩
    cases herror.symm.trans (error_of_parse hparse)
    cases hmissing
  | ok arguments =>
    rw [← hparse, exists_arguments_iff hparse, exists_arguments_iff hparse]
    unfold Translator.Misses Translator.translate
    cases source with
    | catalog messages =>
      dsimp only
      rw [catalogTranslate_of_translate hparse h, or_false]
      cases Catalog.lookup? messages context arguments.key arguments.locale with
      | none => exact ⟨fun _ => rfl, fun _ => ⟨_, rfl, rfl⟩⟩
      | some message =>
        simp only [reduceCtorEq, iff_false]
        rintro ⟨error, herror, hmissing⟩
        rw [isMissing_replacement herror] at hmissing
        cases hmissing
    | fluent catalogs isolating =>
      dsimp only
      rw [Fluent.translate_of_translate hparse h, ← Fluent.isMissing_translationCode_iff]
      cases Fluent.translationCode catalogs isolating context arguments <;> simp [Except.map]

theorem denies_iff : translator.Denies context call ↔
    translator.Nowhere context call ∨ translator.Partless context call := by
  obtain ⟨source, names⟩ := translator
  have hno (answer : Bool) : (Except.ok ⟨toString answer, true⟩ :
      Except TranslationError Replacement) = .ok ⟨"false", true⟩ ↔ answer = false := by
    cases answer <;> decide
  unfold Translator.Denies Translator.Nowhere Translator.Partless
  cases hparse : Call.Arguments.parse call.arguments with
  | error error =>
    rw [@error_of_parse _ _ { call with function := .exists? } _ hparse]
    simp
  | ok arguments =>
    rw [← hparse, exists_arguments_iff hparse, exists_arguments_iff hparse]
    unfold Translator.translate
    cases source with
    | catalog messages =>
      dsimp only
      rw [@catalogTranslate_of_exists? _ { call with function := .exists? } _ _ hparse rfl, hno,
        or_false]
      exact Option.isSome_eq_false_iff.trans Option.isNone_iff_eq_none
    | fluent catalogs isolating =>
      dsimp only
      rw [@Fluent.translate_of_exists? _ _ _ _ { call with function := .exists? } hparse rfl, hno]
      exact Fluent.nowhere_or_partless_iff.symm

theorem not_partless_of_nowhere (h : translator.Nowhere context call) :
    ¬translator.Partless context call := by
  obtain ⟨source, names⟩ := translator
  obtain ⟨arguments, hparse, hnowhere⟩ := h
  rw [Translator.Partless, exists_arguments_iff hparse]
  cases source with
  | catalog messages => exact id
  | fluent catalogs isolating => exact Fluent.not_partless_of_nowhere hnowhere

theorem not_dangling_of_nowhere_or_partless
    (h : translator.Nowhere context call ∨ translator.Partless context call) :
    ¬translator.Dangling context call := by
  obtain ⟨source, names⟩ := translator
  rintro ⟨arguments, hparse, hdangling⟩
  rw [Translator.Nowhere, Translator.Partless, exists_arguments_iff hparse,
    exists_arguments_iff hparse] at h
  cases source with
  | catalog messages => exact hdangling
  | fluent catalogs isolating => exact Fluent.not_dangling_of_nowhere_or_partless h hdangling

theorem misses_iff_denies_iff (h : call.function = .translate) :
    (translator.Misses context call ↔ translator.Denies context call) ↔
      ¬translator.Partless context call ∧ ¬translator.Dangling context call := by
  have hnowhere : translator.Nowhere context call → ¬translator.Partless context call :=
    not_partless_of_nowhere
  have hdangling : translator.Nowhere context call ∨ translator.Partless context call →
      ¬translator.Dangling context call := not_dangling_of_nowhere_or_partless
  rw [misses_iff h, denies_iff]
  tauto

end TemplateMessages.Translation
