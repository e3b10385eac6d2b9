import TemplateMessages.Proofs.Fluent.Fallback

set_option autoImplicit false

/-!
# Missing messages

A call of a key is said to have no translation where no locale has its message, but also where the
message refers to one that is not there. That a key has no translation is said as well where its
message lacks the part that the key asks for.
-/

namespace TemplateMessages.Fluent

open Relation (ReflTransGen)
open TemplateMessages.Translation (TranslationError Context)

def Nowhere (catalogs : LocaleCatalogs) (context : Context) (arguments : Call.Arguments) : Prop :=
  ∀ locale ∈ context.localeChain arguments.locale,
    ¬HasMessage catalogs (splitKey arguments.key).1 locale

/-- The first locale with the message of the key lacks the part that the key asks for. -/
def Partless (catalogs : LocaleCatalogs) (context : Context) (arguments : Call.Arguments) : Prop :=
  FirstLacksPart catalogs (splitKey arguments.key).1 (splitKey arguments.key).2
    (context.localeChain arguments.locale)

/-- The key is found, but its expansion comes to a message that is not there. -/
def Dangling (catalogs : LocaleCatalogs) (isolating : Bool) (context : Context)
    (arguments : Call.Arguments) : Prop :=
  FirstHasPart catalogs (splitKey arguments.key).1 (splitKey arguments.key).2
      (context.localeChain arguments.locale) ∧
    ∃ id, translationCode catalogs isolating context arguments = .error (.unknownMessage id)

variable {catalogs : LocaleCatalogs} {isolating : Bool} {context : Context}
  {arguments : Call.Arguments}

theorem partless_iff_find? : Partless catalogs context arguments ↔
    ∃ locale catalog error,
      find? catalogs context (splitKey arguments.key).1 arguments.locale = some (locale, catalog) ∧
        catalog.pattern (keyReference arguments.key) = .error error := by
  unfold Partless
  constructor
  · rintro ⟨front, locale, back, hchain, hfront, ⟨catalog, hget, hmessage⟩, hpart⟩
    have hfind := find?_eq_some_iff.mpr ⟨hget, hmessage, front, back, hchain, hfront⟩
    cases hpattern : catalog.pattern (keyReference arguments.key) with
    | error error => exact ⟨locale, catalog, error, hfind, hpattern⟩
    | ok pattern =>
      exact absurd ⟨catalog, hget, exists_pattern_iff_carries.mp ⟨pattern, hpattern⟩⟩ hpart
  · rintro ⟨locale, catalog, error, hfind, hpattern⟩
    obtain ⟨hget, hmessage, front, back, hchain, hfront⟩ := find?_eq_some_iff.mp hfind
    refine ⟨front, locale, back, hchain, hfront, ⟨catalog, hget, hmessage⟩, ?_⟩
    rintro ⟨other, hother, hcarries⟩
    cases hget.symm.trans hother
    obtain ⟨pattern, hok⟩ := exists_pattern_iff_carries.mpr hcarries
    cases hpattern.symm.trans hok

theorem nowhere_or_partless_iff : Nowhere catalogs context arguments ∨
    Partless catalogs context arguments ↔ hasTranslation catalogs context arguments = false := by
  rw [← Bool.not_eq_true, hasTranslation_iff, firstHasPart_iff_find?, partless_iff_find?, Nowhere,
    ← find?_eq_none_iff]
  cases find? catalogs context (splitKey arguments.key).1 arguments.locale with
  | none => simp
  | some found =>
    obtain ⟨locale, catalog⟩ := found
    simp only [Option.some.injEq, Prod.mk.injEq, ↓existsAndEq, true_and, reduceCtorEq, false_or]
    cases catalog.pattern (keyReference arguments.key) <;> simp

theorem not_partless_of_nowhere (h : Nowhere catalogs context arguments) :
    ¬Partless catalogs context arguments := by
  rw [partless_iff_find?]
  rintro ⟨locale, catalog, _, hfind, _⟩
  cases (find?_eq_none_iff.mpr h).symm.trans hfind

theorem not_dangling_of_nowhere_or_partless
    (h : Nowhere catalogs context arguments ∨ Partless catalogs context arguments) :
    ¬Dangling catalogs isolating context arguments := by
  rintro ⟨hfound, _⟩
  have hyes := hasTranslation_iff.mpr hfound
  rw [nowhere_or_partless_iff.mp h] at hyes
  cases hyes

theorem isMissing_of_pattern {catalog : Catalog} {id : String} {attr : Option String}
    {error : TranslationError} (h : catalog.pattern (.message id attr) = .error error)
    (hmessage : (catalog.messages.get? id).isSome = true) : error.isMissing = false := by
  rcases error_of_part h hmessage with rfl | rfl <;> rfl

theorem not_isRaised_of_isMissing {error : TranslationError} (h : error.isMissing = true) :
    ¬IsRaised error := by
  cases error <;> first | cases h; done | exact id

theorem isMissing_translationCode_iff :
    (∃ error, translationCode catalogs isolating context arguments = .error error ∧
      error.isMissing = true) ↔
    Nowhere catalogs context arguments ∨ Dangling catalogs isolating context arguments := by
  constructor
  · rintro ⟨error, hcode, hmissing⟩
    obtain ⟨hfind, _⟩ | ⟨locale, catalog, reference, hfind, _, herror⟩ :=
      absent_of_translationCode hcode (not_isRaised_of_isMissing hmissing)
    · exact Or.inl (find?_eq_none_iff.mp hfind)
    · right
      cases hpattern : catalog.pattern (keyReference arguments.key) with
      | ok pattern =>
        refine ⟨firstHasPart_iff_find?.mpr ⟨locale, catalog, hfind, pattern, hpattern⟩, ?_⟩
        have habsence := isAbsence_of_pattern herror
        cases error with
        | unknownMessage id => exact ⟨id, hcode⟩
        | unknownKey key locale => exact habsence.elim
        | _ => cases hmissing
      | error first =>
        have hpart := isMissing_of_pattern hpattern (find?_eq_some_iff.mp hfind).2.1
        cases hcode.symm.trans (translationCode_of_pattern hfind hpattern)
        rw [hmissing] at hpart
        cases hpart
  · rintro (hnowhere | ⟨_, id, hcode⟩)
    · exact ⟨_, translationCode_of_nowhere (find?_eq_none_iff.mpr hnowhere), rfl⟩
    · exact ⟨_, hcode, rfl⟩

end TemplateMessages.Fluent
