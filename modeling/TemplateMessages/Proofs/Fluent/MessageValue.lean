import TemplateMessages.Proofs.Fluent.ExpandedValues

set_option autoImplicit false

/-!
# Values of messages

The value of the message that a call asks for is built of constants and of the source texts of the
call's params.
-/

namespace TemplateMessages.Fluent

open TemplateMessages.Expression (objectEntries)
open TemplateMessages.Translation (TranslationError Context Replacement)

/-- The source texts of the values in the params. -/
def paramSources (params : Option String) : List String :=
  ((params.bind objectEntries).getD []).map (·.2)

/-- The pattern that a key names. -/
def keyReference (key : String) : Reference :=
  .message (splitKey key).1 (splitKey key).2

def messageValue (catalogs : LocaleCatalogs) (isolating : Bool) (context : Context)
    (arguments : Call.Arguments) : Except TranslationError Value := do
  let (id, attr) := splitKey arguments.key
  match find? catalogs context id arguments.locale with
  | none => throw (.unknownMessage arguments.key)
  | some (locale, catalog) =>
    let reference := Reference.message id attr
    let _ ← catalog.pattern reference
    let params ← paramValues arguments.params
    expand ⟨catalog, locale, arguments.key, params, isolating⟩ reference

variable {catalogs : LocaleCatalogs} {isolating : Bool} {context : Context}
  {arguments : Call.Arguments}

theorem translationCode_eq :
    translationCode catalogs isolating context arguments =
      (messageValue catalogs isolating context arguments).map resultCode := by
  unfold translationCode messageValue
  obtain ⟨id, attr⟩ := splitKey arguments.key
  dsimp only
  cases find? catalogs context id arguments.locale with
  | none => rfl
  | some found =>
    obtain ⟨locale, catalog⟩ := found
    dsimp only
    cases catalog.pattern (.message id attr) with
    | error error => rfl
    | ok pattern =>
      cases paramValues arguments.params with
      | error error => rfl
      | ok params =>
        change (expand _ _ >>= fun value => pure (resultCode value)) = (expand _ _).map resultCode
        cases expand ⟨catalog, locale, arguments.key, params, isolating⟩ (.message id attr) <;> rfl

theorem built_paramValue {sources : List String} {source : String} (h : source ∈ sources) :
    (paramValue source).Built sources := by
  unfold paramValue
  split
  · exact .text _
  · exact .number _
  · exact .source h

theorem built_paramValues {params : Option String} {values : Table Value}
    (h : paramValues params = .ok values) :
    ∀ entry ∈ values, entry.2.Built (paramSources params) := by
  cases params with
  | none =>
    cases h
    intro entry hentry
    cases hentry
  | some params =>
    unfold paramValues at h
    dsimp only at h
    split at h
    · cases h
    · rename_i entries hentries
      cases h
      intro entry hentry
      obtain ⟨given, hgiven, rfl⟩ := List.mem_map.mp (Table.mem_ofList hentry)
      apply built_paramValue
      rw [paramSources, Option.bind_some, hentries]
      exact List.mem_map_of_mem hgiven

theorem mem_of_find? {id locale : String} {asked : Option String} {catalog : Catalog}
    (h : find? catalogs context id asked = some (locale, catalog)) :
    ∃ entry ∈ catalogs, entry.2 = catalog := by
  obtain ⟨tried, _, htried⟩ := List.exists_of_findSome?_eq_some h
  split at htried
  · cases htried
  · rename_i found hget
    split at htried
    · cases htried
      exact Table.mem_of_get? hget
    · cases htried

theorem expand_of_messageValue {value : Value}
    (h : messageValue catalogs isolating context arguments = .ok value) :
    ∃ locale catalog params,
      find? catalogs context (splitKey arguments.key).1 arguments.locale = some (locale, catalog) ∧
        paramValues arguments.params = .ok params ∧
        expand ⟨catalog, locale, arguments.key, params, isolating⟩ (keyReference arguments.key) =
          .ok value := by
  unfold messageValue at h
  dsimp only at h
  cases hfind : find? catalogs context (splitKey arguments.key).1 arguments.locale with
  | none =>
    rw [hfind] at h
    cases h
  | some found =>
    obtain ⟨locale, catalog⟩ := found
    rw [hfind] at h
    dsimp only at h
    cases hpattern : catalog.pattern (keyReference arguments.key) with
    | error error =>
      rw [keyReference] at hpattern
      rw [hpattern] at h
      cases h
    | ok pattern =>
      rw [keyReference] at hpattern
      rw [hpattern] at h
      cases hparams : paramValues arguments.params with
      | error error =>
        rw [hparams] at h
        cases h
      | ok params =>
        rw [hparams] at h
        exact ⟨locale, catalog, params, rfl, rfl, h⟩

theorem built_messageValue (hcatalogs : ∀ entry ∈ catalogs, entry.2.Plain) {value : Value}
    (h : messageValue catalogs isolating context arguments = .ok value) :
    value.Built (paramSources arguments.params) := by
  obtain ⟨locale, catalog, params, hfind, hparams, hexpand⟩ := expand_of_messageValue h
  obtain ⟨entry, hentry, rfl⟩ := mem_of_find? hfind
  exact built_of_expand (hcatalogs entry hentry) (built_paramValues hparams) hexpand

theorem code_of_translate {candidate : Call.Candidate} {replacement : Replacement}
    (h : translate catalogs isolating context candidate = .ok replacement) :
    ∃ arguments, Call.Arguments.parse candidate.arguments = .ok arguments ∧
      ((candidate.function = .exists? ∧ ∃ answer : Bool, replacement.code = toString answer) ∨
        candidate.function = .translate ∧ ∃ value,
          messageValue catalogs isolating context arguments = .ok value ∧
            replacement.code = resultCode value) := by
  unfold translate at h
  cases hparse : Call.Arguments.parse candidate.arguments with
  | error error =>
    rw [hparse] at h
    cases h
  | ok arguments =>
    refine ⟨arguments, rfl, ?_⟩
    rw [hparse] at h
    cases hfunction : candidate.function with
    | exists? =>
      rw [hfunction] at h
      cases h
      exact Or.inl ⟨rfl, _, rfl⟩
    | translate =>
      rw [hfunction] at h
      dsimp only [bind, Except.bind, Except.mapError] at h
      rw [translationCode_eq] at h
      cases hvalue : messageValue catalogs isolating context arguments with
      | error error =>
        rw [hvalue] at h
        cases h
      | ok value =>
        rw [hvalue] at h
        cases h
        exact Or.inr ⟨rfl, value, rfl, rfl⟩

end TemplateMessages.Fluent
