import TemplateMessages.Proofs.Fluent.Cycles

set_option autoImplicit false

/-!
# References to what is absent

An expansion fails for an absent message, attribute or value only where it comes to a reference that
the catalog cannot follow. The first reference is the key of the call, whose pattern is there; any
other one stands in a pattern, and is not what the key names.
-/

namespace TemplateMessages.Fluent

open Relation (ReflTransGen)
open TemplateMessages.Translation (TranslationError Context)

mutual

theorem isIdentifier_inlineReferences : (inline : Inline) → inline.Plain →
    ∀ reference ∈ inlineReferences inline, IsIdentifier reference.id
  | .string raw, _ => by
    rw [inlineReferences]
    exact fun _ h => nomatch h
  | .number text, _ => by
    rw [inlineReferences]
    exact fun _ h => nomatch h
  | .variable name, _ => by
    rw [inlineReferences]
    exact fun _ h => nomatch h
  | .message id attr, h => by
    rw [inlineReferences]
    intro reference hreference
    rw [List.mem_singleton.mp hreference]
    cases h with
    | message _ _ hid => exact hid
  | .term id attr none, h => by
    rw [inlineReferences]
    intro reference hreference
    rw [List.mem_singleton.mp hreference]
    cases h with
    | term _ hid _ => exact hid
  | .term id attr (some (.mk positional named)), h => by
    rw [inlineReferences]
    cases h with
    | term _ hid hgiven =>
      obtain ⟨_, _, hnamed⟩ := hgiven _ rfl
      intro reference hreference
      rcases List.mem_cons.mp hreference with rfl | hmore
      · exact hid
      · exact isIdentifier_namedReferences named hnamed reference hmore
  | .function name (.mk positional named), h => by
    rw [inlineReferences.eq_def]
    cases h with
    | function _ hgiven =>
      obtain ⟨hpositional, _, hnamed⟩ := hgiven
      intro reference hreference
      rcases List.mem_append.mp hreference with hfirst | hmore
      · match positional with
        | [] => cases hfirst
        | first :: _ =>
          exact isIdentifier_inlineReferences first (hpositional first List.mem_cons_self)
            reference hfirst
      · exact isIdentifier_namedReferences named hnamed reference hmore
  | .placeable expression, h => by
    rw [inlineReferences]
    cases h with
    | placeable hexpression => exact isIdentifier_expressionReferences expression hexpression

theorem isIdentifier_namedReferences : (named : List (String × Inline)) →
    (∀ entry ∈ named, entry.2.Plain) →
      ∀ reference ∈ namedReferences named, IsIdentifier reference.id
  | [], _ => by
    rw [namedReferences]
    exact fun _ h => nomatch h
  | (name, value) :: named, h => by
    rw [namedReferences]
    intro reference hreference
    rcases List.mem_append.mp hreference with hvalue | hmore
    · exact isIdentifier_inlineReferences value (h (name, value) List.mem_cons_self) reference hvalue
    · exact isIdentifier_namedReferences named (fun entry hentry => h entry (.tail _ hentry))
        reference hmore

theorem isIdentifier_expressionReferences : (expression : Expression) → expression.Plain →
    ∀ reference ∈ expressionReferences expression, IsIdentifier reference.id
  | .inline value, h => by
    rw [expressionReferences]
    cases h with
    | inline hvalue => exact isIdentifier_inlineReferences value hvalue
  | .select selector variants, h => by
    rw [expressionReferences]
    cases h with
    | select hselector hvariants =>
      intro reference hreference
      rcases List.mem_append.mp hreference with hfirst | hmore
      · exact isIdentifier_inlineReferences selector hselector reference hfirst
      · exact isIdentifier_variantsReferences variants hvariants reference hmore

theorem isIdentifier_variantsReferences : (variants : List Variant) →
    (∀ variant ∈ variants, variant.Plain) →
      ∀ reference ∈ variantsReferences variants, IsIdentifier reference.id
  | [], _ => by
    rw [variantsReferences]
    exact fun _ h => nomatch h
  | .mk key isDefault value :: variants, h => by
    rw [variantsReferences]
    intro reference hreference
    rcases List.mem_append.mp hreference with hvalue | hmore
    · have hplain : PlainPattern value := by
        cases h _ List.mem_cons_self with
        | mk _ _ hvalue => exact hvalue
      exact isIdentifier_patternReferences value hplain reference hvalue
    · exact isIdentifier_variantsReferences variants
        (fun variant hvariant => h variant (.tail _ hvariant)) reference hmore

theorem isIdentifier_patternReferences : (elements : List Element) → PlainPattern elements →
    ∀ reference ∈ patternReferences elements, IsIdentifier reference.id
  | [], _ => by
    rw [patternReferences]
    exact fun _ h => nomatch h
  | .text value :: elements, h => by
    rw [patternReferences]
    exact isIdentifier_patternReferences elements fun element helement => h element (.tail _ helement)
  | .placeable expression :: elements, h => by
    rw [patternReferences]
    intro reference hreference
    rcases List.mem_append.mp hreference with hfirst | hmore
    · have hexpression : expression.Plain := by
        cases h _ List.mem_cons_self with
        | placeable hexpression => exact hexpression
      exact isIdentifier_expressionReferences expression hexpression reference hfirst
    · exact isIdentifier_patternReferences elements
        (fun element helement => h element (.tail _ helement)) reference hmore

end

theorem Catalog.Plain.isIdentifier {catalog : Catalog} (h : catalog.Plain)
    {reference other : Reference} (hrefers : catalog.RefersTo reference other) :
    IsIdentifier other.id := by
  obtain ⟨pattern, hpattern, hmem⟩ := hrefers
  exact isIdentifier_patternReferences pattern (h.pattern hpattern) other hmem

def IsRaised : TranslationError → Prop
  | .call _ => True
  | .unknownVariable _ => True
  | .tooManyPlaceables _ _ => True
  | .cyclicReference _ => True
  | error => IsLocal error

theorem isRaised_of_isLocal {error : TranslationError} (h : IsLocal error) : IsRaised error := by
  cases error <;> first | exact h | exact trivial

/-- What is not there, when the error says so of a message, an attribute or the value of a message. -/
def absentName? : TranslationError → Option String
  | .unknownMessage id => some id
  | .unknownAttribute name => some name
  | .noValue id => some id
  | _ => none

theorem not_isRaised_of_absentName? {error : TranslationError} {name : String}
    (h : absentName? error = some name) : ¬IsRaised error := by
  cases error <;> first | cases h; done | exact id

theorem Runs.exists_absent {scope : Scope} {around references : List Reference}
    {course : Course Value} {count : Nat} {events : List Event} {error : TranslationError}
    (h : Runs scope around course count events (.error error))
    {given : Option (Table Value)} (hkeeps : course.Keeps given references)
    (hraised : ¬IsRaised error) :
    ∃ start ∈ references, ∃ reference, ReflTransGen scope.catalog.RefersTo start reference ∧
      scope.catalog.pattern reference = .error error := by
  generalize hresult : Except.error error = result at h
  induction h generalizing references given with
  | done value => cases hresult
  | fail other =>
    cases hresult
    exact absurd (isRaised_of_isLocal hkeeps) hraised
  | placeable _ _ ih => exact ih hkeeps hresult
  | overLimit _ =>
    cases hresult
    exact absurd trivial hraised
  | param _ _ ih => exact ih (hkeeps.2 _) hresult
  | noParam _ =>
    cases hresult
    exact absurd trivial hraised
  | noPattern hpattern =>
    cases hresult
    exact ⟨_, hkeeps.1.1, _, .refl, hpattern⟩
  | cyclic _ _ =>
    cases hresult
    exact absurd trivial hraised
  | failsInside hpattern _ _ ih =>
    obtain ⟨start, hstart, reference, hreached, herror⟩ := ih (keeps_patternCourse _ _ _) hresult
    exact ⟨_, hkeeps.1.1, reference, .head ⟨_, hpattern, hstart⟩ hreached, herror⟩
  | follow _ _ _ _ _ ihnext => exact ihnext (hkeeps.2 _) hresult

section

variable {catalogs : LocaleCatalogs} {isolating : Bool} {context : Context}
  {arguments : Call.Arguments} {error : TranslationError}

/-- A call that fails with an error it does not raise has no locale with its message, or the catalog
where its message is found lacks something that can be reached from the key. -/
theorem absent_of_translationCode
    (h : translationCode catalogs isolating context arguments = .error error)
    (hraised : ¬IsRaised error) :
    (find? catalogs context (splitKey arguments.key).1 arguments.locale = none ∧
      error = .unknownMessage arguments.key) ∨
    ∃ locale catalog reference,
      find? catalogs context (splitKey arguments.key).1 arguments.locale = some (locale, catalog) ∧
        ReflTransGen catalog.RefersTo (keyReference arguments.key) reference ∧
          catalog.pattern reference = .error error := by
  obtain ⟨events, result, hruns, hcode⟩ :=
    exists_callRuns catalogs isolating context arguments
  rw [h] at hcode
  cases result with
  | ok value => cases hcode
  | error other =>
    cases hcode
    cases hruns with
    | unknown hfind => exact Or.inl ⟨hfind, rfl⟩
    | noPattern hfind hpattern => exact Or.inr ⟨_, _, _, hfind, .refl, hpattern⟩
    | noParams _ _ hparams =>
      unfold paramValues at hparams
      split at hparams
      · cases hparams
      · split at hparams
        · cases hparams
          exact absurd trivial hraised
        · cases hparams
    | expands hfind _ _ hruns =>
      obtain ⟨start, hstart, reference, hreached, herror⟩ :=
        hruns.exists_absent (keeps_follow trivial) hraised
      obtain rfl := List.mem_singleton.mp hstart
      exact Or.inr ⟨_, _, reference, hfind, hreached, herror⟩

end

end TemplateMessages.Fluent
