import TemplateMessages.Proofs.Fluent.MessageValue
import TemplateMessages.Proofs.Fluent.ReferenceGraph
import TemplateMessages.Proofs.Fluent.ReferenceNames
import TemplateMessages.Proofs.Fluent.Runs

set_option autoImplicit false

/-!
# Cycles of references

An expansion ends, and only references that lead back to themselves make it fail as cyclic: it can
expand one pattern many times over, but none inside itself.
-/

namespace TemplateMessages.Fluent

open Relation (ReflTransGen TransGen)
open TemplateMessages.Translation (TranslationError Context)

/-- Each pattern refers to the one in front of it, from the start on. -/
inductive Catalog.Path (catalog : Catalog) (start : Reference) : List Reference → Prop
  | start : catalog.Path start [start]
  | step {reference outer : Reference} {around : List Reference}
      (haround : catalog.Path start (outer :: around))
      (hrefers : catalog.RefersTo outer reference) :
      catalog.Path start (reference :: outer :: around)

section

variable {catalog : Catalog} {start reference : Reference} {around references : List Reference}

theorem Catalog.Path.reached (h : catalog.Path start references) :
    ∀ reached ∈ references, ReflTransGen catalog.RefersTo start reached := by
  induction h with
  | start =>
    intro reached hreached
    rw [List.mem_singleton.mp hreached]
  | step haround hrefers ih =>
    intro reached hreached
    rcases List.mem_cons.mp hreached with rfl | houter
    · exact (ih _ List.mem_cons_self).tail hrefers
    · exact ih reached houter

theorem Catalog.Path.encloses (h : catalog.Path start (reference :: around)) :
    ∀ outer ∈ around, TransGen catalog.RefersTo outer reference := by
  generalize hall : reference :: around = references at h
  induction h generalizing reference around with
  | start =>
    cases hall
    intro outer houter
    cases houter
  | step haround hrefers ih =>
    cases hall
    intro outer houter
    rcases List.mem_cons.mp houter with rfl | hfar
    · exact .single hrefers
    · exact (ih rfl outer hfar).tail hrefers

end

section

variable {scope : Scope} {around references inside : List Reference} {course : Course Value}
  {count : Nat} {events : List Event} {result : Except TranslationError Value}
  {start reference : Reference}

theorem Runs.path (h : Runs scope around course count events result)
    {given : Option (Table Value)} (hkeeps : course.Keeps given references)
    (hpaths : ∀ other ∈ references, scope.catalog.Path start (other :: around)) :
    .enters inside reference ∈ events →
      scope.catalog.Path start (reference :: inside) ∧
        ∃ pattern, scope.catalog.pattern reference = .ok pattern := by
  induction h generalizing references given with
  | done value => exact fun h => absurd h List.not_mem_nil
  | fail error => exact fun h => absurd h List.not_mem_nil
  | placeable _ _ ih =>
    intro hmem
    rcases List.mem_cons.mp hmem with hhead | htail
    · cases hhead
    · exact ih hkeeps hpaths htail
  | overLimit _ => exact fun h => by cases List.mem_singleton.mp h
  | param _ _ ih => exact ih (hkeeps.2 _) hpaths
  | noParam _ => exact fun h => absurd h List.not_mem_nil
  | noPattern _ => exact fun h => absurd h List.not_mem_nil
  | cyclic hpattern _ =>
    intro hmem
    cases List.mem_singleton.mp hmem
    exact ⟨hpaths reference hkeeps.1.1, _, hpattern⟩
  | failsInside hpattern _ _ ih =>
    intro hmem
    rcases List.mem_cons.mp hmem with hhead | hinside
    · cases hhead
      exact ⟨hpaths reference hkeeps.1.1, _, hpattern⟩
    · exact ih (keeps_patternCourse _ _ _)
        (fun other hother => (hpaths _ hkeeps.1.1).step ⟨_, hpattern, hother⟩) hinside
  | follow hpattern _ _ _ ih ihnext =>
    intro hmem
    rcases List.mem_cons.mp hmem with hhead | hmore
    · cases hhead
      exact ⟨hpaths reference hkeeps.1.1, _, hpattern⟩
    · rcases List.mem_append.mp hmore with hinside | hlater
      · exact ih (keeps_patternCourse _ _ _)
          (fun other hother => (hpaths _ hkeeps.1.1).step ⟨_, hpattern, hother⟩) hinside
      · exact ihnext (hkeeps.2 _) hpaths hlater

theorem Runs.cyclic_of_reentered (h : Runs scope around course count events result)
    (hinside : reference.name ∈ inside.map Reference.name) :
    .enters inside reference ∈ events → result = .error (.cyclicReference reference.name) := by
  induction h with
  | done value => exact fun h => absurd h List.not_mem_nil
  | fail error => exact fun h => absurd h List.not_mem_nil
  | placeable _ _ ih =>
    intro hmem
    rcases List.mem_cons.mp hmem with hhead | htail
    · cases hhead
    · exact ih htail
  | overLimit _ => exact fun h => by cases List.mem_singleton.mp h
  | param _ _ ih => exact ih
  | noParam _ => exact fun h => absurd h List.not_mem_nil
  | noPattern _ => exact fun h => absurd h List.not_mem_nil
  | cyclic _ _ =>
    intro hmem
    cases List.mem_singleton.mp hmem
    rfl
  | failsInside _ haround _ ih =>
    intro hmem
    rcases List.mem_cons.mp hmem with hhead | htail
    · cases hhead
      exact absurd hinside haround
    · exact ih htail
  | follow _ haround _ _ ih ihnext =>
    intro hmem
    rcases List.mem_cons.mp hmem with hhead | hmore
    · cases hhead
      exact absurd hinside haround
    · rcases List.mem_append.mp hmore with hwithin | hlater
      · cases ih hwithin
      · exact ihnext hlater

theorem Runs.reentered_of_cyclic {name : String}
    (h : Runs scope around course count events (.error (.cyclicReference name)))
    {given : Option (Table Value)} (hkeeps : course.Keeps given references) :
    ∃ inside reference, .enters inside reference ∈ events ∧ reference.name = name ∧
      name ∈ inside.map Reference.name := by
  generalize hresult : Except.error (TranslationError.cyclicReference name) = result at h
  induction h generalizing references given with
  | done value => cases hresult
  | fail error =>
    cases hresult
    exact hkeeps.elim
  | placeable _ _ ih =>
    obtain ⟨inside, reference, hmem, hname⟩ := ih hkeeps hresult
    exact ⟨inside, reference, List.mem_cons_of_mem _ hmem, hname⟩
  | overLimit _ => cases hresult
  | param _ _ ih => exact ih (hkeeps.2 _) hresult
  | noParam _ => cases hresult
  | noPattern hpattern =>
    cases hresult
    exact (isAbsence_of_pattern hpattern).elim
  | cyclic _ haround =>
    cases hresult
    exact ⟨_, _, List.mem_singleton_self _, rfl, haround⟩
  | failsInside _ _ _ ih =>
    obtain ⟨inside, reference, hmem, hname⟩ := ih (keeps_patternCourse _ _ _) hresult
    exact ⟨inside, reference, List.mem_cons_of_mem _ hmem, hname⟩
  | follow _ _ _ _ _ ihnext =>
    obtain ⟨inside, reference, hmem, hname⟩ := ihnext (hkeeps.2 _) hresult
    exact ⟨inside, reference, List.mem_cons_of_mem _ (List.mem_append_right _ hmem), hname⟩

end

theorem keeps_follow {start : Reference} (hmessage : start.IsMessage) :
    (Course.follow start none Course.done).Keeps none [start] :=
  ⟨⟨List.mem_singleton_self start, fun _ => hmessage⟩, fun _ => trivial⟩

section

variable {scope : Scope} {start : Reference} {events : List Event}
  {result : Except TranslationError Value}

theorem Runs.ne_cyclicReference (hidentified : scope.catalog.Identified)
    (hmessage : start.IsMessage) (hacyclic : scope.catalog.Acyclic start)
    (h : Runs scope [] (.follow start none .done) 0 events result) (name : String) :
    result ≠ .error (.cyclicReference name) := by
  rintro rfl
  obtain ⟨inside, reference, hmem, hname, hinside⟩ := h.reentered_of_cyclic (keeps_follow hmessage)
  obtain ⟨outer, houter, houterName⟩ := List.mem_map.mp hinside
  have hpaths : ∀ other ∈ [start], scope.catalog.Path start [other] := by
    intro other hother
    rw [List.mem_singleton.mp hother]
    exact .start
  obtain ⟨hpath, pattern, hpattern⟩ := h.path (keeps_follow hmessage) hpaths hmem
  have hencloses := hpath.encloses outer houter
  -- what is around the reference refers to something, so that it is in the catalog as well
  obtain ⟨_, ⟨outerPattern, houterPattern, _⟩, _⟩ := TransGen.head'_iff.mp hencloses
  have hid := hidentified.id hpattern
  obtain rfl := name_inj (hidentified.id houterPattern) hid (houterName.trans hname.symm)
  exact hacyclic outer (hpath.reached outer List.mem_cons_self) hencloses

theorem exists_runs_expand (scope : Scope) (start : Reference) :
    ∃ events result, Runs scope [] (.follow start none .done) 0 events result ∧
      expand scope start = result := by
  obtain ⟨events, result, hruns, hrun⟩ :=
    @exists_runs scope [] (.follow start none .done) 0 (maxPlaceables + 1) (Nat.zero_le _)
      (Or.inl (by omega))
  refine ⟨events, result, hruns, ?_⟩
  have hfollow : (expandReference scope [] (maxPlaceables + 1) start none >>= pure) 0 =
      result.map fun value => (value, 0 + placeables events) := hrun
  rw [bind_pure] at hfollow
  unfold expand
  change (expandReference scope [] (maxPlaceables + 1) start none 0).map Prod.fst = result
  rw [hfollow]
  cases result <;> rfl

end

/-- What is done for a call: its message is looked up, its params are read, and the pattern is
expanded. -/
inductive CallRuns (catalogs : LocaleCatalogs) (isolating : Bool) (context : Context)
    (arguments : Call.Arguments) : List Event → Except TranslationError Value → Prop
  | unknown (hfind : find? catalogs context (splitKey arguments.key).1 arguments.locale = none) :
      CallRuns catalogs isolating context arguments [] (.error (.unknownMessage arguments.key))
  | noPattern {locale : String} {catalog : Catalog} {error : TranslationError}
      (hfind : find? catalogs context (splitKey arguments.key).1 arguments.locale =
        some (locale, catalog))
      (hpattern : catalog.pattern (keyReference arguments.key) = .error error) :
      CallRuns catalogs isolating context arguments [] (.error error)
  | noParams {locale : String} {catalog : Catalog} {pattern : Pattern} {error : TranslationError}
      (hfind : find? catalogs context (splitKey arguments.key).1 arguments.locale =
        some (locale, catalog))
      (hpattern : catalog.pattern (keyReference arguments.key) = .ok pattern)
      (hparams : paramValues arguments.params = .error error) :
      CallRuns catalogs isolating context arguments [] (.error error)
  | expands {locale : String} {catalog : Catalog} {pattern : Pattern} {params : Table Value}
      {events : List Event} {result : Except TranslationError Value}
      (hfind : find? catalogs context (splitKey arguments.key).1 arguments.locale =
        some (locale, catalog))
      (hpattern : catalog.pattern (keyReference arguments.key) = .ok pattern)
      (hparams : paramValues arguments.params = .ok params)
      (hruns : Runs ⟨catalog, locale, arguments.key, params, isolating⟩ []
        (.follow (keyReference arguments.key) none .done) 0 events result) :
      CallRuns catalogs isolating context arguments events result

section

variable {catalogs : LocaleCatalogs} {isolating : Bool} {context : Context}
  {arguments : Call.Arguments} {events : List Event} {result : Except TranslationError Value}

theorem CallRuns.unique {others : List Event} {other : Except TranslationError Value}
    (h : CallRuns catalogs isolating context arguments events result)
    (h' : CallRuns catalogs isolating context arguments others other) :
    others = events ∧ other = result := by
  -- What is looked up is the same for both, so they take the same way.
  cases h with
  | unknown hfind =>
    cases h' with
    | unknown _ => exact ⟨rfl, rfl⟩
    | noPattern hfind' _ => cases hfind.symm.trans hfind'
    | noParams hfind' _ _ => cases hfind.symm.trans hfind'
    | expands hfind' _ _ _ => cases hfind.symm.trans hfind'
  | noPattern hfind hpattern =>
    cases h' with
    | unknown hfind' => cases hfind.symm.trans hfind'
    | noPattern hfind' hpattern' =>
      cases hfind.symm.trans hfind'
      cases hpattern.symm.trans hpattern'
      exact ⟨rfl, rfl⟩
    | noParams hfind' hpattern' _ =>
      cases hfind.symm.trans hfind'
      cases hpattern.symm.trans hpattern'
    | expands hfind' hpattern' _ _ =>
      cases hfind.symm.trans hfind'
      cases hpattern.symm.trans hpattern'
  | noParams hfind hpattern hparams =>
    cases h' with
    | unknown hfind' => cases hfind.symm.trans hfind'
    | noPattern hfind' hpattern' =>
      cases hfind.symm.trans hfind'
      cases hpattern.symm.trans hpattern'
    | noParams _ _ hparams' =>
      cases hparams.symm.trans hparams'
      exact ⟨rfl, rfl⟩
    | expands _ _ hparams' _ => cases hparams.symm.trans hparams'
  | expands hfind hpattern hparams hruns =>
    cases h' with
    | unknown hfind' => cases hfind.symm.trans hfind'
    | noPattern hfind' hpattern' =>
      cases hfind.symm.trans hfind'
      cases hpattern.symm.trans hpattern'
    | noParams _ _ hparams' => cases hparams.symm.trans hparams'
    | expands hfind' _ hparams' hruns' =>
      cases hfind.symm.trans hfind'
      cases hparams.symm.trans hparams'
      exact hruns.unique hruns'

theorem exists_callRuns (catalogs : LocaleCatalogs) (isolating : Bool) (context : Context)
    (arguments : Call.Arguments) :
    ∃ events result, CallRuns catalogs isolating context arguments events result ∧
      translationCode catalogs isolating context arguments = result.map resultCode := by
  rw [translationCode_eq]
  unfold messageValue
  dsimp only
  cases hfind : find? catalogs context (splitKey arguments.key).1 arguments.locale with
  | none => exact ⟨[], _, .unknown hfind, rfl⟩
  | some found =>
    obtain ⟨locale, catalog⟩ := found
    dsimp only
    change ∃ events result, _ ∧
      (catalog.pattern (keyReference arguments.key) >>= fun _ => _).map _ = _
    cases hpattern : catalog.pattern (keyReference arguments.key) with
    | error error => exact ⟨[], _, .noPattern hfind hpattern, rfl⟩
    | ok pattern =>
      cases hparams : paramValues arguments.params with
      | error error => exact ⟨[], _, .noParams hfind hpattern hparams, rfl⟩
      | ok params =>
        obtain ⟨events, result, hruns, hexpand⟩ :=
          exists_runs_expand ⟨catalog, locale, arguments.key, params, isolating⟩
            (keyReference arguments.key)
        refine ⟨events, result, .expands hfind hpattern hparams hruns, ?_⟩
        rw [← hexpand]
        rfl

theorem CallRuns.placeables_le (h : CallRuns catalogs isolating context arguments events result) :
    placeables events ≤ maxPlaceables + 1 := by
  cases h with
  | unknown _ => exact Nat.zero_le _
  | noPattern _ _ => exact Nat.zero_le _
  | noParams _ _ _ => exact Nat.zero_le _
  | expands _ _ _ hruns =>
    have hwithin := (hruns.placeables_le (Nat.zero_le maxPlaceables)).2
    rwa [Nat.zero_add] at hwithin

theorem paramValues_ne_cyclicReference (params : Option String) (name : String) :
    paramValues params ≠ .error (.cyclicReference name) := by
  intro h
  unfold paramValues at h
  split at h
  · cases h
  · split at h <;> cases h

theorem CallRuns.ne_cyclicReference (hread : ∀ entry ∈ catalogs, ∃ text, (parse text).1 = entry.2)
    (h : CallRuns catalogs isolating context arguments events result)
    (hacyclic : ∀ locale catalog,
      find? catalogs context (splitKey arguments.key).1 arguments.locale = some (locale, catalog) →
        catalog.Acyclic (keyReference arguments.key)) (name : String) :
    result ≠ .error (.cyclicReference name) := by
  cases h with
  | unknown _ => exact fun h => by cases h
  | noPattern _ hpattern =>
    rintro ⟨⟩
    exact (isAbsence_of_pattern hpattern).elim
  | noParams _ _ hparams =>
    rintro ⟨⟩
    exact paramValues_ne_cyclicReference _ name hparams
  | expands hfind _ _ hruns =>
    obtain ⟨entry, hentry, hcatalog⟩ := mem_of_find? hfind
    obtain ⟨text, htext⟩ := hread entry hentry
    have hidentified := identified_parse text
    rw [htext, hcatalog] at hidentified
    have hmessage : (keyReference arguments.key).IsMessage := trivial
    exact hruns.ne_cyclicReference hidentified hmessage (hacyclic _ _ hfind) name

theorem CallRuns.cyclic_of_reentered
    (h : CallRuns catalogs isolating context arguments events result) {around : List Reference}
    {reference : Reference} (hmem : .enters around reference ∈ events)
    (haround : reference ∈ around) : result = .error (.cyclicReference reference.name) := by
  cases h with
  | unknown _ => cases hmem
  | noPattern _ _ => cases hmem
  | noParams _ _ _ => cases hmem
  | expands _ _ _ hruns =>
    exact hruns.cyclic_of_reentered (List.mem_map_of_mem haround) hmem

/-- A translation is one finite run of at most 101 placeables. It fails where it comes to a pattern
inside itself, and is not called cyclic where no pattern can be reached from itself. -/
theorem translationCode_ends (hread : ∀ entry ∈ catalogs, ∃ text, (parse text).1 = entry.2) :
    ∃ events result,
      (∀ others other, CallRuns catalogs isolating context arguments others other ↔
        others = events ∧ other = result) ∧
      translationCode catalogs isolating context arguments = result.map resultCode ∧
      placeables events ≤ 101 ∧
      ((∀ locale catalog,
        find? catalogs context (splitKey arguments.key).1 arguments.locale =
          some (locale, catalog) → catalog.Acyclic (keyReference arguments.key)) →
        ∀ name, translationCode catalogs isolating context arguments ≠
          .error (.cyclicReference name)) ∧
      ∀ around reference, .enters around reference ∈ events → reference ∈ around →
        translationCode catalogs isolating context arguments =
          .error (.cyclicReference reference.name) := by
  obtain ⟨events, result, hruns, hcode⟩ := exists_callRuns catalogs isolating context arguments
  refine ⟨events, result, ?_, hcode, hruns.placeables_le, ?_, ?_⟩
  · intro others other
    constructor
    · exact hruns.unique
    · rintro ⟨rfl, rfl⟩
      exact hruns
  · intro hacyclic name h
    have hne := hruns.ne_cyclicReference hread hacyclic name
    rw [hcode] at h
    cases result with
    | error error =>
      cases h
      exact hne rfl
    | ok value => cases h
  · intro around reference hmem haround
    rw [hcode, hruns.cyclic_of_reentered hmem haround]
    rfl

def ring : LocaleCatalogs :=
  [("en", (parse "ping = \x7b pong \x7d\npong = \x7b ping \x7d".toList).1)]

theorem translationCode_ends_ring :
    (∀ entry ∈ ring, ∃ text, (parse text).1 = entry.2) ∧
      translationCode ring false ⟨"en", "", []⟩ ⟨"ping", none, none⟩ =
        .error (.cyclicReference "ping") ∧
      ∃ locale catalog, find? ring ⟨"en", "", []⟩ "ping" none = some (locale, catalog) ∧
        ¬catalog.Acyclic (.message "ping" none) := by
  have hread : ∀ entry ∈ ring, ∃ text, (parse text).1 = entry.2 := by
    intro entry hentry
    rw [List.mem_singleton.mp hentry]
    exact ⟨_, rfl⟩
  have hcode : translationCode ring false ⟨"en", "", []⟩ ⟨"ping", none, none⟩ =
      .error (.cyclicReference "ping") := by decide +kernel
  refine ⟨hread, hcode, ?_⟩
  obtain ⟨events, result, -, -, -, hcyclic, -⟩ :=
    @translationCode_ends ring false ⟨"en", "", []⟩ ⟨"ping", none, none⟩ hread
  by_contra hnone
  refine hcyclic (fun locale catalog hfind => ?_) "ping" hcode
  by_contra hlaps
  exact hnone ⟨locale, catalog, hfind, hlaps⟩

end

end TemplateMessages.Fluent
