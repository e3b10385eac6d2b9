import TemplateMessages.Proofs.Template.SiteSpans

set_option autoImplicit false

/-!
# Every call is replaced or skipped

The calls of a template are those that have a translation and those that have none. The former stand
in the edits, the latter are apart from all edits, and no two edits overlap.
-/

namespace TemplateMessages.Template

open TemplateMessages.Call (Candidate FunctionNames)
open TemplateMessages.Markup
open TemplateMessages.Text
open TemplateMessages.Translation

def Site.calls (source : List Char) (names : FunctionNames) (site : Site) : List Candidate :=
  Call.candidates names (site.inner.slice source) site.inner.start site.place

def translatedCalls (translate : Candidate → Except TranslationError Replacement)
    (calls : List Candidate) : List Candidate :=
  calls.filter fun call => (translate call).toBool

/-- The calls without a translation, with their errors. -/
def failedCalls (translate : Candidate → Except TranslationError Replacement)
    (calls : List Candidate) : List SkippedCall :=
  calls.filterMap fun call => skippedCall? (call, translate call)

/-- The edits of the calls, before they are fitted to their site. -/
def callEdits (translate : Candidate → Except TranslationError Replacement)
    (calls : List Candidate) : List Edit :=
  calls.filterMap fun call => callEdit? (call, translate call)

def Site.fitted : Site → Edit → Edit
  | .interpolation _, edit => edit
  | .binding _ value, edit => ⟨edit.span, escapeQuote value.quote edit.replacement⟩

/-- The code of a site whose expression is a constant text. -/
def Site.constant : Site → String → String
  | .interpolation _, text => escapeQuotes text
  | .binding attr _, text => attr.staticName ++ "=\x22" ++ escapeQuotes text ++ "\x22"

/-- The edit brings in the translation of the call, either in its place or in the constant that the
expression around it is. -/
inductive Delivers (source : List Char) (region : Span) (names : FunctionNames)
    (translate : Candidate → Except TranslationError Replacement) (call : Candidate) : Edit → Prop
  | alone {site : Site} {replacement : Replacement} (member : site ∈ sites source region)
      (found : call ∈ site.calls source names) (translated : translate call = .ok replacement) :
      Delivers source region names translate call (site.fitted ⟨call.span, replacement.code⟩)
  | constant {site : Site} {text : String} (member : site ∈ sites source region)
      (found : call ∈ translatedCalls translate (site.calls source names))
      (evaluated : constantText? source site.inner
        (callEdits translate (site.calls source names)) = some text) :
      Delivers source region names translate call ⟨site.whole, site.constant text⟩

variable {source chars : List Char} {region : Span} {names : FunctionNames}
  {translate : Candidate → Except TranslationError Replacement} {site : Site}
  {calls : List Candidate}

theorem calls_cons (translate : Candidate → Except TranslationError Replacement) (call : Candidate)
    (calls : List Candidate) :
    (∃ replacement, translate call = .ok replacement ∧
      translatedCalls translate (call :: calls) = call :: translatedCalls translate calls ∧
      failedCalls translate (call :: calls) = failedCalls translate calls) ∨
    (∃ error, translate call = .error error ∧
      translatedCalls translate (call :: calls) = translatedCalls translate calls ∧
      failedCalls translate (call :: calls) = ⟨call, error⟩ :: failedCalls translate calls) := by
  unfold translatedCalls failedCalls
  rw [List.filter_cons, List.filterMap_cons]
  cases translate call with
  | ok replacement => exact Or.inl ⟨replacement, rfl, rfl, rfl⟩
  | error error => exact Or.inr ⟨error, rfl, rfl, rfl⟩

theorem length_translatedCalls_add (calls : List Candidate) :
    (translatedCalls translate calls).length + (failedCalls translate calls).length =
      calls.length := by
  induction calls with
  | nil => rfl
  | cons call calls ih =>
    obtain ⟨_, _, hdone, hfailed⟩ | ⟨_, _, hdone, hfailed⟩ := calls_cons translate call calls
    all_goals
      rw [hdone, hfailed]
      simp only [List.length_cons]
      omega

@[simp] theorem length_callEdits (calls : List Candidate) :
    (callEdits translate calls).length = (translatedCalls translate calls).length := by
  unfold callEdits
  induction calls with
  | nil => rfl
  | cons call calls ih =>
    rw [List.filterMap_cons]
    obtain ⟨_, hcall, hdone, _⟩ | ⟨_, hcall, hdone, _⟩ := calls_cons translate call calls
    · rw [hdone, hcall, List.length_cons, ← ih]
      rfl
    · rw [hdone, hcall, ← ih]
      rfl

theorem mem_callEdits {edit : Edit} :
    edit ∈ callEdits translate calls ↔
      ∃ call ∈ calls, ∃ replacement, translate call = .ok replacement ∧
        edit = ⟨call.span, replacement.code⟩ := by
  unfold callEdits
  rw [List.mem_filterMap]
  constructor
  · rintro ⟨call, hcall, hedit⟩
    unfold callEdit? at hedit
    split at hedit
    · rename_i replacement htranslate
      exact ⟨call, hcall, replacement, htranslate, (Option.some.inj hedit).symm⟩
    · cases hedit
  · rintro ⟨call, hcall, replacement, htranslate, rfl⟩
    refine ⟨call, hcall, ?_⟩
    rw [htranslate]
    rfl

theorem mem_translatedCalls {call : Candidate} :
    call ∈ translatedCalls translate calls ↔
      call ∈ calls ∧ ∃ replacement, translate call = .ok replacement := by
  unfold translatedCalls
  rw [List.mem_filter]
  cases translate call <;> simp [Except.toBool]

@[simp] theorem mem_failedCalls {skipped : SkippedCall} :
    skipped ∈ failedCalls translate calls ↔
      skipped.candidate ∈ calls ∧ translate skipped.candidate = .error skipped.error := by
  unfold failedCalls
  rw [List.mem_filterMap]
  constructor
  · rintro ⟨call, hcall, hskipped⟩
    unfold skippedCall? at hskipped
    split at hskipped
    · cases hskipped
    · rename_i error herror
      obtain rfl := Option.some.inj hskipped
      exact ⟨hcall, herror⟩
  · rintro ⟨hcall, herror⟩
    refine ⟨skipped.candidate, hcall, ?_⟩
    rw [herror]
    rfl

theorem resolve_eq (source : List Char) (names : FunctionNames)
    (translate : Candidate → Except TranslationError Replacement) (site : Site) :
    resolve source names translate site =
      let calls := site.calls source names
      let edits := callEdits translate calls
      let literal :=
        if calls.all fun call => mayCollapse (call, translate call) then
          constantText? source site.inner edits
        else .none
      { edits := if edits.isEmpty then [] else site.edits edits literal
        skipped := failedCalls translate calls
        recognized := calls.length
        translated := edits.length } := by
  unfold resolve failedCalls callEdits Site.calls
  simp only [List.filterMap_map, List.all_map]
  rfl

theorem Site.edits_cases (site : Site) (callEdits : List Edit) (literal : Option String) :
    site.edits callEdits literal = callEdits.map site.fitted ∨
      ∃ text, literal = some text ∧
        site.edits callEdits literal = [⟨site.whole, site.constant text⟩] := by
  unfold Site.edits
  split
  · exact Or.inr ⟨_, rfl, rfl⟩
  · exact Or.inl (List.map_id _).symm
  · split
    · exact Or.inr ⟨_, rfl, rfl⟩
    · exact Or.inl rfl

theorem failedCalls_eq_nil_of_mayCollapse
    (h : (calls.all fun call => mayCollapse (call, translate call)) = true) :
    failedCalls translate calls = [] := by
  apply List.eq_nil_iff_forall_not_mem.mpr
  intro skipped hskipped
  obtain ⟨hcall, herror⟩ := mem_failedCalls.mp hskipped
  have hcollapse := List.all_eq_true.mp h _ hcall
  rw [herror] at hcollapse
  cases hcollapse

/-- The edits of a site are those of its calls, fitted to it, unless every call has a translation
and the whole of the site is replaced. -/
theorem edits_resolve :
    (resolve source names translate site).edits =
        (callEdits translate (site.calls source names)).map site.fitted ∨
      failedCalls translate (site.calls source names) = [] ∧
        ∃ text, constantText? source site.inner (callEdits translate (site.calls source names)) =
            some text ∧
          (resolve source names translate site).edits = [⟨site.whole, site.constant text⟩] := by
  rw [resolve_eq]
  dsimp only
  split
  · rename_i hempty
    rw [List.isEmpty_iff.mp hempty]
    exact Or.inl rfl
  · rcases site.edits_cases (callEdits translate (site.calls source names)) _ with
      hcalls | ⟨text, hliteral, hwhole⟩
    · exact Or.inl hcalls
    · split at hliteral
      · rename_i hcollapse
        exact Or.inr ⟨failedCalls_eq_nil_of_mayCollapse hcollapse, text, hliteral, hwhole⟩
      · cases hliteral

@[simp] theorem Site.span_fitted (site : Site) (edit : Edit) :
    (site.fitted edit).span = edit.span := by
  cases site <;> rfl

theorem callEdits_ascending
    (h : calls.Pairwise fun a b => a.span.stop ≤ b.span.start) :
    (callEdits translate calls).Pairwise fun a b => a.span.stop ≤ b.span.start := by
  refine ascending_filterMap Edit.span h ?_
  intro call edit hedit
  unfold callEdit? at hedit
  split at hedit
  · rw [← Option.some.inj hedit]
  · cases hedit

theorem within_of_mem_edits_resolve (hsite : site.Placed source (scan source region)) {edit : Edit}
    (h : edit ∈ (resolve source names translate site).edits) : edit.span.Within site.whole := by
  rcases edits_resolve with hcalls | ⟨_, text, _, hwhole⟩
  · rw [hcalls] at h
    obtain ⟨found, hfound, rfl⟩ := List.mem_map.mp h
    obtain ⟨call, hcall, replacement, _, rfl⟩ := mem_callEdits.mp hfound
    simpa using (hsite.covers_call hcall).2
  · rw [hwhole] at h
    rw [List.mem_singleton.mp h]
    exact ⟨Nat.le_refl _, Nat.le_refl _⟩

theorem edits_resolve_ascending :
    (resolve source names translate site).edits.Pairwise
      fun a b => a.span.stop ≤ b.span.start := by
  rcases edits_resolve with hcalls | ⟨_, text, _, hwhole⟩
  · rw [hcalls, List.pairwise_map]
    refine (callEdits_ascending Call.candidates_ascending).imp ?_
    intro first second hle
    rwa [Site.span_fitted, Site.span_fitted]
  · rw [hwhole]
    exact List.pairwise_singleton _ _

theorem edits_resolve_apart :
    (resolve source names translate site).edits.Pairwise fun a b => a.span.Apart b.span :=
  edits_resolve_ascending.imp fun hle => Or.inl hle

theorem failed_apart_resolve {skipped : SkippedCall}
    (hskipped : skipped ∈ failedCalls translate (site.calls source names)) {edit : Edit}
    (h : edit ∈ (resolve source names translate site).edits) :
    skipped.candidate.span.Apart edit.span := by
  obtain ⟨hmem, herror⟩ := mem_failedCalls.mp hskipped
  rcases edits_resolve with hcalls | ⟨hnone, _⟩
  · rw [hcalls] at h
    obtain ⟨found, hfound, rfl⟩ := List.mem_map.mp h
    obtain ⟨call, hcall, replacement, htranslate, rfl⟩ := mem_callEdits.mp hfound
    rw [Site.span_fitted]
    have hne : skipped.candidate ≠ call := by
      intro heq
      rw [heq, htranslate] at herror
      cases herror
    have hapart : (site.calls source names).Pairwise fun a b => a.span.Apart b.span :=
      Call.candidates_ascending.imp fun hle => Or.inl hle
    have : Std.Symm fun a b : Candidate => a.span.Apart b.span := ⟨fun _ _ => Span.Apart.symm⟩
    exact hapart.forall hmem hcall hne
  · rw [hnone] at hskipped
    cases hskipped

theorem delivered_resolve (hregion : Covers 0 source region chars)
    (hsite : site ∈ sites source region) {call : Candidate}
    (hcall : call ∈ translatedCalls translate (site.calls source names)) :
    ∃ edit ∈ (resolve source names translate site).edits,
      Delivers source region names translate call edit ∧ call.span.Within edit.span := by
  obtain ⟨hmem, replacement, htranslate⟩ := mem_translatedCalls.mp hcall
  rcases edits_resolve with hcalls | ⟨_, text, hconstant, hwhole⟩
  · refine ⟨site.fitted ⟨call.span, replacement.code⟩, ?_, .alone hsite hmem htranslate, ?_⟩
    · rw [hcalls]
      exact List.mem_map_of_mem (mem_callEdits.mpr ⟨call, hmem, replacement, htranslate, rfl⟩)
    · simpa using ⟨Nat.le_refl _, Nat.le_refl _⟩
  · refine ⟨⟨site.whole, site.constant text⟩, ?_, .constant hsite hcall hconstant, ?_⟩
    · rw [hwhole]
      exact List.mem_singleton_self _
    · exact ((placed_of_mem_sites hregion hsite).covers_call hmem).2

theorem callsOf_eq (source : List Char) (region : Span) (names : FunctionNames) :
    callsOf source region names = (sites source region).flatMap (Site.calls source names) :=
  rfl

theorem mem_callsOf {call : Candidate} :
    call ∈ callsOf source region names ↔
      ∃ site ∈ sites source region, call ∈ site.calls source names :=
  List.mem_flatMap

@[simp] theorem edits_resolveRegion :
    (resolveRegion source region names translate).edits =
      (sites source region).flatMap fun site => (resolve source names translate site).edits := by
  unfold resolveRegion
  simp [List.flatMap_map]

@[simp] theorem skipped_resolveRegion :
    (resolveRegion source region names translate).skipped =
      failedCalls translate (callsOf source region names) := by
  rw [callsOf_eq]
  unfold resolveRegion
  induction sites source region with
  | nil => rfl
  | cons site rest ih =>
    have hcons : (Outcome.all ((site :: rest).map (resolve source names translate))).skipped =
        (resolve source names translate site).skipped ++
          (Outcome.all (rest.map (resolve source names translate))).skipped := rfl
    rw [hcons, ih, resolve_eq, List.flatMap_cons]
    exact List.filterMap_append.symm

@[simp] theorem translated_resolveRegion :
    (resolveRegion source region names translate).translated =
      (translatedCalls translate (callsOf source region names)).length := by
  rw [callsOf_eq]
  unfold resolveRegion
  induction sites source region with
  | nil => rfl
  | cons site rest ih =>
    have hcons : (Outcome.all ((site :: rest).map (resolve source names translate))).translated =
        (resolve source names translate site).translated +
          (Outcome.all (rest.map (resolve source names translate))).translated := rfl
    have happend : translatedCalls translate ((site :: rest).flatMap (Site.calls source names)) =
        translatedCalls translate (site.calls source names) ++
          translatedCalls translate (rest.flatMap (Site.calls source names)) :=
      List.filter_append ..
    rw [hcons, ih, resolve_eq, happend, List.length_append]
    dsimp only
    simp

theorem covers_of_mem_callsOf (hregion : Covers 0 source region chars) {call : Candidate}
    (h : call ∈ callsOf source region names) :
    Covers 0 source call.span call.content.toList ∧ call.span.Within region := by
  obtain ⟨site, hsite, hcall⟩ := mem_callsOf.mp h
  have hplaced := placed_of_mem_sites hregion hsite
  obtain ⟨hcontent, hwithin⟩ := hplaced.covers_call hcall
  exact ⟨hcontent, hwithin.trans (hplaced.within_region hregion)⟩

theorem within_of_mem_edits (hregion : Covers 0 source region chars) {edit : Edit}
    (h : edit ∈ (resolveRegion source region names translate).edits) :
    edit.span.Within region := by
  rw [edits_resolveRegion] at h
  obtain ⟨site, hsite, hedit⟩ := List.mem_flatMap.mp h
  have hplaced := placed_of_mem_sites hregion hsite
  exact (within_of_mem_edits_resolve hplaced hedit).trans (hplaced.within_region hregion)

theorem edits_apart (hregion : Covers 0 source region chars) :
    (resolveRegion source region names translate).edits.Pairwise
      fun a b => a.span.Apart b.span := by
  rw [edits_resolveRegion]
  refine List.pairwise_flatMap.mpr ⟨fun site _ => edits_resolve_apart, ?_⟩
  refine (sites_apart hregion).imp_of_mem ?_
  intro first second hfirst hsecond hapart a ha b hb
  exact Span.Apart.of_within hapart
    (within_of_mem_edits_resolve (placed_of_mem_sites hregion hfirst) ha)
    (within_of_mem_edits_resolve (placed_of_mem_sites hregion hsecond) hb)

theorem failed_apart (hregion : Covers 0 source region chars) {skipped : SkippedCall}
    (hskipped : skipped ∈ failedCalls translate (callsOf source region names)) {edit : Edit}
    (h : edit ∈ (resolveRegion source region names translate).edits) :
    skipped.candidate.span.Apart edit.span := by
  rw [edits_resolveRegion] at h
  obtain ⟨other, hother, hedit⟩ := List.mem_flatMap.mp h
  obtain ⟨hmem, herror⟩ := mem_failedCalls.mp hskipped
  obtain ⟨site, hsite, hcall⟩ := mem_callsOf.mp hmem
  -- Within one site the calls are apart; two sites are apart as a whole.
  by_cases heq : site = other
  · subst heq
    exact failed_apart_resolve (mem_failedCalls.mpr ⟨hcall, herror⟩) hedit
  · have : Std.Symm fun a b : Site => a.whole.Apart b.whole := ⟨fun _ _ => Span.Apart.symm⟩
    have hapart := (sites_apart hregion).forall hsite hother heq
    exact Span.Apart.of_within hapart ((placed_of_mem_sites hregion hsite).covers_call hcall).2
      (within_of_mem_edits_resolve (placed_of_mem_sites hregion hother) hedit)

theorem delivered (hregion : Covers 0 source region chars) {call : Candidate}
    (hcall : call ∈ translatedCalls translate (callsOf source region names)) :
    ∃ edit ∈ (resolveRegion source region names translate).edits,
      Delivers source region names translate call edit ∧ call.span.Within edit.span := by
  obtain ⟨hmem, htranslate⟩ := mem_translatedCalls.mp hcall
  obtain ⟨site, hsite, hfound⟩ := mem_callsOf.mp hmem
  obtain ⟨edit, hedit, hdelivers⟩ := delivered_resolve hregion hsite
    (mem_translatedCalls.mpr ⟨hfound, htranslate⟩)
  rw [edits_resolveRegion]
  exact ⟨edit, List.mem_flatMap.mpr ⟨site, hsite, hedit⟩, hdelivers⟩

end TemplateMessages.Template
