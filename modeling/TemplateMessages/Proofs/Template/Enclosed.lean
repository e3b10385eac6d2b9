import Mathlib.Data.List.Sort
import TemplateMessages.Proofs.Call.CandidateForm
import TemplateMessages.Proofs.Lists
import TemplateMessages.Proofs.Template.EnclosedSites
import TemplateMessages.Proofs.Template.Renewal
import TemplateMessages.Proofs.Template.StoppingRun

set_option autoImplicit false

/-!
# The content of a template is resolved as on its own

The same becomes of a site of a template and of the same site of its content on its own. So the two
have the same edits, when no call of a site that only one of them has shows in what becomes of it.
-/

namespace TemplateMessages.Template

open TemplateMessages.Call (Candidate FunctionNames)
open TemplateMessages.Markup
open TemplateMessages.Text
open TemplateMessages.Translation

def Interpolation.shift (expression : Interpolation) (base : Nat) : Interpolation :=
  ⟨expression.whole.shift base, expression.inner.shift base⟩

/-- The site in a text that has `base` more bytes in front. -/
def Site.shift : Site → Nat → Site
  | interpolation expression, base => interpolation (expression.shift base)
  | binding attr value, base => binding (attr.shift base) (value.shift base)

def SkippedCall.shift (call : SkippedCall) (base : Nat) : SkippedCall :=
  { call with candidate := call.candidate.shift base }

def Outcome.shift (outcome : Outcome) (base : Nat) : Outcome :=
  { outcome with
    edits := outcome.edits.map (·.shift base)
    skipped := outcome.skipped.map (·.shift base) }

variable {source chars content : List Char} {span : Span} {names : FunctionNames}
  {translate : Candidate → Except TranslationError Replacement}

@[simp] theorem located_shift (position base : Nat) (parts : List Part) :
    located (position + base) parts =
      (located position parts).map fun found => (found.1.shift base, found.2) := by
  induction parts generalizing position with
  | nil => rfl
  | cons part parts ih =>
    cases part with
    | text chars =>
      have hnext : position + base + byteLength chars = position + byteLength chars + base := by
        omega
      rw [located, located, hnext, ih]
    | expression inner =>
      have hstart : position + base + 2 = position + 2 + base := by omega
      have hstop : position + 2 + base + byteLength inner =
          position + 2 + byteLength inner + base := by omega
      have hnext : position + 2 + byteLength inner + base + 2 =
          position + 2 + byteLength inner + 2 + base := by omega
      simp only [located, hstart, hstop, hnext, ih, List.map_cons]
      rfl

@[simp] theorem interpolationsFrom_shift (position base : Nat) (text : List Char) :
    interpolationsFrom (position + base) text =
      (interpolationsFrom position text).map (·.shift base) := by
  rw [interpolationsFrom_eq, interpolationsFrom_eq, located_shift, List.map_map, List.map_map]
  rfl

theorem textSites_shift (h : Covers 0 source span chars) (front rest : List Char) :
    textSites (front ++ source ++ rest) (span.shift (byteLength front)) =
      (textSites source span).map (·.shift (byteLength front)) := by
  unfold textSites
  rw [h.slice_shift, Span.shift, interpolationsFrom_shift, List.map_map, List.map_map]
  rfl

def attributeSite? (attr : Attribute) : Option Site :=
  match attr.binding?, attr.value with
  | some _, some value => some (.binding attr value)
  | _, _ => none

@[simp] theorem attributeSite?_shift (attr : Attribute) (base : Nat) :
    attributeSite? (attr.shift base) = (attributeSite? attr).map (·.shift base) := by
  have hbinding : (attr.shift base).binding? = attr.binding? := rfl
  have hvalue : (attr.shift base).value = attr.value.map (·.shift base) := rfl
  unfold attributeSite?
  rw [hbinding, hvalue]
  cases attr.binding? <;> cases attr.value <;> rfl

theorem scan_whole (source : List Char) :
    scan source ⟨0, byteLength source⟩ = scanFrom 0 [] source := by
  have hwhole := (Covers.whole 0 source).slice_eq
  rw [Nat.zero_add] at hwhole
  unfold scan
  rw [hwhole]

@[simp] theorem tagSites_shift (tag : StartTag) (base : Nat) :
    tagSites (tag.shift base) = (tagSites tag).map (·.shift base) := by
  change (tag.attributes.map (·.shift base)).filterMap attributeSite? =
    (tag.attributes.filterMap attributeSite?).map (·.shift base)
  rw [List.filterMap_map, List.map_filterMap]
  exact congrArg (List.filterMap · _) (funext fun attr => attributeSite?_shift attr base)

theorem tokenSites_shift {token : Token} (h : Covers 0 source token.span chars)
    (front : List Char) :
    tokenSites (front ++ source) (token.shift (byteLength front)) =
      (tokenSites source token).map (·.shift (byteLength front)) := by
  cases token with
  | text run translate =>
    cases translate with
    | true =>
      have hsites := textSites_shift h front []
      rwa [List.append_nil] at hsites
    | false => rfl
  | startTag tag =>
    have hflags : isTranslated (.startTag (tag.shift (byteLength front))) =
        isTranslated (.startTag tag) := rfl
    rw [Token.shift, tokenSites, tokenSites, hflags, tagSites_shift]
    split <;> rfl
  | _ => rfl

theorem mem_sites_inTemplate {site : Site} :
    site ∈ sites (inTemplate content) ⟨0, byteLength (inTemplate content)⟩ ↔
      ∃ inner, Found (content ++ templateEnd)
        (scanFrom 0 [templateFrame] (content ++ templateEnd)).tokens inner ∧
        inner.shift (byteLength templateStart) = site := by
  have hroot : ¬Found (inTemplate content)
      [.startTag ((templateElement.startTag none).token 0 [])] site := by
    rw [found_startTag]
    exact fun h => Bool.noConfusion h.2.1
  rw [mem_sites_iff, scan_whole, scanFrom_inTemplate, Scan.behind, found_append, or_iff_right hroot]
  rw [Scan.shift, inTemplate, List.append_assoc]
  obtain ⟨rest, tiled⟩ := scanFrom_tiled 0 [templateFrame] (content ++ templateEnd)
  constructor
  · rintro ⟨shifted, hshifted, hsite⟩
    obtain ⟨token, htoken, rfl⟩ := List.mem_map.mp hshifted
    obtain ⟨chars, hcovers, -⟩ := tiled.covers htoken
    rw [tokenSites_shift hcovers, List.mem_map] at hsite
    obtain ⟨inner, hinner, heq⟩ := hsite
    exact ⟨inner, ⟨token, htoken, hinner⟩, heq⟩
  · rintro ⟨inner, ⟨token, htoken, hinner⟩, heq⟩
    obtain ⟨chars, hcovers, -⟩ := tiled.covers htoken
    refine ⟨_, List.mem_map_of_mem htoken, ?_⟩
    rw [tokenSites_shift hcovers]
    exact List.mem_map.mpr ⟨inner, hinner, heq⟩

/-- The sites of a text. -/
def allSites (source : List Char) : List Site :=
  sites source ⟨0, byteLength source⟩

theorem compared_content (content : List Char) :
    Compared content False (scanFrom 0 [] content)
      (scanFrom 0 [templateFrame] (content ++ templateEnd)) :=
  @compared_scanFrom content [] content False [] [templateFrame] .bottom rfl

/-- A site of the template is one of its content on its own, or it is an attribute of an outermost
template or behind the place where the scan of the content ends. -/
theorem exists_of_mem_inTemplate {site : Site} (h : site ∈ allSites (inTemplate content)) :
    ∃ own, own.shift (byteLength templateStart) = site ∧
      (own ∈ allSites content ∨ InRootTag (scanFrom 0 [] content).tokens own ∨
        (scanFrom 0 [] content).stop ≤ own.whole.start) := by
  obtain ⟨own, hfound, heq⟩ := mem_sites_inTemplate.mp h
  refine ⟨own, heq, ?_⟩
  rw [allSites, mem_sites_iff, scan_whole]
  exact (compared_content content).gains own hfound

/-- A site of the content on its own is one of the template, or it is behind an outermost template
that asks for no translation, or reaches into what the content does not finish. -/
theorem mem_inTemplate_of_mem {site : Site} (h : site ∈ allSites content) :
    site.shift (byteLength templateStart) ∈ allSites (inTemplate content) ∨
      BehindPlainRoot (scanFrom 0 [] content).tokens site ∨ IntoUnfinished content site := by
  rw [allSites, mem_sites_iff, scan_whole] at h
  rcases (compared_content content).keeps site h with
    hinner | hfalse | hexcept
  · exact .inl (mem_sites_inTemplate.mpr ⟨site, hinner, rfl⟩)
  · exact hfalse.elim
  · exact .inr hexcept

/-- The order in which sites are resolved: those of the text first, then those of the tags. -/
def Site.Precedes : Site → Site → Prop
  | interpolation a, interpolation b => a.whole.start < b.whole.start
  | interpolation _, binding _ _ => True
  | binding _ _, interpolation _ => False
  | binding a _, binding b _ => a.span.start < b.span.start

instance : Std.Irrefl Site.Precedes where
  irrefl site h := by
    cases site <;> exact Nat.lt_irrefl _ h

instance : Std.Antisymm Site.Precedes where
  antisymm a b h h' := by
    cases a <;> cases b
    · exact absurd h (Nat.lt_asymm h')
    · cases h'
    · cases h
    · exact absurd h (Nat.lt_asymm h')

theorem Site.Precedes.shift {a b : Site} (h : a.Precedes b) (base : Nat) :
    (a.shift base).Precedes (b.shift base) := by
  cases a <;> cases b
  · exact Nat.add_lt_add_right h base
  · trivial
  · cases h
  · exact Nat.add_lt_add_right h base

theorem allSites_ordered (source : List Char) : (allSites source).Pairwise Site.Precedes := by
  have hregion := Covers.whole 0 source
  rw [Nat.zero_add] at hregion
  have hlt {a b : Site} (ha : a ∈ allSites source) (hle : a.whole.stop ≤ b.whole.start) :
      a.whole.start < b.whole.start :=
    Nat.lt_of_lt_of_le (start_lt_stop_of_mem_sites hregion ha) hle
  -- Texts are in order, and so are tags; a text and a tag are different tokens and lie apart.
  have htexts := ascending_flatMap (translatableText_ascending hregion)
    (fun text htext site hsite => (placed_of_mem_textSites hregion htext hsite).2)
    fun text _ => textSites_ascending text
  have htags := ascending_flatMap (translatableTags_ascending hregion)
    (fun tag htag site hsite => (placed_of_mem_tagSites hregion htag hsite).2)
    fun tag htag => tagSites_ascending hregion htag
  have hinterpolation {runs : List Span} {site : Site} (h : site ∈ runs.flatMap (textSites source)) :
      ∃ expression, site = .interpolation expression := by
    obtain ⟨_, _, hsite⟩ := List.mem_flatMap.mp h
    obtain ⟨expression, _, rfl⟩ := List.mem_map.mp hsite
    exact ⟨expression, rfl⟩
  have hbinding {tags : List StartTag} {site : Site} (h : site ∈ tags.flatMap tagSites) :
      ∃ attr value, site = .binding attr value := by
    obtain ⟨_, _, hsite⟩ := List.mem_flatMap.mp h
    obtain ⟨attr, _, hsome⟩ := List.mem_filterMap.mp hsite
    split at hsome
    · exact ⟨_, _, (Option.some.inj hsome).symm⟩
    · cases hsome
  refine List.pairwise_append.mpr ⟨htexts.imp_of_mem ?_, htags.imp_of_mem ?_, ?_⟩
  · intro a b ha hb hle
    have hstart := hlt (List.mem_append_left _ ha) hle
    obtain ⟨_, rfl⟩ := hinterpolation ha
    obtain ⟨_, rfl⟩ := hinterpolation hb
    exact hstart
  · intro a b ha hb hle
    have hstart := hlt (List.mem_append_right _ ha) hle
    obtain ⟨_, _, rfl⟩ := hbinding ha
    obtain ⟨_, _, rfl⟩ := hbinding hb
    exact hstart
  · intro a ha b hb
    obtain ⟨_, rfl⟩ := hinterpolation ha
    obtain ⟨_, _, rfl⟩ := hbinding hb
    trivial

/-- What is collected from the sites of a template is collected from its content on its own, when
nothing is collected from a site that only one of them has. -/
theorem flatMap_inTemplate {β : Type} {f f' : Site → List β} {g : β → β}
    (hlost : ∀ site ∈ allSites content,
      site.shift (byteLength templateStart) ∉ allSites (inTemplate content) → f site = [])
    (hgained : ∀ site ∈ allSites (inTemplate content),
      site ∉ (allSites content).map (·.shift (byteLength templateStart)) → f' site = [])
    (hshift : ∀ site ∈ allSites content,
      site.shift (byteLength templateStart) ∈ allSites (inTemplate content) →
        f' (site.shift (byteLength templateStart)) = (f site).map g) :
    (allSites (inTemplate content)).flatMap f' = ((allSites content).flatMap f).map g := by
  have hsame : (allSites (inTemplate content)).filter (fun site => !(f' site).isEmpty) =
      ((allSites content).filter fun site => !(f site).isEmpty).map
        (·.shift (byteLength templateStart)) := by
    refine List.Pairwise.eq_of_mem_iff (r := Site.Precedes)
      ((allSites_ordered _).sublist List.filter_sublist) ?_ fun site => ?_
    · rw [List.pairwise_map]
      exact ((allSites_ordered content).sublist List.filter_sublist).imp fun h => h.shift _
    · simp only [List.mem_filter, List.mem_map, Bool.not_eq_true', List.isEmpty_eq_false_iff]
      constructor
      · rintro ⟨hsite, hne⟩
        obtain ⟨own, hown, rfl⟩ := List.mem_map.mp
          (Decidable.not_not.mp fun hnone => hne (hgained site hsite hnone))
        rw [hshift own hown hsite] at hne
        exact ⟨own, ⟨hown, fun hnil => hne (by rw [hnil, List.map_nil])⟩, rfl⟩
      · rintro ⟨own, ⟨hown, hne⟩, rfl⟩
        have hinner := Decidable.not_not.mp fun hnone => hne (hlost own hown hnone)
        refine ⟨hinner, ?_⟩
        rw [hshift own hown hinner]
        exact fun hnil => hne (List.map_eq_nil_iff.mp hnil)
  rw [← flatMap_filter_isEmpty f', hsame, ← flatMap_filter_isEmpty f, List.flatMap_map,
    List.map_flatMap]
  refine List.flatMap_congr fun site hsite => ?_
  have hmem := List.mem_map_of_mem (f := (·.shift (byteLength templateStart))) hsite
  rw [← hsame] at hmem
  exact hshift site (List.mem_filter.mp hsite).1 (List.mem_filter.mp hmem).1

theorem calls_shift {site : Site} (h : Covers 0 source site.inner chars) (front rest : List Char) :
    (site.shift (byteLength front)).calls (front ++ source ++ rest) names =
      (site.calls source names).map (·.shift (byteLength front)) := by
  have hinner : (site.shift (byteLength front)).inner = site.inner.shift (byteLength front) := by
    cases site <;> rfl
  have hplace : (site.shift (byteLength front)).place = site.place := by
    cases site <;> rfl
  unfold Site.calls
  rw [hinner, h.slice_shift, hplace, Call.candidates_shift,
    Call.candidates_shift names _ site.inner.start, List.map_map]
  refine List.map_congr_left fun call _ => ?_
  simp only [Candidate.shift, Span.shift, Function.comp_apply, Nat.add_assoc]

theorem callEdits_shift
    (htranslate : ∀ call base, translate (Candidate.shift call base) = translate call)
    (calls : List Candidate) (base : Nat) :
    callEdits translate (calls.map (·.shift base)) =
      (callEdits translate calls).map (·.shift base) := by
  unfold callEdits
  rw [List.filterMap_map, List.map_filterMap]
  refine List.filterMap_congr fun call _ => ?_
  rw [Function.comp_apply, htranslate]
  cases translate call <;> rfl

theorem failedCalls_shift
    (htranslate : ∀ call base, translate (Candidate.shift call base) = translate call)
    (calls : List Candidate) (base : Nat) :
    failedCalls translate (calls.map (·.shift base)) =
      (failedCalls translate calls).map (·.shift base) := by
  unfold failedCalls
  rw [List.filterMap_map, List.map_filterMap]
  refine List.filterMap_congr fun call _ => ?_
  rw [Function.comp_apply, htranslate]
  cases translate call <;> rfl

theorem constantText?_shift {inner : Span} (h : Covers 0 source inner chars)
    (front rest : List Char) (edits : List Edit) :
    constantText? (front ++ source ++ rest) (inner.shift (byteLength front))
        (edits.map (·.shift (byteLength front))) =
      constantText? source inner edits := by
  unfold constantText?
  rw [h.slice_shift, List.map_map]
  simp only [Function.comp_def, Edit.shift, Span.shift, Nat.add_sub_add_right]

@[simp] theorem Site.edits_shift (site : Site) (edits : List Edit) (literal : Option String)
    (base : Nat) :
    (site.shift base).edits (edits.map (·.shift base)) literal =
      (site.edits edits literal).map (·.shift base) := by
  cases site with
  | interpolation expression => cases literal <;> rfl
  | binding attr value =>
    have hcalls : (edits.map (·.shift base)).map
        (fun edit => (⟨edit.span, escapeQuote value.quote edit.replacement⟩ : Edit)) =
        (edits.map fun edit => (⟨edit.span, escapeQuote value.quote edit.replacement⟩ : Edit)).map
          (·.shift base) := by
      rw [List.map_map, List.map_map]
      rfl
    obtain ⟨span, name, own, dynamic⟩ := attr
    cases literal <;> cases dynamic
    · exact hcalls
    · exact hcalls
    · rfl
    · exact hcalls

theorem resolve_shift {site : Site} (h : Covers 0 source site.inner chars)
    (htranslate : ∀ call base, translate (Candidate.shift call base) = translate call)
    (front rest : List Char) :
    resolve (front ++ source ++ rest) names translate (site.shift (byteLength front)) =
      (resolve source names translate site).shift (byteLength front) := by
  have hinner : (site.shift (byteLength front)).inner = site.inner.shift (byteLength front) := by
    cases site <;> rfl
  have hcollapse : ((site.calls source names).map (·.shift (byteLength front))).all
      (fun call => mayCollapse (call, translate call)) =
        (site.calls source names).all fun call => mayCollapse (call, translate call) := by
    rw [List.all_map]
    simp only [Function.comp_def, htranslate]
    rfl
  rw [resolve_eq, resolve_eq]
  dsimp only [Outcome.shift]
  rw [calls_shift h, callEdits_shift htranslate, failedCalls_shift htranslate, hcollapse, hinner,
    constantText?_shift h, Site.edits_shift, List.isEmpty_map, List.length_map, List.length_map]
  split <;> rfl

/-- A call with this result shows: it is replaced, or it has no translation where that is an
error. -/
def shows (onMissing : OnMissing) : Except TranslationError Replacement → Bool
  | .ok _ => true
  | .error error => decide (onMissing = .error) && error.isMissing

def SameResult (onMissing : OnMissing) (result result' : Except TranslationError Replacement) : Prop :=
  result' = result ∨ shows onMissing result = false ∧ shows onMissing result' = false

/-- A template and its content have the same calls to translate, with the same results, apart from
calls that do not show. -/
structure AlikeCalls (content : List Char) (names : FunctionNames)
    (translate translate' : Candidate → Except TranslationError Replacement)
    (onMissing : OnMissing) : Prop where
  lost : ∀ site ∈ allSites content,
    site.shift (byteLength templateStart) ∉ allSites (inTemplate content) →
      ∀ call ∈ site.calls content names, shows onMissing (translate call) = false
  gained : ∀ site ∈ allSites (inTemplate content),
    site ∉ (allSites content).map (·.shift (byteLength templateStart)) →
      ∀ call ∈ site.calls (inTemplate content) names, shows onMissing (translate' call) = false
  messages : ∀ site ∈ allSites (inTemplate content),
    ∀ call ∈ site.calls (inTemplate content) names,
      SameResult onMissing (translate call) (translate' call)

theorem exists_error_of_shows {onMissing : OnMissing}
    {result : Except TranslationError Replacement} (h : shows onMissing result = false) :
    ∃ error, result = .error error := by
  cases result with
  | ok replacement => cases h
  | error error => exact ⟨error, rfl⟩

theorem SameResult.edit_eq {onMissing : OnMissing}
    {result result' : Except TranslationError Replacement}
    (h : SameResult onMissing result result') (call : Candidate) :
    callEdit? (call, result') = callEdit? (call, result) ∧
      mayCollapse (call, result') = mayCollapse (call, result) := by
  obtain rfl | ⟨hown, hinner⟩ := h
  · exact ⟨rfl, rfl⟩
  · obtain ⟨error, rfl⟩ := exists_error_of_shows hown
    obtain ⟨error', rfl⟩ := exists_error_of_shows hinner
    exact ⟨rfl, rfl⟩

theorem callEdits_congr {onMissing : OnMissing} {calls : List Candidate}
    {translate' : Candidate → Except TranslationError Replacement}
    (h : ∀ call ∈ calls, SameResult onMissing (translate call) (translate' call)) :
    callEdits translate' calls = callEdits translate calls :=
  List.filterMap_congr fun call hcall => ((h call hcall).edit_eq call).1

theorem edits_resolve_congr {onMissing : OnMissing} {site : Site}
    {translate' : Candidate → Except TranslationError Replacement}
    (h : ∀ call ∈ site.calls source names,
      SameResult onMissing (translate call) (translate' call)) :
    (resolve source names translate' site).edits = (resolve source names translate site).edits := by
  have hcollapse :
      (site.calls source names).all (fun call => mayCollapse (call, translate' call)) =
        (site.calls source names).all fun call => mayCollapse (call, translate call) := by
    rw [Bool.eq_iff_iff, List.all_eq_true, List.all_eq_true]
    exact forall₂_congr fun call hcall => by rw [((h call hcall).edit_eq call).2]
  rw [resolve_eq, resolve_eq]
  dsimp only
  rw [callEdits_congr h, hcollapse]

theorem callEdits_eq_nil {onMissing : OnMissing} {calls : List Candidate}
    (h : ∀ call ∈ calls, shows onMissing (translate call) = false) :
    callEdits translate calls = [] := by
  refine List.filterMap_eq_nil_iff.mpr fun call hcall => ?_
  obtain ⟨error, herror⟩ := exists_error_of_shows (h call hcall)
  rw [herror]
  rfl

def missingCalls (translate : Candidate → Except TranslationError Replacement)
    (calls : List Candidate) : List SkippedCall :=
  (failedCalls translate calls).filter (·.error.isMissing)

theorem missingCalls_eq (translate : Candidate → Except TranslationError Replacement)
    (calls : List Candidate) :
    missingCalls translate calls = calls.filterMap fun call =>
      (skippedCall? (call, translate call)).filter (·.error.isMissing) :=
  List.filter_filterMap

theorem missingCalls_congr {calls : List Candidate}
    {translate' : Candidate → Except TranslationError Replacement}
    (h : ∀ call ∈ calls, SameResult .error (translate call) (translate' call)) :
    missingCalls translate' calls = missingCalls translate calls := by
  have hnone {call : Candidate} {result : Except TranslationError Replacement}
      (hsilent : shows .error result = false) :
      (skippedCall? (call, result)).filter (·.error.isMissing) = none := by
    obtain ⟨error, rfl⟩ := exists_error_of_shows hsilent
    have hmissing : error.isMissing = false := hsilent
    simp [skippedCall?, hmissing]
  rw [missingCalls_eq, missingCalls_eq]
  refine List.filterMap_congr fun call hcall => ?_
  obtain heq | ⟨hown, hinner⟩ := h call hcall
  · rw [heq]
  · rw [hnone hown, hnone hinner]

theorem missingCalls_eq_nil {calls : List Candidate}
    (h : ∀ call ∈ calls, shows .error (translate call) = false) :
    missingCalls translate calls = [] := by
  refine List.filter_eq_nil_iff.mpr fun skipped hskipped hmissing => ?_
  obtain ⟨hcall, herror⟩ := mem_failedCalls.mp hskipped
  have hsilent := h _ hcall
  rw [herror, shows, hmissing] at hsilent
  cases hsilent

theorem missingCalls_shift
    (htranslate : ∀ call base, translate (Candidate.shift call base) = translate call)
    (calls : List Candidate) (base : Nat) :
    missingCalls translate (calls.map (·.shift base)) =
      (missingCalls translate calls).map (·.shift base) := by
  unfold missingCalls
  rw [failedCalls_shift htranslate, List.filter_map]
  rfl

theorem covers_inner_of_mem {site : Site} (h : site ∈ allSites source) :
    ∃ chars, Covers 0 source site.inner chars := by
  have hwhole := Covers.whole 0 source
  rw [Nat.zero_add] at hwhole
  obtain ⟨whole, inner, houter, hinner⟩ := (placed_of_mem_sites hwhole h).covers
  exact ⟨inner, houter.trans hinner⟩

theorem callEdits_callsOf (source : List Char) (region : Span) :
    callEdits translate (callsOf source region names) =
      (sites source region).flatMap fun site => callEdits translate (site.calls source names) :=
  List.filterMap_flatMap

theorem missingCalls_callsOf (source : List Char) (region : Span) :
    missingCalls translate (callsOf source region names) =
      (sites source region).flatMap fun site => missingCalls translate (site.calls source names) := by
  unfold missingCalls failedCalls
  rw [callsOf_eq, List.filterMap_flatMap, List.filter_flatMap]

namespace AlikeCalls

variable {translate' : Candidate → Except TranslationError Replacement} {onMissing : OnMissing}

theorem calls_eq (h : AlikeCalls content names translate translate' onMissing) {site : Site}
    (hsite : site ∈ allSites content)
    (hinner : site.shift (byteLength templateStart) ∈ allSites (inTemplate content)) :
    (site.shift (byteLength templateStart)).calls (inTemplate content) names =
        (site.calls content names).map (·.shift (byteLength templateStart)) ∧
      ∀ call ∈ (site.calls content names).map (·.shift (byteLength templateStart)),
        SameResult onMissing (translate call) (translate' call) := by
  obtain ⟨chars, hcovers⟩ := covers_inner_of_mem hsite
  have hcalls := @calls_shift _ _ names _ hcovers templateStart templateEnd
  have hsame := h.messages _ hinner
  rw [inTemplate, hcalls] at hsame
  exact ⟨hcalls, hsame⟩

theorem edits_eq (h : AlikeCalls content names translate translate' onMissing)
    (htranslate : ∀ call base, translate (Candidate.shift call base) = translate call) :
    (resolveRegion (inTemplate content) ⟨0, byteLength (inTemplate content)⟩ names
        translate').edits =
      (resolveRegion content ⟨0, byteLength content⟩ names translate).edits.map
        (·.shift (byteLength templateStart)) := by
  have hnil {source : List Char} {site : Site}
      {translate : Candidate → Except TranslationError Replacement}
      (hsilent : ∀ call ∈ site.calls source names, shows onMissing (translate call) = false) :
      (resolve source names translate site).edits = [] := by
    rw [resolve_eq]
    dsimp only
    rw [callEdits_eq_nil hsilent]
    rfl
  rw [edits_resolveRegion, edits_resolveRegion]
  refine flatMap_inTemplate (fun site hsite hlost => hnil (h.lost site hsite hlost))
    (fun site hsite hgained => hnil (h.gained site hsite hgained)) fun site hsite hinner => ?_
  obtain ⟨chars, hcovers⟩ := covers_inner_of_mem hsite
  have hresolve := @resolve_shift _ _ names _ _ hcovers htranslate templateStart templateEnd
  rw [edits_resolve_congr (h.messages _ hinner), inTemplate, hresolve]
  rfl

theorem translated_eq (h : AlikeCalls content names translate translate' onMissing)
    (htranslate : ∀ call base, translate (Candidate.shift call base) = translate call) :
    (resolveRegion (inTemplate content) ⟨0, byteLength (inTemplate content)⟩ names
        translate').translated =
      (resolveRegion content ⟨0, byteLength content⟩ names translate).translated := by
  have hedits : callEdits translate' (callsOf (inTemplate content)
      ⟨0, byteLength (inTemplate content)⟩ names) =
        (callEdits translate (callsOf content ⟨0, byteLength content⟩ names)).map
          (·.shift (byteLength templateStart)) := by
    rw [callEdits_callsOf, callEdits_callsOf]
    refine flatMap_inTemplate (fun site hsite hlost => callEdits_eq_nil (h.lost site hsite hlost))
      (fun site hsite hgained => callEdits_eq_nil (h.gained site hsite hgained))
      fun site hsite hinner => ?_
    obtain ⟨hcalls, hsame⟩ := h.calls_eq hsite hinner
    rw [hcalls, ← callEdits_shift htranslate, callEdits_congr hsame]
  rw [translated_resolveRegion, translated_resolveRegion, ← length_callEdits, ← length_callEdits,
    hedits, List.length_map]

theorem missing_eq (h : AlikeCalls content names translate translate' .error)
    (htranslate : ∀ call base, translate (Candidate.shift call base) = translate call) :
    missingCalls translate' (callsOf (inTemplate content) ⟨0, byteLength (inTemplate content)⟩
        names) =
      (missingCalls translate (callsOf content ⟨0, byteLength content⟩ names)).map
        (·.shift (byteLength templateStart)) := by
  rw [missingCalls_callsOf, missingCalls_callsOf]
  refine flatMap_inTemplate (fun site hsite hlost => missingCalls_eq_nil (h.lost site hsite hlost))
    (fun site hsite hgained => missingCalls_eq_nil (h.gained site hsite hgained))
    fun site hsite hinner => ?_
  obtain ⟨hcalls, hsame⟩ := h.calls_eq hsite hinner
  rw [hcalls, ← missingCalls_shift htranslate, missingCalls_congr hsame]

end AlikeCalls

theorem applyAll_inTemplate :
    Edit.applyAll ((resolveRegion content ⟨0, byteLength content⟩ names translate).edits.map
        (·.shift (byteLength templateStart))) (inTemplate content) =
      inTemplate (Edit.applyAll
        (resolveRegion content ⟨0, byteLength content⟩ names translate).edits content) := by
  have hwhole := Covers.whole 0 content
  rw [Nat.zero_add] at hwhole
  exact applyAll_shift (fun edit hedit => ((replaceable_of_mem_edits hedit).placed hwhole).1)
    (edits_apart hwhole) templateStart templateEnd

theorem translate_shift (translator : Translator) (context : Context) (call : Candidate)
    (base : Nat) :
    translator.translate context (call.shift base) = translator.translate context call :=
  rfl

theorem missingError?_resolveRegion (source : List Char) (lines : LineIndex) (region : Span) :
    missingError? source lines (resolveRegion source region names translate).skipped =
      (missingCalls translate (callsOf source region names)).head?.map
        (missingTranslation source lines) := by
  unfold missingError? missingCalls
  rw [skipped_resolveRegion, List.head?_filter]
  rfl

theorem transformRegion_inTemplate {options : Options} {translator : Translator}
    {context context' : Context}
    (h : AlikeCalls content translator.functions (translator.translate context)
      (translator.translate context') options.onMissing) (lines lines' : LineIndex) :
    (∃ outcome outcome' issues issues',
      transformRegion content lines ⟨0, byteLength content⟩ options translator context =
        .ok (outcome, issues) ∧
      transformRegion (inTemplate content) lines' ⟨0, byteLength (inTemplate content)⟩ options
        translator context' = .ok (outcome', issues') ∧
      outcome'.translated = outcome.translated ∧
      Edit.applyAll outcome'.edits (inTemplate content) =
        inTemplate (Edit.applyAll outcome.edits content) ∧
      outcome'.recognized = (callsOf (inTemplate content) ⟨0, byteLength (inTemplate content)⟩
        translator.functions).length) ∨
    ∃ location location' expression error,
      transformRegion content lines ⟨0, byteLength content⟩ options translator context =
        .error (.missingTranslation location expression error) ∧
      transformRegion (inTemplate content) lines' ⟨0, byteLength (inTemplate content)⟩ options
        translator context' = .error (.missingTranslation location' expression error) := by
  have htranslate := translate_shift translator context
  have hedits := h.edits_eq htranslate
  have htranslated := h.translated_eq htranslate
  have hcode := congrArg (Edit.applyAll · (inTemplate content)) hedits
  rw [applyAll_inTemplate] at hcode
  unfold transformRegion
  cases hmode : options.onMissing with
  | skip => exact .inl ⟨_, _, _, _, rfl, rfl, htranslated, hcode, recognized_resolveRegion⟩
  | error =>
    rw [hmode] at h
    have hmissing := h.missing_eq htranslate
    simp only [↓reduceIte, missingError?_resolveRegion, hmissing, List.head?_map]
    cases (missingCalls (translator.translate context)
      (callsOf content ⟨0, byteLength content⟩ translator.functions)).head? with
    | none => exact .inl ⟨_, _, _, _, rfl, rfl, htranslated, hcode, recognized_resolveRegion⟩
    | some call => exact .inr ⟨_, _, _, _, rfl, rfl⟩

end TemplateMessages.Template
