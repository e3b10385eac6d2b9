import TemplateMessages.Proofs.Component.Frame
import TemplateMessages.Proofs.Template.Accounting

set_option autoImplicit false

/-!
# No call of a component is lost

Every call of the template is counted once, as translated or by an issue that names it. The edits of
a component do not overlap, so each of them is carried out, and what has no translation is copied to
where the edits around it leave it.
-/

namespace TemplateMessages.Component

open TemplateMessages.Call (Candidate FunctionNames)
open TemplateMessages.Report (Issue)
open TemplateMessages.Template
open TemplateMessages.Text
open TemplateMessages.Translation

def componentCalls (source : List Char) (layout : Layout) (names : FunctionNames) :
    List Candidate :=
  match layout.template? with
  | some template => callsOf source template.span names
  | none => []

def componentEdits (source : List Char) (options : Options) (translator : Translator)
    (layout : Layout) : List Edit :=
  match layout.template? with
  | some template =>
    let outcome := resolveRegion source template.span translator.functions
      (translator.translate (contextOf source options layout))
    outcome.edits ++ removals source options layout outcome.recognized
  | none => []

def isSkipped : Issue → Bool
  | .skippedTranslation .. => true
  | _ => false

/-- The call stands in the output as it does in the source, behind what the edits in front of it make
of the text there. -/
def Survives (source : List Char) (edits : List Edit) (output : List Char) (call : Candidate) :
    Prop :=
  ∃ front rest before behind front' rest',
    source = front ++ call.content.toList ++ rest ∧
    call.span = ⟨byteLength front, byteLength front + byteLength call.content.toList⟩ ∧
    output = front' ++ call.content.toList ++ rest' ∧
    edits = before ++ behind ∧
    Rewritten 0 front before front' ∧ Rewritten call.span.stop rest behind rest'

variable {source : List Char} {options : Options} {translator : Translator} {layout : Layout}
  {output : Output}

@[simp] theorem filter_isSkipped_blockIssues (lines : LineIndex) (file : String) (block : Block)
    (errors : List BlockError) :
    (blockIssues source lines file block errors).filter isSkipped = [] := by
  unfold blockIssues
  rw [List.filter_map, List.map_eq_nil_iff]
  exact List.filter_eq_nil_iff.mpr fun _ _ => Bool.false_ne_true

theorem survives_of_apart {edits : List Edit} {result : List Char} {call : Candidate}
    (h : Rewritten 0 source edits result)
    (hcall : Covers 0 source call.span call.content.toList)
    (hapart : ∀ edit ∈ edits, call.span.Apart edit.span) : Survives source edits result call := by
  obtain ⟨front, rest, before, behind, front', rest', hsource, hstart, houtput, hedits, hfront,
    hrest⟩ := h.split hcall hapart
  rw [Nat.zero_add] at hstart
  refine ⟨front, rest, before, behind, front', rest', hsource, ?_, houtput, hedits, hfront, hrest⟩
  rw [← hstart, ← hcall.stop_eq]

theorem componentEdits_apart (hlayout : locateBlocks source = .ok layout)
    (hname : options.blockName ≠ "template") :
    (componentEdits source options translator layout).Pairwise fun a b => a.span.Apart b.span := by
  unfold componentEdits
  split
  · rename_i template htemplate
    obtain ⟨chars, hregion⟩ := covers_template hlayout htemplate
    refine List.pairwise_append.mpr ⟨edits_apart hregion, removals_apart hlayout _, ?_⟩
    intro edit hedit removal hremoval
    have hapart := template_apart_removal hlayout htemplate hname (mem_removals hremoval).2.2
    exact (hapart.symm.within (within_of_mem_edits hregion hedit)).symm
  · exact List.Pairwise.nil

theorem covers_of_mem_componentEdits (hlayout : locateBlocks source = .ok layout) {edit : Edit}
    (h : edit ∈ componentEdits source options translator layout) :
    ∃ old, Covers 0 source edit.span old := by
  unfold componentEdits at h
  split at h
  · rename_i template htemplate
    obtain ⟨chars, hregion⟩ := covers_template hlayout htemplate
    rcases List.mem_append.mp h with hedit | hremoval
    · exact ((replaceable_of_mem_edits hedit).placed hregion).1
    · exact (mem_removals hremoval).2.2.covers hlayout
  · cases h

theorem failed_apart_componentEdits (hlayout : locateBlocks source = .ok layout)
    (hname : options.blockName ≠ "template") {skipped : SkippedCall}
    (hskipped : skipped ∈ failedCalls (translator.translate (contextOf source options layout))
      (componentCalls source layout translator.functions)) :
    Covers 0 source skipped.candidate.span skipped.candidate.content.toList ∧
      ∀ edit ∈ componentEdits source options translator layout,
        skipped.candidate.span.Apart edit.span := by
  unfold componentCalls at hskipped
  unfold componentEdits
  cases htemplate : layout.template? with
  | none =>
    rw [htemplate] at hskipped
    cases hskipped
  | some template =>
    rw [htemplate] at hskipped
    obtain ⟨chars, hregion⟩ := covers_template hlayout htemplate
    obtain ⟨hcontent, hwithin⟩ := covers_of_mem_callsOf hregion (mem_failedCalls.mp hskipped).1
    refine ⟨hcontent, ?_⟩
    intro edit h
    rcases List.mem_append.mp h with hedit | hremoval
    · exact failed_apart hregion hskipped hedit
    · have hapart := template_apart_removal hlayout htemplate hname (mem_removals hremoval).2.2
      exact (hapart.symm.within hwithin).symm

theorem delivered_componentEdits (hlayout : locateBlocks source = .ok layout) {call : Candidate}
    (hcall : call ∈ translatedCalls (translator.translate (contextOf source options layout))
      (componentCalls source layout translator.functions)) :
    ∃ template ∈ layout.template?, ∃ edit ∈ componentEdits source options translator layout,
      Delivers source template.span translator.functions
        (translator.translate (contextOf source options layout)) call edit ∧
      call.span.Within edit.span := by
  unfold componentCalls at hcall
  unfold componentEdits
  cases htemplate : layout.template? with
  | none =>
    rw [htemplate] at hcall
    cases hcall
  | some template =>
    rw [htemplate] at hcall
    obtain ⟨chars, hregion⟩ := covers_template hlayout htemplate
    obtain ⟨edit, hedit, hdelivers⟩ := delivered hregion hcall
    exact ⟨template, rfl, edit, List.mem_append_left _ hedit, hdelivers⟩

theorem output_accounted (h : transformComponent source options translator = .ok output) :
    ∃ layout, locateBlocks source = .ok layout ∧
      let translate := translator.translate (contextOf source options layout)
      let calls := componentCalls source layout translator.functions
      output.code.toList = Edit.applyAll (componentEdits source options translator layout) source ∧
        output.translated = (translatedCalls translate calls).length ∧
        (output.issues.filter isSkipped).Perm ((failedCalls translate calls).map fun skipped =>
          (skippedIssue source (LineIndex.ofText source) options.file skipped).2) := by
  obtain ⟨layout, hlayout, houtput⟩ := output_of_transformComponent h
  refine ⟨layout, hlayout, ?_⟩
  unfold componentCalls componentEdits
  obtain ⟨htemplate, rfl⟩ | ⟨template, outcome, issues, htemplate, hregion, rfl⟩ := houtput
  · rw [htemplate]
    refine ⟨?_, rfl, List.Perm.nil⟩
    rw [String.toList_ofList]
    simp [Edit.applyAll, Edit.splice]
  · obtain ⟨rfl, hissues⟩ := outcome_of_transformRegion hregion
    rw [htemplate]
    refine ⟨String.toList_ofList, translated_resolveRegion, ?_⟩
    rw [skipped_resolveRegion] at hissues
    have hblocks : ((layout.named options.blockName).flatMap fun block =>
        blockIssues source (LineIndex.ofText source) options.file block
          (blockMessages source block).2).filter isSkipped = [] := by
      rw [List.filter_flatMap, List.flatMap_eq_nil_iff]
      exact fun block _ => filter_isSkipped_blockIssues _ _ block _
    have hall : issues.filter isSkipped = issues := by
      apply List.filter_eq_self.mpr
      intro issue hissue
      obtain ⟨skipped, _, rfl⟩ := List.mem_map.mp (hissues.mem_iff.mp hissue)
      rfl
    rw [List.filter_append, hblocks, hall]
    exact hissues

/-- A successful transformation counts every call of the template once, whether missing translations
are skipped or are errors: those with a translation, which an edit brings in, and those without,
each with one issue that names it. All edits are carried out, as no two of them overlap, and the
calls without a translation stay. -/
theorem transformComponent_accounts
    (h : transformComponent source options translator = .ok output)
    (hname : options.blockName ≠ "template") :
    ∃ layout, locateBlocks source = .ok layout ∧
      let translate := translator.translate (contextOf source options layout)
      let calls := componentCalls source layout translator.functions
      let edits := componentEdits source options translator layout
      output.translated + (output.issues.filter isSkipped).length = calls.length ∧
      output.translated = (translatedCalls translate calls).length ∧
      (output.issues.filter isSkipped).Perm ((failedCalls translate calls).map fun skipped =>
        (skippedIssue source (LineIndex.ofText source) options.file skipped).2) ∧
      output.code.toList = Edit.applyAll edits source ∧
      edits.Pairwise (fun a b => a.span.Apart b.span) ∧
      Rewritten 0 source (edits.mergeSort Edit.le) output.code.toList ∧
      (∀ call ∈ translatedCalls translate calls, ∃ template ∈ layout.template?, ∃ edit ∈ edits,
        Delivers source template.span translator.functions translate call edit ∧
        call.span.Within edit.span) ∧
      ∀ skipped ∈ failedCalls translate calls,
        Survives source (edits.mergeSort Edit.le) output.code.toList skipped.candidate := by
  obtain ⟨layout, hlayout, hcode, htranslated, hissues⟩ := output_accounted h
  have hcount : output.translated + (output.issues.filter isSkipped).length =
      (componentCalls source layout translator.functions).length := by
    rw [htranslated, hissues.length_eq, List.length_map]
    exact length_translatedCalls_add _
  have hapart : (componentEdits source options translator layout).Pairwise
      fun a b => a.span.Apart b.span := componentEdits_apart hlayout hname
  have hrewritten := rewritten_applyAll_of_apart
    (fun edit hedit => covers_of_mem_componentEdits hlayout hedit) hapart
  rw [← hcode] at hrewritten
  refine ⟨layout, hlayout, hcount, htranslated, hissues, hcode, hapart, hrewritten,
    fun call hcall => delivered_componentEdits hlayout hcall, ?_⟩
  intro skipped hskipped
  obtain ⟨hcontent, hfailed⟩ := failed_apart_componentEdits hlayout hname hskipped
  exact survives_of_apart hrewritten hcontent fun edit hedit =>
    hfailed edit (List.mem_mergeSort.mp hedit)

def halfTranslated : List Char :=
  "<template><p :title=\"t('a')\">\x7b\x7b t('b') \x7d\x7d</p></template>".toList

theorem transformComponent_accounts_halfTranslated :
    ∃ output layout,
      transformComponent halfTranslated ⟨"en", "", "i18n", true, .skip, "a.vue"⟩
        ⟨.catalog [("en", [("a", "x")])], [("t", .translate)]⟩ = .ok output ∧
      output.code = "<template><p title=\"x\">\x7b\x7b t('b') \x7d\x7d</p></template>" ∧
      output.translated = 1 ∧
      locateBlocks halfTranslated = .ok layout ∧
      1 + (output.issues.filter isSkipped).length =
        (componentCalls halfTranslated layout [("t", .translate)]).length := by
  have hparts : (transformComponent halfTranslated ⟨"en", "", "i18n", true, .skip, "a.vue"⟩
      ⟨.catalog [("en", [("a", "x")])], [("t", .translate)]⟩).toOption.map
        (fun output => (output.code, output.translated)) =
          some ("<template><p title=\"x\">\x7b\x7b t('b') \x7d\x7d</p></template>", 1) := by
    decide +kernel
  cases hresult : transformComponent halfTranslated ⟨"en", "", "i18n", true, .skip, "a.vue"⟩
      ⟨.catalog [("en", [("a", "x")])], [("t", .translate)]⟩ with
  | error error =>
    rw [hresult] at hparts
    cases hparts
  | ok output =>
    rw [hresult] at hparts
    obtain ⟨hcode, htranslated⟩ := Prod.mk.inj (Option.some.inj hparts)
    obtain ⟨layout, hlayout, hcount, _⟩ := transformComponent_accounts hresult (by decide)
    rw [htranslated] at hcount
    exact ⟨output, layout, rfl, hcode, htranslated, hlayout, hcount⟩

end TemplateMessages.Component
