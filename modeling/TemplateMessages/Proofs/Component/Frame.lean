import TemplateMessages.Component.Transform
import TemplateMessages.Proofs.Component.Walk
import TemplateMessages.Proofs.Template.Replaceable
import TemplateMessages.Proofs.Text.Rewriting

set_option autoImplicit false

/-!
# What the transformation of a component changes

A successful transformation changes replaceable places of the template and removes message blocks,
and copies everything else. What it keeps is said by `Kept`: comments, raw text, end tags, the tag
of the template itself, what is not translated, unbound attributes, and all that is not scanned.
-/

namespace TemplateMessages.Component

open TemplateMessages.Call (FunctionNames)
open TemplateMessages.Markup
open TemplateMessages.Template
open TemplateMessages.Text
open TemplateMessages.Translation

section

/-- The removal of a message block with the line break behind it. -/
def IsRemoval (source : List Char) (options : Options) (layout : Layout) (change : Edit) : Prop :=
  ∃ block ∈ layout.blocks, block.name = options.blockName ∧
    change = Edit.delete (throughLineBreak source block.span)

/-- What may be changed in a component with this template, and only when the template has a call. -/
def MayChange (source : List Char) (options : Options) (names : FunctionNames) (layout : Layout)
    (template : Block) (change : Edit) : Prop :=
  callsOf source template.span names ≠ [] ∧
    (Replaceable source names (scan source template.span) change.span ∨
      options.removeBlock = true ∧ IsRemoval source options layout change)

/-- The messages of a component stand in front of those of the project. -/
def contextOf (source : List Char) (options : Options) (layout : Layout) : Context :=
  ⟨options.locale, options.fallback, (layout.named options.blockName).foldl
    (fun overlay block => Catalog.merge overlay (blockMessages source block).1) []⟩

def removals (source : List Char) (options : Options) (layout : Layout) (recognized : Nat) :
    List Edit :=
  if options.removeBlock && recognized != 0 then
    (layout.named options.blockName).map fun block =>
      Edit.delete (throughLineBreak source block.span)
  else []

inductive Kept (scanned : Scan) (template : Span) : Span → Prop
  | token {token : Token} (member : token ∈ scanned.tokens) (plain : isTranslated token = false) :
      Kept scanned template token.span
  | unbound {tag : StartTag} {attr : Attribute} (token : Token.startTag tag ∈ scanned.tokens)
      (member : attr ∈ tag.attributes) (plain : isBound attr = false) :
      Kept scanned template attr.span
  | unscanned {span : Span} (outside : span.Apart ⟨template.start, scanned.stop⟩) :
      Kept scanned template span

variable {source : List Char} {options : Options} {translator : Translator} {layout : Layout}
  {output : Output}

theorem Kept.apart {template span change : Span} {region : List Char} {names : FunctionNames}
    (hregion : Covers 0 source template region) (h : Kept (scan source template) template span)
    (hchange : Replaceable source names (scan source template) change) : span.Apart change := by
  cases h with
  | token member plain => exact hchange.apart_token hregion member plain
  | unbound token member plain => exact hchange.apart_attribute hregion token member plain
  | unscanned outside => exact outside.within (hchange.within_scan hregion)

theorem covers_of_mem_layout (h : locateBlocks source = .ok layout) {block : Block}
    (hmem : block ∈ layout.blocks) : ∃ chars, Covers 0 source block.span chars := by
  obtain ⟨chars, hchars⟩ := covers_of_mem_blocksFrom (locateBlocks_eq_ok_iff.mp h) block hmem
  exact ⟨_, hchars⟩

theorem covers_template (h : locateBlocks source = .ok layout) {template : Block}
    (htemplate : layout.template? = some template) : ∃ chars, Covers 0 source template.span chars :=
  covers_of_mem_layout h (List.mem_of_find?_eq_some htemplate)

theorem covers_throughLineBreak {span : Span} {chars : List Char} (h : Covers 0 source span chars) :
    ∃ lineBreak, lineBreak ∈ ["".toList, "\n".toList, "\r\n".toList] ∧
      Covers 0 source (throughLineBreak source span) (chars ++ lineBreak) := by
  obtain ⟨front, rest, rfl, rfl⟩ := h
  have hrest : dropBytes (0 + byteLength front + byteLength chars) (front ++ chars ++ rest) =
      rest := by
    rw [Nat.zero_add, ← byteLength_append, dropBytes_byteLength_append]
  unfold throughLineBreak
  dsimp only
  rw [hrest]
  split
  · rename_i after
    refine ⟨_, List.mem_cons_of_mem _ List.mem_cons_self, front, after, by simp, ?_⟩
    rw [add_byteLength_append]
    rfl
  · rename_i after
    refine ⟨"\r\n".toList, by simp, front, after, by simp, ?_⟩
    rw [add_byteLength_append]
    rfl
  · refine ⟨_, List.mem_cons_self, front, rest, by simp, ?_⟩
    rw [add_byteLength_append]
    rfl

theorem outcome_of_transformRegion {lines : LineIndex} {region : Span} {context : Context}
    {outcome : Outcome} {issues : List Report.Issue}
    (h : transformRegion source lines region options translator context = .ok (outcome, issues)) :
    outcome = resolveRegion source region translator.functions (translator.translate context) ∧
      issues.Perm (outcome.skipped.map fun call =>
        (skippedIssue source lines options.file call).2) := by
  unfold transformRegion at h
  dsimp only at h
  split at h
  · cases h
  · obtain ⟨rfl, rfl⟩ := Prod.mk.inj (Except.ok.inj h)
    refine ⟨rfl, ?_⟩
    have hsorted := (List.mergeSort_perm ((resolveRegion source region translator.functions
      (translator.translate context)).skipped.map (skippedIssue source lines options.file))
        fun a b => a.1.le b.1).map (·.2)
    rwa [List.map_map] at hsorted

theorem output_of_transformComponent
    (h : transformComponent source options translator = .ok output) :
    ∃ layout, locateBlocks source = .ok layout ∧
      ((layout.template? = none ∧ output = ⟨String.ofList source, [], 0⟩) ∨
        ∃ template outcome issues, layout.template? = some template ∧
          transformRegion source (LineIndex.ofText source) template.span options translator
            (contextOf source options layout) = .ok (outcome, issues) ∧
          output = ⟨String.ofList (Edit.applyAll
              (outcome.edits ++ removals source options layout outcome.recognized) source),
            (layout.named options.blockName).flatMap (fun block =>
              blockIssues source (LineIndex.ofText source) options.file block
                (blockMessages source block).2) ++ issues,
            outcome.translated⟩) := by
  unfold transformComponent at h
  split at h
  · cases h
  · rename_i layout hlayout
    refine ⟨layout, hlayout, ?_⟩
    cases htemplate : layout.template? with
    | none =>
      rw [htemplate] at h
      exact Or.inl ⟨rfl, (Except.ok.inj h).symm⟩
    | some template =>
      rw [htemplate] at h
      dsimp only [bind, Except.bind, pure, Except.pure] at h
      simp only [List.foldl_map, List.flatMap_map, List.map_map] at h
      split at h
      · cases h
      · rename_i result hregion
        exact Or.inr ⟨template, result.1, result.2, rfl, hregion, (Except.ok.inj h).symm⟩

theorem mem_removals {recognized : Nat} {edit : Edit}
    (h : edit ∈ removals source options layout recognized) :
    options.removeBlock = true ∧ recognized ≠ 0 ∧ IsRemoval source options layout edit := by
  unfold removals at h
  split at h
  · rename_i hremove
    rw [Bool.and_eq_true, bne_iff_ne] at hremove
    obtain ⟨block, hblock, rfl⟩ := List.mem_map.mp h
    obtain ⟨hmem, hname⟩ := List.mem_filter.mp hblock
    exact ⟨hremove.1, hremove.2, block, hmem, beq_iff_eq.mp hname, rfl⟩
  · cases h

theorem edits_of_transformComponent (h : transformComponent source options translator = .ok output)
    (hlayout : locateBlocks source = .ok layout) :
    ∃ edits, output.code.toList = Edit.applyAll edits source ∧
      ∀ edit ∈ edits, ∃ template, layout.template? = some template ∧
        MayChange source options translator.functions layout template edit := by
  obtain ⟨found, hfound, houtput⟩ := output_of_transformComponent h
  obtain rfl := Except.ok.inj (hlayout.symm.trans hfound)
  obtain ⟨_, rfl⟩ | ⟨template, outcome, issues, htemplate, hregion, rfl⟩ := houtput
  · refine ⟨[], ?_, by simp⟩
    rw [String.toList_ofList]
    simp [Edit.applyAll, Edit.splice]
  · obtain ⟨rfl, _⟩ := outcome_of_transformRegion hregion
    refine ⟨_, String.toList_ofList, ?_⟩
    intro edit hedit
    refine ⟨template, htemplate, ?_⟩
    rcases List.mem_append.mp hedit with htemplateEdit | hremoval
    · refine ⟨?_, Or.inl (replaceable_of_mem_edits htemplateEdit)⟩
      intro hnil
      rw [edits_eq_nil_of_callsOf_eq_nil hnil] at htemplateEdit
      cases htemplateEdit
    · obtain ⟨hremove, hcalls, hblock⟩ := mem_removals hremoval
      refine ⟨?_, Or.inr ⟨hremove, hblock⟩⟩
      intro hnil
      rw [recognized_resolveRegion, hnil] at hcalls
      exact hcalls rfl

theorem IsRemoval.covers (hlayout : locateBlocks source = .ok layout) {change : Edit}
    (h : IsRemoval source options layout change) : ∃ old, Covers 0 source change.span old := by
  obtain ⟨block, hmem, _, rfl⟩ := h
  obtain ⟨chars, hchars⟩ := covers_of_mem_layout hlayout hmem
  obtain ⟨lineBreak, _, hbreak⟩ := covers_throughLineBreak hchars
  exact ⟨_, hbreak⟩

theorem covers_of_mayChange (hlayout : locateBlocks source = .ok layout) {template : Block}
    (htemplate : layout.template? = some template) {names : FunctionNames} {change : Edit}
    (h : MayChange source options names layout template change) :
    ∃ old, Covers 0 source change.span old := by
  rcases h.2 with hreplaceable | ⟨_, hremoval⟩
  · obtain ⟨region, hregion⟩ := covers_template hlayout htemplate
    exact (hreplaceable.placed hregion).1
  · exact hremoval.covers hlayout

/-- A successful transformation is a rewriting of the component by changes that it may make. What
is kept, and in no removed block, is copied. Without a call nothing is changed. -/
theorem transformComponent_frame (h : transformComponent source options translator = .ok output) :
    ∃ layout changes, locateBlocks source = .ok layout ∧
      Rewritten 0 source changes output.code.toList ∧
      changes.Pairwise (fun a b => a.span.stop ≤ b.span.start) ∧
      (∀ change ∈ changes, ∃ template, layout.template? = some template ∧
        MayChange source options translator.functions layout template change) ∧
      (∀ template, layout.template? = some template → ∀ span chars,
        Kept (scan source template.span) template.span span → Covers 0 source span chars →
        (∀ change ∈ changes, IsRemoval source options layout change → span.Apart change.span) →
        ∃ place, Covers 0 output.code.toList place chars) ∧
      ((∀ template, layout.template? = some template →
        callsOf source template.span translator.functions = []) → output.code.toList = source) := by
  obtain ⟨layout, hlayout⟩ : ∃ layout, locateBlocks source = .ok layout := by
    cases hlocate : locateBlocks source with
    | error location => simp [transformComponent, hlocate] at h
    | ok layout => exact ⟨layout, rfl⟩
  obtain ⟨edits, hcode, hedits⟩ := edits_of_transformComponent h hlayout
  have hcovers : ∀ edit ∈ edits, ∃ old, Covers 0 source edit.span old := by
    intro edit hedit
    obtain ⟨template, htemplate, hchange⟩ := hedits edit hedit
    exact covers_of_mayChange hlayout htemplate hchange
  obtain ⟨changes, hsub, hrewritten⟩ := rewritten_applyAll edits source hcovers
  rw [← hcode] at hrewritten
  refine ⟨layout, changes, hlayout, hrewritten, hrewritten.ascending,
    fun change hchange => hedits change (hsub change hchange), ?_, ?_⟩
  · intro template htemplate span chars hkept hspan hremovals
    obtain ⟨region, hregion⟩ := covers_of_mem_layout hlayout (List.mem_of_find?_eq_some htemplate)
    apply hrewritten.copied hspan
    intro change hchange
    obtain ⟨found, hfound, hmay⟩ := hedits change (hsub change hchange)
    obtain rfl := Option.some.inj (htemplate.symm.trans hfound)
    rcases hmay.2 with hreplaceable | ⟨_, hremoval⟩
    · exact hkept.apart hregion hreplaceable
    · exact hremovals change hchange hremoval
  · intro hnone
    have hnil : changes = [] := by
      apply List.eq_nil_iff_forall_not_mem.mpr
      intro change hchange
      obtain ⟨template, htemplate, hmay⟩ := hedits change (hsub change hchange)
      exact hmay.1 (hnone template htemplate)
    subst hnil
    exact hrewritten.output_eq_of_nil

def titled : List Char :=
  "<template><p :title=\"t('a')\" id=\"t('a')\"/></template>".toList

theorem transformComponent_frame_titled :
    ∃ output layout changes,
      transformComponent titled ⟨"en", "", "i18n", true, .skip, "a.vue"⟩
        ⟨.catalog [("en", [("a", "x")])], [("t", .translate)]⟩ = .ok output ∧
      output.code = "<template><p title=\"x\" id=\"t('a')\"/></template>" ∧
      locateBlocks titled = .ok layout ∧ Rewritten 0 titled changes output.code.toList := by
  have hcode : (transformComponent titled ⟨"en", "", "i18n", true, .skip, "a.vue"⟩
      ⟨.catalog [("en", [("a", "x")])], [("t", .translate)]⟩).toOption.map (·.code) =
        some "<template><p title=\"x\" id=\"t('a')\"/></template>" := by
    decide +kernel
  cases hresult : transformComponent titled ⟨"en", "", "i18n", true, .skip, "a.vue"⟩
      ⟨.catalog [("en", [("a", "x")])], [("t", .translate)]⟩ with
  | error error =>
    rw [hresult] at hcode
    cases hcode
  | ok output =>
    rw [hresult] at hcode
    obtain ⟨layout, changes, hlayout, hrewritten, _⟩ := transformComponent_frame hresult
    exact ⟨output, layout, changes, rfl, Option.some.inj hcode, hlayout, hrewritten⟩

end

section

variable {source : List Char} {options : Options} {layout : Layout}

@[simp] theorem start_throughLineBreak (source : List Char) (span : Span) :
    (throughLineBreak source span).start = span.start := by
  unfold throughLineBreak
  split <;> rfl

theorem stop_le_throughLineBreak (source : List Char) (span : Span) :
    span.stop ≤ (throughLineBreak source span).stop := by
  unfold throughLineBreak
  split <;> simp

theorem throughLineBreak_stop_le {front rest chars : List Char} {span next : Span}
    (hstop : span.stop = byteLength front)
    (h : Covers (byteLength front) rest next ('<' :: chars)) :
    (throughLineBreak (front ++ rest) span).stop ≤ next.start := by
  -- The block starts with `<`, which no line break does, so the break ends within the gap.
  obtain ⟨gap, after, rfl, rfl⟩ := h
  unfold throughLineBreak
  rw [hstop, dropBytes_byteLength_append]
  have sizes : '\n'.utf8Size = 1 ∧ '\r'.utf8Size = 1 := by decide
  split
  · rename_i tail hrest
    cases gap with
    | nil => cases hrest
    | cons c gap =>
      obtain rfl := (List.cons.inj hrest).1
      simp only [byteLength, sizes.1]
      omega
  · rename_i tail hrest
    cases gap with
    | nil => cases hrest
    | cons c gap =>
      obtain ⟨rfl, htail⟩ := List.cons.inj hrest
      cases gap with
      | nil => cases htail
      | cons d gap =>
        obtain rfl := (List.cons.inj htail).1
        simp only [byteLength, sizes.1, sizes.2]
        omega
  · rw [hstop]
    exact Nat.le_add_right _ _

theorem blocksFrom_ascending {position : Nat} {text : List Char} {blocks : List Block}
    (h : blocksFrom position text = .ok blocks) : ∀ before, byteLength before = position →
      blocks.Pairwise fun a b =>
        (throughLineBreak (before ++ text) a.span).stop ≤ b.span.start := by
  -- A line break is looked up in the whole source, so the walk keeps what it has read in `before`.
  refine blocksFrom_induction (motive := fun position text blocks =>
    ∀ before, byteLength before = position → blocks.Pairwise fun a b =>
      (throughLineBreak (before ++ text) a.span).stop ≤ b.span.start) ?_ ?_ h
  · intro position text before _
    exact List.Pairwise.nil
  · rintro _ front found rest later _ hstep hlater ih before rfl
    have hplace := byteLength_append before front
    rw [← List.append_assoc]
    refine List.pairwise_append.mpr ⟨?_, ih (before ++ front) hplace, ?_⟩
    · cases found with
      | none => exact List.Pairwise.nil
      | some block => exact List.pairwise_singleton _ _
    · intro block hblock next hnext
      obtain ⟨_, _, _, _, hspan⟩ := append_of_blockStep hstep
      obtain ⟨chars, hchars⟩ := covers_of_mem_blocksFrom hlater next hnext
      rw [← hplace] at hchars
      refine throughLineBreak_stop_le ?_ hchars
      rw [hspan block (Option.mem_toList.mp hblock), hplace]

theorem blocks_apart (h : locateBlocks source = .ok layout) :
    layout.blocks.Pairwise fun a b =>
      (throughLineBreak source a.span).Apart (throughLineBreak source b.span) := by
  refine (blocksFrom_ascending (locateBlocks_eq_ok_iff.mp h) [] rfl).imp ?_
  intro first second hle
  rw [← start_throughLineBreak source second.span] at hle
  exact Or.inl hle

theorem removals_apart (h : locateBlocks source = .ok layout) (recognized : Nat) :
    (removals source options layout recognized).Pairwise fun a b => a.span.Apart b.span := by
  unfold removals
  split
  · rw [List.pairwise_map]
    exact (blocks_apart h).filter _
  · exact List.Pairwise.nil

theorem template_apart_removal (h : locateBlocks source = .ok layout) {template : Block}
    (htemplate : layout.template? = some template) (hname : options.blockName ≠ "template")
    {edit : Edit} (hedit : IsRemoval source options layout edit) :
    template.span.Apart edit.span := by
  obtain ⟨block, hmem, hblock, rfl⟩ := hedit
  have htemplateName : template.name = "template" := by simpa using List.find?_some htemplate
  have hne : template ≠ block := by
    rintro rfl
    exact hname (hblock.symm.trans htemplateName)
  have : Std.Symm fun a b : Block =>
      (throughLineBreak source a.span).Apart (throughLineBreak source b.span) :=
    ⟨fun _ _ => Span.Apart.symm⟩
  have hapart := (blocks_apart h).forall (List.mem_of_find?_eq_some htemplate) hmem hne
  have hwithin : template.span.Within (throughLineBreak source template.span) :=
    ⟨Nat.le_of_eq (start_throughLineBreak source _), stop_le_throughLineBreak source template.span⟩
  exact (hapart.symm.within hwithin).symm

end

end TemplateMessages.Component
