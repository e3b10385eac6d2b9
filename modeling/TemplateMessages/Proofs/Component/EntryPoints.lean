import TemplateMessages.Proofs.Component.OnMissing
import TemplateMessages.Proofs.Component.TemplateTags
import TemplateMessages.Proofs.Component.Walk
import TemplateMessages.Proofs.Template.Enclosed

set_option autoImplicit false

/-!
# A template in a component and on its own

A component that is one template is transformed as the content of that template on its own, with the
tags around it. The two may differ where a call stands in or behind an outermost template of the
content, which counts as the root when the content is on its own, where the end tag of the template
finishes what the content leaves unfinished, and where the template is taken for the block of the
messages.
-/

namespace TemplateMessages.Component

open TemplateMessages.Catalog (LocaleMessages)
open TemplateMessages.Markup
open TemplateMessages.Report (Issue)
open TemplateMessages.Template
open TemplateMessages.Text
open TemplateMessages.Translation

def SoleTemplate (content : List Char) : Prop :=
  ∃ block, locateBlocks (inTemplate content) = .ok ⟨[block]⟩ ∧ block.name = "template" ∧
    block.content.slice (inTemplate content) = content

/-- What comes of a template, given what comes of its content: the same code between the tags and as
many translations, or the same missing translation. -/
inductive Encloses : Except TransformError Output → Except TransformError Output → Prop
  | output (code : String) (issues issues' : List Issue) (translated : Nat) :
      Encloses (.ok ⟨code, issues, translated⟩)
        (.ok ⟨"<template>" ++ code ++ "</template>", issues', translated⟩)
  | missing (location location' : Location) (expression : String) (error : TranslationError) :
      Encloses (.error (.missingTranslation location expression error))
        (.error (.missingTranslation location' expression error))

def templateMessages (content : List Char) : LocaleMessages :=
  match Catalog.parseBlockMessages content with
  | .ok (messages, _) => messages
  | .error _ => []

def fragmentContext (options : Options) : Context :=
  ⟨options.locale, options.fallback, []⟩

def templateContext (content : List Char) (options : Options) : Context :=
  ⟨options.locale, options.fallback,
    if options.blockName = "template" then Catalog.merge [] (templateMessages content) else []⟩

variable {content before chars rest : List Char} {options : Options} {translator : Translator}

theorem exists_templateClose? {block : Block} {later : List Block}
    (h : blocksFrom 0 (inTemplate content) = .ok (block :: later)) :
    ∃ before chars rest, templateClose? 0 (content ++ templateEnd) = some (before, chars, rest) ∧
      block.content =
        ⟨byteLength templateStart, byteLength templateStart + byteLength before⟩ ∧
      block.attributes = [] ∧ block.span = ⟨0, byteLength templateStart + byteLength before + byteLength chars⟩ := by
  have hclose : blockClose? (templateElement.startTag none).name (content ++ templateEnd) =
      templateClose? 0 (content ++ templateEnd) := if_pos rfl
  have hstart : 0 + byteLength (templateElement.startTag none).chars = byteLength templateStart :=
    Nat.zero_add _
  rw [blocksFrom_eq, blockStep_of_readTag? 0 (readTag?_inTemplate content), tagStep, hclose,
    hstart] at h
  cases hfound : templateClose? 0 (content ++ templateEnd) with
  | none =>
    rw [hfound] at h
    cases h
  | some found =>
    obtain ⟨before, chars, rest⟩ := found
    rw [hfound] at h
    obtain ⟨more, -, heq⟩ := ok_of_map_append h
    obtain rfl := (List.cons.inj heq).1
    exact ⟨before, chars, rest, rfl, rfl, rfl, rfl⟩

theorem SoleTemplate.exists_block (h : SoleTemplate content) :
    ∃ block, locateBlocks (inTemplate content) = .ok ⟨[block]⟩ ∧ block.name = "template" ∧
      block.span = ⟨0, byteLength (inTemplate content)⟩ ∧
      (blockMessages (inTemplate content) block).1 = templateMessages content := by
  obtain ⟨block, hlayout, hname, hcontent⟩ := h
  have hblocks : blocksFrom 0 (inTemplate content) = .ok [block] :=
    locateBlocks_eq_ok_iff.mp hlayout
  obtain ⟨before, chars, rest, hfound, hinside, hattributes, hspan⟩ := exists_templateClose? hblocks
  have hlanguage : (block.attribute? "lang").getD "json" = "json" := by
    unfold Block.attribute?
    rw [hattributes]
    rfl
  have hmessages : (blockMessages (inTemplate content) block).1 = templateMessages content := by
    unfold blockMessages templateMessages
    rw [hlanguage, hcontent]
    cases Catalog.parseBlockMessages content <;> rfl
  refine ⟨block, hlayout, hname, ?_, hmessages⟩
  have htext := append_of_templateClose? hfound
  rw [List.append_assoc] at htext
  have hcovers : Covers 0 (inTemplate content) block.content before := by
    have hbehind := (Covers.head (byteLength templateStart) before (chars ++ rest))
    rw [← hinside, htext, ← Nat.zero_add (byteLength templateStart)] at hbehind
    have hwhole := hbehind.behind
    rwa [← List.append_assoc] at hwhole
  -- the content is all in front of the end tag, so the end tag is what is left
  obtain rfl : before = content := hcovers.slice_eq.symm.trans hcontent
  have hend : chars ++ rest = templateEnd := List.append_cancel_left htext
  obtain ⟨inner, front, hsearch⟩ := exists_findEndTag?_of_templateClose? hfound
  obtain ⟨opening, hchars, hlength⟩ := exists_of_findEndTag? hsearch
  have hrest : rest = [] := by
    have hboth := congrArg List.length hend
    rw [hchars] at hboth
    simp only [List.length_append, List.length_cons, List.length_nil] at hboth hlength
    have hname : templateName.length = 8 := rfl
    have htag : templateEnd.length = 11 := rfl
    exact List.length_eq_zero_iff.mp (by omega)
  rw [hrest, List.append_nil] at hend
  rw [hspan, hend, inTemplate, byteLength_append, byteLength_append]

theorem ofList_inTemplate (code : List Char) :
    String.ofList (inTemplate code) = "<template>" ++ String.ofList code ++ "</template>" := by
  have hstart : String.ofList templateStart = "<template>" := rfl
  have hend : String.ofList templateEnd = "</template>" := rfl
  rw [inTemplate, String.ofList_append, String.ofList_append, hstart, hend]

theorem named_template {block : Block} (hname : block.name = "template") (blockName : String) :
    (Layout.mk [block]).named blockName = if blockName = "template" then [block] else [] := by
  by_cases hblock : blockName = "template"
  · simp [Layout.named, hname, hblock]
  · have hother := Ne.symm hblock
    simp [Layout.named, hname, hblock, hother]

theorem contextOf_template {block : Block} (hname : block.name = "template")
    (hmessages : (blockMessages (inTemplate content) block).1 = templateMessages content)
    (options : Options) :
    contextOf (inTemplate content) options ⟨[block]⟩ = templateContext content options := by
  unfold contextOf templateContext
  rw [named_template hname, ← hmessages]
  split <;> rfl

/-- A component that is one template comes to the same as the content on its own, or both stop at the
same missing translation, when they have the same calls to translate, and the template is not removed
as a block of messages. They have the same sites but for those in the attributes of an outermost
template of the content and behind its end, which the content on its own does not have, and those
behind an outermost template that asks for no translation and in what the content does not finish,
which the component does not have. -/
theorem transformComponent_inTemplate (hsole : SoleTemplate content) (options : Options)
    (translator : Translator) :
    (∀ site ∈ allSites (inTemplate content), ∃ own, own.shift (byteLength templateStart) = site ∧
      (own ∈ allSites content ∨ InRootTag (scanFrom 0 [] content).tokens own ∨
        (scanFrom 0 [] content).stop ≤ own.whole.start)) ∧
    (∀ site ∈ allSites content,
      site.shift (byteLength templateStart) ∈ allSites (inTemplate content) ∨
        BehindPlainRoot (scanFrom 0 [] content).tokens site ∨ IntoUnfinished content site) ∧
    (AlikeCalls content translator.functions (translator.translate (fragmentContext options))
        (translator.translate (templateContext content options)) options.onMissing →
      (options.blockName = "template" → options.removeBlock = true →
        (transformTemplate content options translator).toOption.isSome = true →
          callsOf (inTemplate content) ⟨0, byteLength (inTemplate content)⟩
            translator.functions = []) →
      Encloses (transformTemplate content options translator)
        (transformComponent (inTemplate content) options translator)) := by
  refine ⟨fun site => exists_of_mem_inTemplate, fun site => mem_inTemplate_of_mem, ?_⟩
  intro halike hkept
  rw [fragmentContext] at halike
  obtain ⟨block, hlayout, htemplate, hspan, hmessages⟩ := hsole.exists_block
  have hfirst : (Layout.mk [block]).template? = some block := by
    simp [Layout.template?, htemplate]
  rw [transformTemplate_eq] at hkept ⊢
  rw [transformComponent_of_template hlayout hfirst, hspan, contextOf_template htemplate hmessages]
  obtain ⟨outcome, outcome', issues, issues', hrun, hrun', htranslated, hcode, hrecognized⟩ |
    ⟨location, location', expression, error, hrun, hrun'⟩ :=
    transformRegion_inTemplate halike (LineIndex.ofText content)
      (LineIndex.ofText (inTemplate content))
  · have hremovals :
        removals (inTemplate content) options ⟨[block]⟩ outcome'.recognized = [] := by
      unfold removals
      rw [named_template htemplate]
      split
      · rename_i hremove
        obtain ⟨hon, hcalls⟩ := Bool.and_eq_true_iff.mp hremove
        rw [if_neg, List.map_nil]
        intro hblock
        have hnone := hkept hblock hon (by rw [hrun]; rfl)
        rw [hrecognized, hnone] at hcalls
        cases hcalls
      · rfl
    rw [hrun, hrun', Except.map, Except.map]
    unfold templateOutput componentOutput
    rw [hremovals, List.append_nil, hcode, htranslated, ofList_inTemplate]
    exact .output _ _ _ _
  · rw [hrun, hrun']
    exact .missing location location' expression error

theorem soleTemplate_of_blocks (stop : Nat)
    (hblocks : (locateBlocks (inTemplate content)).toOption.map Layout.blocks =
      some [⟨"template", ⟨0, stop + 11⟩, ⟨10, stop⟩, []⟩])
    (hcontent : (⟨10, stop⟩ : Span).slice (inTemplate content) = content) :
    SoleTemplate content := by
  refine ⟨⟨"template", ⟨0, stop + 11⟩, ⟨10, stop⟩, []⟩, ?_, rfl, hcontent⟩
  cases hlayout : locateBlocks (inTemplate content) with
  | error location =>
    rw [hlayout] at hblocks
    cases hblocks
  | ok layout =>
    rw [hlayout] at hblocks
    obtain ⟨blocks⟩ := layout
    rw [show blocks = _ from Option.some.inj hblocks]

def englishTranslator : Translator :=
  ⟨.catalog [("en", [("hi", "Hi")])], [("t", .translate)]⟩

def englishOptions (blockName : String) (removeBlock : Bool) : Options :=
  ⟨"en", "", blockName, removeBlock, .skip, "a.vue"⟩

/-- A call in an element and one in an outermost template with an attribute, with white space and an
end tag that does not end behind it. -/
def greeting : List Char :=
  "<b :title=\x22t('hi')\x22></b><template v-if=\x22ok\x22>\x7b\x7b t('hi') \x7d\x7d</template>\n</p".toList

theorem transformComponent_inTemplate_greeting :
    SoleTemplate greeting ∧
      (transformTemplate greeting (englishOptions "template" false) englishTranslator).toOption.map
        Output.translated = some 2 ∧
      Encloses (transformTemplate greeting (englishOptions "template" false) englishTranslator)
        (transformComponent (inTemplate greeting) (englishOptions "template" false)
          englishTranslator) := by
  have hsole : SoleTemplate greeting :=
    soleTemplate_of_blocks 82 (by decide +kernel) (by decide +kernel)
  have hmessages : templateMessages greeting = [] :=
    List.isEmpty_iff.mp (by decide +kernel)
  have hcontext : templateContext greeting (englishOptions "template" false) =
      fragmentContext (englishOptions "template" false) := by
    unfold templateContext
    rw [hmessages]
    rfl
  refine ⟨hsole, by decide +kernel, ?_⟩
  refine (transformComponent_inTemplate hsole (englishOptions "template" false)
    englishTranslator).2.2 ⟨by decide +kernel, by decide +kernel, fun site _ call _ => ?_⟩
    fun _ hremove => Bool.noConfusion hremove
  rw [hcontext]
  exact .inl rfl

theorem Encloses.code_eq {result whole : Except TransformError Output} (h : Encloses result whole) :
    whole.toOption.map Output.code =
      result.toOption.map fun output => "<template>" ++ output.code ++ "</template>" := by
  cases h <;> rfl

def behindRoot : List Char :=
  "<template></template>\x7b\x7b t('hi') \x7d\x7d".toList

def inRootTag : List Char :=
  "<template :title=\x22t('hi')\x22></template>".toList

def inPlainRoot : List Char :=
  "<template translate=\x22no\x22>\x7b\x7b t('hi') \x7d\x7d</template>".toList

def inEndTag : List Char :=
  "</p \x7b\x7b t('hi') \x7d\x7d".toList

def inDoctype : List Char :=
  "<!doctype \x7b\x7b t('hi') \x7d\x7d".toList

def unknownCall : List Char :=
  "\x7b\x7b t('ho') \x7d\x7d".toList

def inMessages : List Char :=
  "\x7b\x22en\x22: \x7b\x22hi\x22: \x22Hello\x22, \x22ho\x22: \x22\x7b\x7b t('hi') \x7d\x7d\x22 \x7d \x7d".toList

def Differs (content : List Char) (blockName : String) (removeBlock : Bool) : Prop :=
  SoleTemplate content ∧
    ¬Encloses
      (transformTemplate content (englishOptions blockName removeBlock) englishTranslator)
      (transformComponent (inTemplate content) (englishOptions blockName removeBlock)
        englishTranslator)

theorem differs_of_code {blockName : String} {removeBlock : Bool} (stop : Nat)
    (hblocks : (locateBlocks (inTemplate content)).toOption.map Layout.blocks =
      some [⟨"template", ⟨0, stop + 11⟩, ⟨10, stop⟩, []⟩])
    (hcontent : (⟨10, stop⟩ : Span).slice (inTemplate content) = content)
    (hcode : (transformComponent (inTemplate content) (englishOptions blockName removeBlock)
        englishTranslator).toOption.map Output.code ≠
      (transformTemplate content (englishOptions blockName removeBlock)
        englishTranslator).toOption.map fun output =>
          "<template>" ++ output.code ++ "</template>") :
    Differs content blockName removeBlock :=
  ⟨soleTemplate_of_blocks stop hblocks hcontent, fun h => hcode h.code_eq⟩

/-- Each of the conditions is needed. The first five calls are translated on one side only, the next
template is removed as the block of the messages, and the last one has its own translation. -/
theorem not_encloses_exceptions :
    Differs behindRoot "i18n" true ∧ Differs inRootTag "i18n" true ∧
      Differs inPlainRoot "i18n" true ∧ Differs inEndTag "i18n" true ∧
      Differs inDoctype "i18n" true ∧ Differs unknownCall "template" true ∧
      Differs inMessages "template" false :=
  ⟨differs_of_code 44 (by decide +kernel) (by decide +kernel) (by decide +kernel),
    differs_of_code 48 (by decide +kernel) (by decide +kernel) (by decide +kernel),
    differs_of_code 59 (by decide +kernel) (by decide +kernel) (by decide +kernel),
    differs_of_code 27 (by decide +kernel) (by decide +kernel) (by decide +kernel),
    differs_of_code 33 (by decide +kernel) (by decide +kernel) (by decide +kernel),
    differs_of_code 23 (by decide +kernel) (by decide +kernel) (by decide +kernel),
    differs_of_code 58 (by decide +kernel) (by decide +kernel) (by decide +kernel)⟩

end TemplateMessages.Component
