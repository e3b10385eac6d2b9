import TemplateMessages.Proofs.Component.TemplateTags
import TemplateMessages.Proofs.Component.Walk
import TemplateMessages.Proofs.Markup.Equations
import TemplateMessages.Proofs.Markup.Replay
import TemplateMessages.Proofs.Markup.Tiling

set_option autoImplicit false

/-!
# Where a template ends

The end of a template is found twice: by the search for blocks, which counts the template tags of
the plain text, and by the scan of the template, which reads comments, raw text and attributes and
keeps a stack of the open elements. The two agree when the plain tags up to the end that the scan
finds nest, and then only.
-/

namespace TemplateMessages.Component

open TemplateMessages.Markup
open TemplateMessages.Text

/-- Where the end tag of the outermost template ends, when the scan of a text inside `frames` ends
by closing it. -/
def templateStop? (position : Nat) (frames : List Frame) (text : List Char) : Option Nat :=
  match text with
  | [] => none
  | c :: cs =>
    match advance position frames c cs with
    | .stop [.endTag _ _] last => some last
    | .stop _ _ => none
    | .go _ inner next rest _ => templateStop? next inner rest
termination_by text.length
decreasing_by assumption

section

variable {position stop : Nat} {frames : List Frame} {text : List Char}

theorem lt_of_templateStop? (h : templateStop? position frames text = some stop) :
    position < stop := by
  fun_induction templateStop? position frames text with
  | case1 => cases h
  | case2 position frames c cs span name last hstep =>
    obtain rfl := Option.some.inj h
    have does := advance_does position frames c cs
    rw [hstep] at does
    cases does with
    | root _ behind => exact behind
  | case3 => cases h
  | case4 position frames c cs tokens inner next rest shorter hstep ih =>
    have tiled := advance_tiled position frames c cs
    rw [hstep] at tiled
    exact Nat.lt_of_le_of_lt (Tiles.position_le_stop tiled) (ih h)

end

def NestsUpTo (position : Nat) (text : List Char) (stop : Nat) : Prop :=
  ∃ before last after, templateTags position text = before ++ last :: after ∧ Balanced before ∧
    last.kind = .closing ∧ last.span.stop = stop

theorem nestsUpTo_iff {position stop : Nat} {text : List Char} :
    NestsUpTo position text stop ↔
      (firstUnmatched 0 (templateTags position text)).map Span.stop = some stop := by
  constructor
  · rintro ⟨before, last, after, htags, hbefore, hlast, hstop⟩
    rw [firstUnmatched_eq_some_iff.mpr ⟨before, last, after, htags, hbefore, hlast, rfl⟩, ← hstop]
    rfl
  · intro h
    obtain ⟨span, hspan, hstop⟩ := Option.map_eq_some_iff.mp h
    obtain ⟨before, last, after, htags, hbefore, hlast, rfl⟩ := firstUnmatched_eq_some_iff.mp hspan
    exact ⟨before, last, after, htags, hbefore, hlast, hstop⟩

instance (position : Nat) (text : List Char) (stop : Nat) :
    Decidable (NestsUpTo position text stop) :=
  decidable_of_iff _ nestsUpTo_iff.symm

theorem advanceStartTag_selfClosing {text chars rest : List Char} {tag : TagText} (position : Nat)
    (frames : List Frame) (whole : chars ++ rest = text ∧ chars ≠ [])
    (hclose : tag.close = .selfClosing) :
    ∃ tokens shorter, advanceStartTag position frames tag chars rest whole =
      .go tokens frames (position + byteLength chars) rest shorter := by
  unfold advanceStartTag
  simp only [hclose, reduceCtorEq, ↓reduceIte, beq_self_eq_true, true_or]
  exact ⟨_, length_lt_of_append whole, rfl⟩

theorem tag_lt_of_templateStop? {position stop : Nat} {frames : List Frame}
    {text rest : List Char} {tag : TagText} (h : templateStop? position frames text = some stop)
    (htag : readTag? text = some (tag, rest)) (hclose : tag.close = .selfClosing) :
    position + byteLength tag.chars < stop := by
  cases text with
  | nil => cases htag
  | cons c cs =>
    obtain ⟨whole, hstep⟩ := advance_of_readTag? position frames htag
    obtain ⟨tokens, shorter, hgo⟩ := advanceStartTag_selfClosing position frames whole hclose
    rw [templateStop?, hstep, hgo] at h
    exact lt_of_templateStop? h

def FindsTemplate (position : Nat) (text : List Char) (stop : Nat) : Prop :=
  ∃ block next rest, blockStep position text = .go (some block) next rest ∧
    block.name = "template" ∧ block.span = ⟨position, stop⟩

theorem findsTemplate_iff_nestsUpTo {text rest : List Char} {tag : TagText} (position stop : Nat)
    (htag : readTag? text = some (tag, rest)) (hname : tag.name = templateName)
    (hclose : tag.close = .plain) :
    FindsTemplate position text stop ↔
      NestsUpTo (position + byteLength tag.chars) rest stop := by
  rw [nestsUpTo_iff, ← templateClose?_span, Option.map_map]
  unfold FindsTemplate
  rw [blockStep_of_readTag? position htag, tagStep, hclose, hname]
  dsimp only
  rw [blockClose?, if_pos rfl]
  constructor
  · rintro ⟨block, next, later, hstep, _, hblock⟩
    cases hend : templateClose? 0 rest with
    | none =>
      rw [hend] at hstep
      cases hstep
    | some parts =>
      rw [hend] at hstep
      obtain ⟨rfl, _, _⟩ := by simpa only [BlockStep.go.injEq, Option.some.injEq] using hstep
      exact congrArg (fun span => some span.stop) hblock
  · intro h
    obtain ⟨parts, hend, hstop⟩ := Option.map_eq_some_iff.mp h
    rw [hend]
    refine ⟨_, _, _, rfl, ?_, ?_⟩
    · unfold blockOf
      rw [hname]
      rfl
    · rw [← hstop]
      rfl

/-- A template that the search reaches and the scan closes at `stop` is found up to there exactly
when it is not self-closing and its plain tags nest up to there. Then the search does not fail at
the template, and the template is among the blocks. -/
theorem findsTemplate_iff_of_templateStop? {source text rest : List Char} {position stop : Nat}
    {tag : TagText} (reached : Reached source position text)
    (htag : readTag? text = some (tag, rest)) (hname : tag.name = templateName)
    (hscan : templateStop? position []
      ((⟨position, byteLength source⟩ : Span).slice source) = some stop) :
    (FindsTemplate position text stop ↔
      tag.close = .plain ∧ NestsUpTo (position + byteLength tag.chars) rest stop) ∧
    (FindsTemplate position text stop → blocksFrom 0 source ≠ .error position ∧
      ∀ blocks, blocksFrom 0 source = .ok blocks →
        ∃ block ∈ blocks, block.name = "template" ∧ block.span = ⟨position, stop⟩) := by
  rw [reached.covers.slice_eq] at hscan
  constructor
  · constructor
    · intro hfinds
      cases hclose : tag.close with
      | plain => exact ⟨rfl, (findsTemplate_iff_nestsUpTo position stop htag hname hclose).mp hfinds⟩
      | selfClosing =>
        have hlt := tag_lt_of_templateStop? hscan htag hclose
        obtain ⟨block, next, after, hstep, _, hspan⟩ := hfinds
        rw [blockStep_of_readTag? position htag, tagStep, hclose] at hstep
        obtain ⟨rfl, _, _⟩ := by simpa only [BlockStep.go.injEq, Option.some.injEq] using hstep
        have hstop : position + byteLength tag.chars = stop := congrArg Span.stop hspan
        omega
      | missing =>
        obtain ⟨block, next, after, hstep, _, _⟩ := hfinds
        rw [blockStep_of_readTag? position htag, tagStep, hclose] at hstep
        simp only [hname, ↓reduceIte] at hstep
        cases hstep
    · rintro ⟨hclose, hnests⟩
      exact (findsTemplate_iff_nestsUpTo position stop htag hname hclose).mpr hnests
  · rintro ⟨block, next, after, hstep, hblock, hspan⟩
    obtain ⟨herror, hmem⟩ := reached.mem_of_go hstep
    exact ⟨herror, fun blocks hblocks => ⟨block, hmem blocks hblocks, hblock, hspan⟩⟩

def commented : List Char :=
  "<template><!-- </template> --><p>x</p></template>".toList

theorem findsTemplate_iff_of_templateStop?_commented :
    templateStop? 0 [] ((⟨0, byteLength commented⟩ : Span).slice commented) = some 49 ∧
      ¬FindsTemplate 0 commented 49 := by
  have hscan : templateStop? 0 [] ((⟨0, byteLength commented⟩ : Span).slice commented) =
      some 49 := by decide +kernel
  have htag : readTag? commented =
      some (⟨templateName, [], .plain, ['>']⟩, commented.drop 10) := by decide +kernel
  refine ⟨hscan, ?_⟩
  intro hfinds
  have hnests := ((findsTemplate_iff_of_templateStop? .start htag rfl hscan).1.mp hfinds).2
  exact absurd hnests (by decide +kernel)

end TemplateMessages.Component
