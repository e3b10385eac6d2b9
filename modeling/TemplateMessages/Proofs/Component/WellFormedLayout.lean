import TemplateMessages.Proofs.Component.Frame
import TemplateMessages.Proofs.Component.TemplateDepth
import TemplateMessages.Proofs.Component.ValidSpans

set_option autoImplicit false

/-!
# Layouts are well formed

The blocks of a layout stand one behind the other, each from its start tag to its end tag. A place
is at the top level when a step of the search for blocks is taken there; each start tag there that
closes has a block. There is no layout just when the search comes to a template that has no end.
-/

namespace TemplateMessages.Component

open TemplateMessages.Markup
open TemplateMessages.Text

/-- The block stands in the source from its start tag to its end tag. -/
structure Block.WellFormed (source : List Char) (block : Block) : Prop where
  opens : ∃ chars, Covers 0 source block.span ('<' :: block.name.toList ++ chars)
  start : ∃ tag rest, Covers 0 source ⟨block.span.start, byteLength source⟩ (tag.chars ++ rest) ∧
    readTag? (tag.chars ++ rest) = some (tag, rest) ∧
    block.content.start = block.span.start + byteLength tag.chars
  ordered : block.content.start ≤ block.content.stop
  within : block.content.Within block.span
  stop : block.content.stop = block.span.stop ∨
    ∃ chars, Covers 0 source ⟨block.content.stop, block.span.stop⟩ chars ∧
      IsEndTag block.name.toList chars
  first : block.name ≠ "template" → ∀ span chars, Covers 0 source span chars →
    IsEndTag block.name.toList chars → block.content.start ≤ span.start →
      block.content.stop ≤ span.start

/-- The blocks stand in order, one for each start tag at the top level that closes. -/
structure Layout.WellFormed (source : List Char) (layout : Layout) : Prop where
  ascending : layout.blocks.Pairwise fun a b => a.span.stop ≤ b.span.start
  blocks : ∀ block ∈ layout.blocks, block.WellFormed source
  starts : ∀ position, (∃ block ∈ layout.blocks, block.span.start = position) ↔
    ∃ text tag rest, Reached source position text ∧ readTag? text = some (tag, rest) ∧
      tag.close ≠ .missing
  comments : ∀ position text, Reached source position text → "<!--".toList <+: text →
    ∀ block ∈ layout.blocks, block.span.start < position ∨
      position + byteLength (through "-->".toList text).1 ≤ block.span.start

/-- A template starts here that is not closed or has no end tag that balances it. -/
def OpensUnended (position : Nat) (text : List Char) : Prop :=
  ∃ tag rest, readTag? text = some (tag, rest) ∧ tag.name = templateName ∧
    (tag.close = .missing ∨
      tag.close = .plain ∧ StaysOpen 1 (templateTags (position + byteLength tag.chars) rest))

variable {source text rest after : List Char} {position next : Nat} {tag : TagText} {block : Block}
  {layout : Layout}

inductive TagBlock (position : Nat) (tag : TagText) (after : List Char) :
    Block → (next : Nat) → (rest : List Char) → Prop
  | selfClosing (closed : tag.close = .selfClosing) :
      TagBlock position tag after
        (blockOf position tag (position + byteLength tag.chars) (position + byteLength tag.chars))
        (position + byteLength tag.chars) after
  | unended (closed : tag.close = .plain) (name : tag.name ≠ templateName)
      (none : findEndTag? tag.name after = none) :
      TagBlock position tag after
        (blockOf position tag (position + byteLength tag.chars + byteLength after)
          (position + byteLength tag.chars + byteLength after))
        (position + byteLength tag.chars + byteLength after) []
  | ended {before chars rest : List Char} (closed : tag.close = .plain)
      (found : blockClose? tag.name after = some (before, chars, rest)) :
      TagBlock position tag after
        (blockOf position tag (position + byteLength tag.chars + byteLength before)
          (position + byteLength tag.chars + byteLength before + byteLength chars))
        (position + byteLength tag.chars + byteLength before + byteLength chars) rest

theorem tagBlock_of_tagStep (h : tagStep position tag after = .go (some block) next rest) :
    TagBlock position tag after block next rest := by
  unfold tagStep at h
  cases hclose : tag.close with
  | missing =>
    simp only [hclose] at h
    split at h <;> cases h
  | selfClosing =>
    simp only [hclose] at h
    cases h
    exact .selfClosing hclose
  | plain =>
    simp only [hclose] at h
    cases hend : blockClose? tag.name after with
    | none =>
      simp only [hend] at h
      split at h
      · cases h
      · rename_i hname
        cases h
        rw [blockClose?, if_neg hname] at hend
        exact .unended hclose hname hend
    | some parts =>
      obtain ⟨before, chars, last⟩ := parts
      simp only [hend] at h
      cases h
      exact .ended hclose hend

theorem exists_block_of_tagStep (position : Nat) (after : List Char) (h : tag.close ≠ .missing) :
    tagStep position tag after = .fail ∨
      ∃ block next rest, tagStep position tag after = .go (some block) next rest := by
  unfold tagStep
  cases hclose : tag.close with
  | missing => exact absurd hclose h
  | selfClosing => exact .inr ⟨_, _, _, rfl⟩
  | plain =>
    cases hend : blockClose? tag.name after with
    | none =>
      by_cases hname : tag.name = templateName
      · exact .inl (if_pos hname)
      · exact .inr ⟨_, _, _, if_neg hname⟩
    | some parts => exact .inr ⟨_, _, _, rfl⟩

theorem isEndTag_of_blockClose? {name before chars : List Char}
    (h : blockClose? name after = some (before, chars, rest)) : IsEndTag name chars := by
  unfold blockClose? at h
  split at h
  · rename_i hname
    obtain ⟨_, _, hfind⟩ := exists_findEndTag?_of_templateClose? h
    exact hname ▸ isEndTag_of_findEndTag? hfind
  · exact isEndTag_of_findEndTag? h

theorem blockStep_of_comment (position : Nat) (h : "<!--".toList <+: text) :
    blockStep position text =
      .go none (position + byteLength (through "-->".toList text).1)
        (through "-->".toList text).2 := by
  cases text with
  | nil => exact absurd (List.prefix_nil.mp h) (by decide)
  | cons c cs => rw [blockStep, if_pos (List.isPrefixOf_iff_prefix.mpr h)]

theorem tagStep_eq_fail_iff : tagStep position tag after = .fail ↔
    tag.name = templateName ∧
      (tag.close = .missing ∨ tag.close = .plain ∧ templateClose? 0 after = none) := by
  unfold tagStep
  cases hclose : tag.close with
  | missing => by_cases hname : tag.name = templateName <;> simp [hname]
  | selfClosing => simp
  | plain =>
    cases hend : blockClose? tag.name after with
    | none =>
      by_cases hname : tag.name = templateName
      · rw [hname, blockClose?, if_pos rfl] at hend
        simp [hname, hend]
      · simp [hname]
    | some parts =>
      have hfound : tag.name = templateName → templateClose? 0 after ≠ none := by
        intro hname
        rw [hname, blockClose?, if_pos rfl] at hend
        simp [hend]
      simpa using hfound

theorem blockStep_eq_fail_iff :
    blockStep position text = .fail ↔ OpensUnended position text := by
  constructor
  · intro h
    cases text with
    | nil => cases h
    | cons c cs =>
      cases htag : readTag? (c :: cs) with
      | none =>
        simp only [blockStep, htag] at h
        split at h <;> cases h
      | some found =>
        rw [blockStep_of_readTag? position htag, tagStep_eq_fail_iff] at h
        exact ⟨found.1, found.2, htag, h.1, h.2.imp_right fun hplain =>
          ⟨hplain.1, templateClose?_eq_none_iff.mp hplain.2⟩⟩
  · rintro ⟨tag, after, htag, hname, hends⟩
    rw [blockStep_of_readTag? position htag, tagStep_eq_fail_iff]
    exact ⟨hname, hends.imp_right fun hplain =>
      ⟨hplain.1, templateClose?_eq_none_iff.mpr hplain.2⟩⟩

namespace TagBlock

theorem close_ne (h : TagBlock position tag after block next rest) : tag.close ≠ .missing := by
  cases h with
  | selfClosing closed => simp [closed]
  | unended closed => simp [closed]
  | ended closed => simp [closed]

theorem start_eq (h : TagBlock position tag after block next rest) :
    block.name.toList = tag.name ∧ block.span.start = position ∧
      block.content.start = position + byteLength tag.chars := by
  cases h <;> exact ⟨String.toList_ofList, rfl, rfl⟩

theorem ordered (h : TagBlock position tag after block next rest) :
    block.content.start ≤ block.content.stop ∧ block.content.stop ≤ block.span.stop := by
  cases h with
  | selfClosing => exact ⟨Nat.le_refl _, Nat.le_refl _⟩
  | unended => exact ⟨Nat.le_add_right _ _, Nat.le_refl _⟩
  | ended => exact ⟨Nat.le_add_right _ _, Nat.le_add_right _ _⟩

theorem stop (h : TagBlock position tag after block next rest) :
    block.content.stop = block.span.stop ∨
      ∃ chars, Covers (position + byteLength tag.chars) after
        ⟨block.content.stop, block.span.stop⟩ chars ∧ IsEndTag tag.name chars := by
  cases h with
  | selfClosing => exact .inl rfl
  | unended => exact .inl rfl
  | @ended before chars rest closed found =>
    exact .inr ⟨chars, ⟨before, rest, append_of_blockClose? found, rfl⟩,
      isEndTag_of_blockClose? found⟩

theorem first (h : TagBlock position tag after block next rest) (hname : tag.name ≠ templateName)
    {span : Span} {chars : List Char} (hend : IsEndTag tag.name chars)
    (hspan : Covers (position + byteLength tag.chars) after span chars) :
    block.content.stop ≤ span.start := by
  cases h with
  | selfClosing => exact hspan.within.1
  | unended _ _ none => exact absurd hspan (not_covers_of_findEndTag?_eq_none none hend)
  | ended _ found =>
    rw [blockClose?, if_neg hname] at found
    exact le_start_of_findEndTag? found hend hspan

end TagBlock

theorem Found.wellFormed (h : Found source block) : block.WellFormed source := by
  obtain ⟨position, next, text, rest, hreached, hstep⟩ := h
  obtain ⟨tag, after, htag, htagStep⟩ := readTag?_of_blockStep hstep
  have hplace := hreached.covers
  rw [← append_of_readTag? htag] at hplace htag
  have hbehind := hplace.tail
  have hblock := tagBlock_of_tagStep htagStep
  obtain ⟨hname, hstart, hcontent⟩ := hblock.start_eq
  obtain ⟨hordered, hstop⟩ := hblock.ordered
  refine ⟨?_, ?_, hordered, ?_, ?_, ?_⟩
  · obtain ⟨inner, hinner, hnext, hspan⟩ := append_of_tagStep htagStep
    rw [← hinner, ← List.append_assoc] at hplace
    have hopening : tag.chars ++ inner = '<' :: tag.name ++
        (TagText.attributeChars tag.attributes ++ (tag.closeChars ++ inner)) := by
      simp [TagText.chars]
    rw [hspan block rfl, hnext, hname]
    refine ⟨TagText.attributeChars tag.attributes ++ (tag.closeChars ++ inner), ?_⟩
    rw [← hopening]
    exact hplace.trans (Covers.head position _ rest)
  · rw [hstart]
    exact ⟨tag, after, hplace, htag, hcontent⟩
  · refine ⟨?_, hstop⟩
    rw [hcontent, hstart]
    exact Nat.le_add_right _ _
  · rw [hname]
    refine hblock.stop.imp_right ?_
    rintro ⟨chars, hchars, hend⟩
    exact ⟨chars, hbehind.trans hchars, hend⟩
  · -- an end tag behind the start tag is one of the text in which the end was searched
    rw [hname, hcontent]
    intro hother span chars hspan hend hle
    have htemplate : tag.name ≠ templateName := by
      intro heq
      rw [← hname] at heq
      exact hother (String.toList_inj.mp heq)
    refine hblock.first htemplate hend (hbehind.inside hspan ⟨hle, ?_⟩)
    have hbound := hspan.within.2
    rwa [Nat.zero_add] at hbound

theorem blocksFrom_eq_error_iff :
    blocksFrom 0 source = .error position ↔
      ∃ text, Reached source position text ∧ OpensUnended position text := by
  constructor
  · intro h
    obtain ⟨text, hreached, hfail⟩ := Reached.start.of_error h
    exact ⟨text, hreached, blockStep_eq_fail_iff.mp hfail⟩
  · rintro ⟨text, hreached, hopen⟩
    obtain ⟨front, hfront, -⟩ := hreached.blocksFrom_eq_map
    rw [hfront, blocksFrom_eq, blockStep_eq_fail_iff.mpr hopen]
    rfl

theorem exists_block_of_reached (h : locateBlocks source = .ok layout)
    (hreached : Reached source position text) (htag : readTag? text = some (tag, after))
    (hclose : tag.close ≠ .missing) : ∃ block ∈ layout.blocks, block.span.start = position := by
  rw [locateBlocks_eq_ok_iff] at h
  have hstep := blockStep_of_readTag? position htag
  obtain hfail | ⟨block, next, rest, hblock⟩ := exists_block_of_tagStep position after hclose
  · rw [hfail, blockStep_eq_fail_iff] at hstep
    rw [blocksFrom_eq_error_iff.mpr ⟨text, hreached, hstep⟩] at h
    cases h
  · rw [hblock] at hstep
    exact ⟨block, (hreached.mem_of_go hstep).2 _ h, (tagBlock_of_tagStep hblock).start_eq.2.1⟩

theorem start_lt_or_le_of_comment (h : locateBlocks source = .ok layout)
    (hreached : Reached source position text) (hopen : "<!--".toList <+: text)
    (hmem : block ∈ layout.blocks) : block.span.start < position ∨
      position + byteLength (through "-->".toList text).1 ≤ block.span.start := by
  rw [locateBlocks_eq_ok_iff] at h
  obtain ⟨front, hfront, hbefore⟩ := hreached.blocksFrom_eq_map
  rw [hfront, blocksFrom_eq, blockStep_of_comment position hopen] at h
  obtain ⟨later, hlater, hblocks⟩ := ok_of_map_append h
  rw [← hblocks] at hmem
  rcases List.mem_append.mp hmem with hearlier | hbehind
  · exact .inl (hbefore block hearlier).1
  · dsimp only [Option.toList_none] at hlater
    rw [map_nil_append] at hlater
    obtain ⟨chars, hchars⟩ := covers_of_mem_blocksFrom hlater block hbehind
    exact .inr hchars.within.1

theorem wellFormed_of_locateBlocks (h : locateBlocks source = .ok layout) :
    layout.WellFormed source where
  ascending := by
    have hascending := blocksFrom_ascending (locateBlocks_eq_ok_iff.mp h) [] rfl
    exact hascending.imp fun hle => Nat.le_trans (stop_le_throughLineBreak _ _) hle
  blocks block hmem := (found_of_mem_layout h hmem).wellFormed
  starts position := by
    constructor
    · rintro ⟨block, hmem, rfl⟩
      obtain ⟨position, next, text, rest, hreached, hstep⟩ := found_of_mem_layout h hmem
      obtain ⟨tag, after, htag, htagStep⟩ := readTag?_of_blockStep hstep
      have hblock := tagBlock_of_tagStep htagStep
      rw [hblock.start_eq.2.1]
      exact ⟨text, tag, after, hreached, htag, hblock.close_ne⟩
    · rintro ⟨text, tag, rest, hreached, htag, hclose⟩
      exact exists_block_of_reached h hreached htag hclose
  comments position text hreached hopen block hmem :=
    start_lt_or_le_of_comment h hreached hopen hmem

/-- The search for blocks ends for every source: each step moves on in the source. It gives a layout
that is well formed, or it fails at a template without an end, and then names its place. -/
theorem locateBlocks_wellFormed (source : List Char) :
    (∀ position text block next rest, Reached source position text →
      blockStep position text = .go block next rest →
        position < next ∧ next ≤ byteLength source) ∧
    (∀ layout, locateBlocks source = .ok layout → layout.WellFormed source) ∧
    ∀ location, locateBlocks source = .error location ↔
      ∃ position text, Reached source position text ∧ OpensUnended position text ∧
        location = (LineIndex.ofText source).location source position := by
  refine ⟨?_, fun layout => wellFormed_of_locateBlocks, fun location => ?_⟩
  · intro position text block next rest hreached hstep
    obtain ⟨front, _, hne, hnext, -⟩ := append_of_blockStep hstep
    have hbound := (hreached.step hstep).covers.within.1
    have hstop := (hreached.step hstep).covers.start_le_stop
    have hread := byteLength_pos hne
    dsimp only at hstop
    omega
  · rw [locateBlocks_eq_error_iff]
    simp only [blocksFrom_eq_error_iff]
    constructor
    · rintro ⟨position, ⟨text, hreached, hopen⟩, rfl⟩
      exact ⟨position, text, hreached, hopen, rfl⟩
    · rintro ⟨position, text, hreached, hopen, rfl⟩
      exact ⟨position, ⟨text, hreached, hopen⟩, rfl⟩

example : (match locateBlocks "<script></script>\n<template>\n<p>x</p>".toList with
    | .ok _ => none
    | .error location => some location) = some ⟨2, 1⟩ := by
  decide +kernel

end TemplateMessages.Component
