import TemplateMessages.Component.Layout
import TemplateMessages.Proofs.Text.Placement

set_option autoImplicit false

/-!
# The walk over the blocks of a component

`blockStep` is one step of the search for blocks, and `blocksFrom` takes such steps until it has
read the text or fails. `Reached` says at which places a step is taken, so that what happens at one
place can be told from what happens behind it.
-/

namespace TemplateMessages.Component

open TemplateMessages.Markup
open TemplateMessages.Text

inductive BlockStep where
  | done
  | fail
  | go (block : Option Block) (position : Nat) (rest : List Char)

/-- The block of a start tag at a position, its content and its end tag ending at the given places. -/
def blockOf (position : Nat) (tag : TagText) (content stop : Nat) : Block :=
  ⟨String.ofList tag.name, ⟨position, stop⟩, ⟨position + byteLength tag.chars, content⟩,
    tag.locate position⟩

def tagStep (position : Nat) (tag : TagText) (rest : List Char) : BlockStep :=
  let start := position + byteLength tag.chars
  match tag.close with
  | .missing => if tag.name = templateName then .fail else .go none start rest
  | .selfClosing => .go (some (blockOf position tag start start)) start rest
  | .plain =>
    match blockClose? tag.name rest with
    | none =>
      if tag.name = templateName then .fail
      else
        let stop := start + byteLength rest
        .go (some (blockOf position tag stop stop)) stop []
    | some (before, chars, after) =>
      let content := start + byteLength before
      let stop := content + byteLength chars
      .go (some (blockOf position tag content stop)) stop after

def blockStep (position : Nat) (text : List Char) : BlockStep :=
  match text with
  | [] => .done
  | c :: cs =>
    if "<!--".toList.isPrefixOf (c :: cs) then
      let comment := through "-->".toList (c :: cs)
      .go none (position + byteLength comment.1) comment.2
    else
      match readTag? (c :: cs) with
      | none => .go none (position + c.utf8Size) cs
      | some (tag, rest) => tagStep position tag rest

theorem blockStep_of_readTag? {text rest : List Char} {tag : TagText} (position : Nat)
    (h : readTag? text = some (tag, rest)) :
    blockStep position text = tagStep position tag rest := by
  cases text with
  | nil => cases h
  | cons c cs =>
    have hopen : "<!--".toList.isPrefixOf (c :: cs) = false := by
      cases hcomment : "<!--".toList.isPrefixOf (c :: cs) with
      | false => rfl
      | true =>
        obtain ⟨tail, htail⟩ := List.isPrefixOf_iff_prefix.mp hcomment
        rw [← htail] at h
        cases h
    simp only [blockStep, hopen, h, Bool.false_eq_true, ↓reduceIte]

@[simp] theorem map_nil_append {α ε : Type} (result : Except ε (List α)) :
    result.map (([] : List α) ++ ·) = result := by
  cases result <;> rfl

theorem blocksFrom_eq (position : Nat) (text : List Char) :
    blocksFrom position text =
      match blockStep position text with
      | .done => .ok []
      | .fail => .error position
      | .go block next rest => (blocksFrom next rest).map (block.toList ++ ·) := by
  cases text with
  | nil =>
    rw [blocksFrom]
    rfl
  | cons c cs =>
    rw [blocksFrom]
    by_cases hopen : "<!--".toList.isPrefixOf (c :: cs) = true
    · rw [dif_pos hopen]
      simp only [blockStep, hopen, ↓reduceIte, Option.toList_none, map_nil_append]
    · rw [dif_neg hopen]
      split
      · rename_i htag
        simp only [blockStep, hopen, htag, Bool.false_eq_true, ↓reduceIte, Option.toList_none,
          map_nil_append]
      · rename_i tag rest htag
        simp only [blockStep, hopen, htag, Bool.false_eq_true, ↓reduceIte, tagStep]
        cases hclose : tag.close with
        | missing =>
          by_cases hname : tag.name = templateName
          · simp only [hname, ↓reduceIte]
          · simp only [hname, ↓reduceIte, Option.toList_none, map_nil_append]
        | selfClosing => rfl
        | plain =>
          simp only
          split
          · rename_i hend
            rw [hend]
            by_cases hname : tag.name = templateName
            · simp only [if_pos hname]
            · simp only [if_neg hname]
              rw [blocksFrom]
              rfl
          · rename_i hend
            simp only [hend]
            rfl

theorem append_of_tagStep {position next : Nat} {tag : TagText} {after rest : List Char}
    {block : Option Block} (h : tagStep position tag after = .go block next rest) :
    ∃ inner, inner ++ rest = after ∧ next = position + byteLength (tag.chars ++ inner) ∧
      ∀ found ∈ block, found.span = ⟨position, next⟩ := by
  unfold tagStep at h
  cases hclose : tag.close with
  | missing =>
    simp only [hclose] at h
    split at h
    · cases h
    · cases h
      exact ⟨[], rfl, by rw [List.append_nil], by simp⟩
  | selfClosing =>
    simp only [hclose] at h
    cases h
    refine ⟨[], rfl, by rw [List.append_nil], ?_⟩
    intro found hfound
    obtain rfl := Option.some.inj hfound
    rfl
  | plain =>
    simp only [hclose] at h
    cases hend : blockClose? tag.name after with
    | none =>
      simp only [hend] at h
      split at h
      · cases h
      · cases h
        refine ⟨after, List.append_nil _, by simp [Nat.add_assoc], ?_⟩
        intro found hfound
        obtain rfl := Option.some.inj hfound
        rfl
    | some parts =>
      obtain ⟨before, chars, last⟩ := parts
      simp only [hend] at h
      cases h
      have whole := append_of_blockClose? hend
      refine ⟨before ++ chars, whole, ?_, ?_⟩
      · simp [Nat.add_assoc]
      · intro found hfound
        obtain rfl := Option.some.inj hfound
        rfl

theorem append_of_blockStep {position next : Nat} {text rest : List Char} {block : Option Block}
    (h : blockStep position text = .go block next rest) :
    ∃ front, front ++ rest = text ∧ front ≠ [] ∧ next = position + byteLength front ∧
      ∀ found ∈ block, found.span = ⟨position, next⟩ := by
  cases text with
  | nil => cases h
  | cons c cs =>
    unfold blockStep at h
    by_cases hopen : "<!--".toList.isPrefixOf (c :: cs) = true
    · simp only [hopen, ↓reduceIte] at h
      cases h
      have construct : readConstruct? (c :: cs) = some (.comment,
          (through "-->".toList (c :: cs)).1, (through "-->".toList (c :: cs)).2) := by
        simp only [readConstruct?, hopen, ↓reduceIte]
      have whole := append_of_readConstruct? construct
      exact ⟨_, whole.1, whole.2, rfl, by simp⟩
    · simp only [hopen, Bool.false_eq_true, ↓reduceIte] at h
      cases htag : readTag? (c :: cs) with
      | none =>
        simp only [htag] at h
        cases h
        exact ⟨[c], rfl, by simp, by simp, by simp⟩
      | some found =>
        obtain ⟨tag, after⟩ := found
        simp only [htag] at h
        obtain ⟨inner, hinner, hnext, hblock⟩ := append_of_tagStep h
        refine ⟨tag.chars ++ inner, ?_, by simp [TagText.chars], hnext, hblock⟩
        rw [List.append_assoc, hinner]
        exact append_of_readTag? htag

theorem ok_of_map_append {blocks front : List Block} {result : Except Nat (List Block)}
    (h : result.map (front ++ ·) = .ok blocks) : ∃ later, result = .ok later ∧
      front ++ later = blocks := by
  cases result with
  | error stop => cases h
  | ok later => exact ⟨later, rfl, Except.ok.inj h⟩

theorem error_of_map_append {stop : Nat} {front : List Block} {result : Except Nat (List Block)}
    (h : result.map (front ++ ·) = .error stop) : result = .error stop := by
  cases result with
  | error found => exact h
  | ok later => cases h

/-- What holds of no blocks, and is kept by a step in front of the later ones, holds of all blocks of
a text. -/
theorem blocksFrom_induction {motive : Nat → List Char → List Block → Prop}
    (done : ∀ position text, motive position text [])
    (go : ∀ position front block rest later, front ≠ [] →
      blockStep position (front ++ rest) = .go block (position + byteLength front) rest →
      blocksFrom (position + byteLength front) rest = .ok later →
      motive (position + byteLength front) rest later →
      motive position (front ++ rest) (block.toList ++ later))
    {position : Nat} {text : List Char} {blocks : List Block}
    (h : blocksFrom position text = .ok blocks) : motive position text blocks := by
  induction hlength : text.length using Nat.strongRecOn generalizing position text blocks with
  | ind length ih =>
    rw [blocksFrom_eq] at h
    split at h
    · obtain rfl := Except.ok.inj h
      exact done position text
    · cases h
    · rename_i found next rest hstep
      obtain ⟨front, rfl, hne, rfl, _⟩ := append_of_blockStep hstep
      obtain ⟨later, hlater, rfl⟩ := ok_of_map_append h
      have hshorter : rest.length < length := by
        have := List.length_pos_iff.mpr hne
        rw [← hlength, List.length_append]
        omega
      exact go position front found rest later hne hstep hlater (ih rest.length hshorter hlater rfl)

theorem head_of_blockStep {position next : Nat} {text rest : List Char} {block : Block}
    (h : blockStep position text = .go (some block) next rest) : ∃ chars, text = '<' :: chars := by
  cases text with
  | nil => cases h
  | cons c cs =>
    cases htag : readTag? (c :: cs) with
    | none =>
      simp only [blockStep, htag] at h
      split at h <;> cases h
    | some found => exact ⟨_, (append_of_readTag? htag).symm⟩

theorem covers_of_mem_blocksFrom {position : Nat} {text : List Char} {blocks : List Block}
    (h : blocksFrom position text = .ok blocks) :
    ∀ block ∈ blocks, ∃ chars, Covers position text block.span ('<' :: chars) := by
  refine blocksFrom_induction (motive := fun position text blocks =>
    ∀ block ∈ blocks, ∃ chars, Covers position text block.span ('<' :: chars)) ?_ ?_ h
  · intro position text block hmem
    cases hmem
  · intro position front found rest later hne hstep _ ih block hmem
    rcases List.mem_append.mp hmem with hhere | hthere
    · obtain rfl := Option.mem_toList.mp hhere
      obtain ⟨_, _, _, _, hspan⟩ := append_of_blockStep hstep
      obtain ⟨chars, hchars⟩ := head_of_blockStep hstep
      rw [hspan block rfl]
      cases front with
      | nil => exact absurd rfl hne
      | cons c front =>
        obtain rfl := (List.cons.inj hchars).1
        exact ⟨front, Covers.head position _ rest⟩
    · obtain ⟨chars, hchars⟩ := ih block hthere
      exact ⟨chars, hchars.behind⟩

theorem le_of_blocksFrom_error {position stop : Nat} {text : List Char}
    (h : blocksFrom position text = .error stop) : position ≤ stop := by
  induction hlength : text.length using Nat.strongRecOn generalizing position text with
  | ind length ih =>
    rw [blocksFrom_eq] at h
    split at h
    · cases h
    · obtain rfl := Except.error.inj h
      exact Nat.le_refl _
    · rename_i block next rest hstep
      obtain ⟨front, rfl, hne, rfl, _⟩ := append_of_blockStep hstep
      have hshorter : rest.length < length := by
        have := List.length_pos_iff.mpr hne
        rw [← hlength, List.length_append]
        omega
      exact Nat.le_trans (Nat.le_add_right _ _)
        (ih rest.length hshorter (error_of_map_append h) rfl)

theorem locateBlocks_eq_ok_iff {source : List Char} {layout : Layout} :
    locateBlocks source = .ok layout ↔ blocksFrom 0 source = .ok layout.blocks := by
  unfold locateBlocks
  cases blocksFrom 0 source with
  | ok blocks =>
    obtain ⟨found⟩ := layout
    simp
  | error position => simp

theorem locateBlocks_eq_error_iff {source : List Char} {location : Location} :
    locateBlocks source = .error location ↔ ∃ position,
      blocksFrom 0 source = .error position ∧
        location = (LineIndex.ofText source).location source position := by
  unfold locateBlocks
  cases blocksFrom 0 source with
  | ok blocks => simp
  | error position => simp [eq_comm]

/-- A step of the search for the blocks of a source is taken at `position`, where `text` is left. -/
inductive Reached (source : List Char) : (position : Nat) → (text : List Char) → Prop
  | start : Reached source 0 source
  | step {position next : Nat} {text rest : List Char} {block : Option Block}
      (reached : Reached source position text)
      (step : blockStep position text = .go block next rest) : Reached source next rest

namespace Reached

variable {source text : List Char} {position : Nat}

theorem covers (h : Reached source position text) :
    Covers 0 source ⟨position, byteLength source⟩ text := by
  induction h with
  | start =>
    have whole := Covers.whole 0 source
    rwa [Nat.zero_add] at whole
  | @step position next text rest block _ hstep ih =>
    obtain ⟨front, rfl, _, rfl, _⟩ := append_of_blockStep hstep
    have hstop := ih.stop_eq
    have behind := (Covers.whole (position + byteLength front) rest).behind
    have inner := ih.trans behind
    rw [add_byteLength_append] at hstop
    rwa [← hstop] at inner

theorem blocksFrom_eq_map (h : Reached source position text) :
    ∃ front, blocksFrom 0 source = (blocksFrom position text).map (front ++ ·) ∧
      ∀ block ∈ front, block.span.start < position ∧ block.span.stop ≤ position := by
  induction h with
  | start => exact ⟨[], (map_nil_append _).symm, by simp⟩
  | @step position next text rest block _ hstep ih =>
    obtain ⟨front, hfront, hbefore⟩ := ih
    obtain ⟨read, _, hne, rfl, hspan⟩ := append_of_blockStep hstep
    have hread := byteLength_pos hne
    refine ⟨front ++ block.toList, ?_, ?_⟩
    · rw [hfront, blocksFrom_eq position, hstep]
      dsimp only
      cases blocksFrom (position + byteLength read) rest with
      | error stop => rfl
      | ok later => simp only [Except.map, List.append_assoc]
    · intro found hfound
      rcases List.mem_append.mp hfound with hearlier | hhere
      · obtain ⟨hstart, hstop⟩ := hbefore found hearlier
        omega
      · rw [hspan found (Option.mem_toList.mp hhere)]
        dsimp only
        omega

theorem mem_of_go (h : Reached source position text) {block : Block} {next : Nat}
    {rest : List Char} (hstep : blockStep position text = .go (some block) next rest) :
    blocksFrom 0 source ≠ .error position ∧
      ∀ blocks, blocksFrom 0 source = .ok blocks → block ∈ blocks := by
  obtain ⟨front, hfront, -⟩ := h.blocksFrom_eq_map
  rw [blocksFrom_eq position, hstep] at hfront
  dsimp only at hfront
  obtain ⟨read, _, hne, rfl, _⟩ := append_of_blockStep hstep
  cases hresult : blocksFrom (position + byteLength read) rest with
  | error stop =>
    rw [hfront, hresult]
    constructor
    · intro heq
      have hle := le_of_blocksFrom_error hresult
      obtain rfl : stop = position := Except.error.inj heq
      exact hne (eq_nil_of_byteLength_eq_zero (by omega))
    · intro blocks hblocks
      cases hblocks
  | ok later =>
    rw [hfront, hresult]
    constructor
    · intro heq
      cases heq
    · intro blocks hblocks
      obtain rfl := Except.ok.inj hblocks
      simp

end Reached

end TemplateMessages.Component
