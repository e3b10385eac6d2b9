import TemplateMessages.Markup.Token
import TemplateMessages.Text.Lines

set_option autoImplicit false

/-!
# Blocks of a component

A component is a sequence of blocks such as `<template>`, `<script>` and `<style>`, each up to its
end tag. A `<template>` holds its nested templates, so it ends where their depth is zero again; any
other block ends at the first end tag of its name, or with the text. Only a `<template>` without
its end tag is an error.
-/

namespace TemplateMessages.Component

open TemplateMessages.Markup
open TemplateMessages.Text

structure Block where
  name : String
  /-- From the start tag through the end tag. -/
  span : Span
  /-- Between the two tags. -/
  content : Span
  attributes : List Attribute
  deriving DecidableEq, Repr, Inhabited

def Block.attribute? (block : Block) (name : String) : Option String :=
  (block.attributes.find? (·.name == name)).map Attribute.valueText

structure Layout where
  blocks : List Block
  deriving Repr, Inhabited

namespace Layout

def template? (layout : Layout) : Option Block :=
  layout.blocks.find? (·.name == "template")

def named (layout : Layout) (name : String) : List Block :=
  layout.blocks.filter (·.name == name)

end Layout

def templateName : List Char := "template".toList

/-- The first start tag of a template among the first `limit` positions of a text, when it closes:
what is in front of it, the tag, and the rest. -/
def nestedTemplate? : (limit : Nat) → (text : List Char) →
    Option (List Char × TagText × List Char)
  | 0, _ => none
  | _ + 1, [] => none
  | limit + 1, c :: cs =>
    let next := (nestedTemplate? limit cs).map fun (front, tag, rest) => (c :: front, tag, rest)
    match readTag? (c :: cs) with
    | some (tag, rest) =>
      if tag.name = templateName ∧ tag.close ≠ .missing then some ([], tag, rest) else next
    | none => next

theorem append_of_nestedTemplate? {limit : Nat} {text front rest : List Char} {tag : TagText}
    (h : nestedTemplate? limit text = some (front, tag, rest)) :
    front ++ tag.chars ++ rest = text := by
  induction limit generalizing text front with
  | zero => simp [nestedTemplate?] at h
  | succ limit ih =>
    cases text with
    | nil => simp [nestedTemplate?] at h
    | cons c cs =>
      have later {front : List Char}
          (h : (nestedTemplate? limit cs).map (fun (front, tag, rest) => (c :: front, tag, rest)) =
            some (front, tag, rest)) : front ++ tag.chars ++ rest = c :: cs := by
        obtain ⟨⟨first, found, tail⟩, inner, outer⟩ := Option.map_eq_some_iff.mp h
        simp only [Prod.mk.injEq] at outer
        obtain ⟨rfl, rfl, rfl⟩ := outer
        simpa using ih inner
      simp only [nestedTemplate?] at h
      split at h
      · rename_i found after htag
        split at h
        · simp only [Option.some.injEq, Prod.mk.injEq] at h
          obtain ⟨rfl, rfl, rfl⟩ := h
          simpa using append_of_readTag? htag
        · exact later h
      · exact later h

/-- The end tag of the template around a text, `depth` more templates being open in it: the text in
front of the tag, the tag and the rest. -/
def templateClose? (depth : Nat) (text : List Char) :
    Option (List Char × List Char × List Char) :=
  match hend : findEndTag? templateName text with
  | none => none
  | some (before, chars, rest) =>
    match hnested : nestedTemplate? before.length text with
    | some (front, tag, after) =>
      have : after.length < text.length := by
        rw [← append_of_nestedTemplate? hnested]
        simp [TagText.chars]
        omega
      (templateClose? (if tag.close = .plain then depth + 1 else depth) after).map
        fun (content, close, tail) => (front ++ tag.chars ++ content, close, tail)
    | none =>
      match depth with
      | 0 => some (before, chars, rest)
      | outer + 1 =>
        have : rest.length < text.length := by
          have whole := append_of_findEndTag? hend
          have := List.length_pos_iff.mpr whole.2
          rw [← whole.1, List.length_append, List.length_append]
          omega
        (templateClose? outer rest).map
          fun (content, close, tail) => (before ++ chars ++ content, close, tail)
termination_by text.length

def blockClose? (name : List Char) (text : List Char) :
    Option (List Char × List Char × List Char) :=
  if name = templateName then templateClose? 0 text else findEndTag? name text

theorem append_of_templateClose? {depth : Nat} {text before chars rest : List Char}
    (h : templateClose? depth text = some (before, chars, rest)) :
    before ++ chars ++ rest = text := by
  fun_induction templateClose? depth text generalizing before with
  | case1 => simp at h
  | case2 depth text _ _ _ _ front tag after hnested _ ih =>
    obtain ⟨⟨content, close, tail⟩, inner, outer⟩ := Option.map_eq_some_iff.mp h
    simp only [Prod.mk.injEq] at outer
    obtain ⟨rfl, rfl, rfl⟩ := outer
    have whole := append_of_nestedTemplate? hnested
    rw [← whole, ← ih inner]
    simp
  | case3 text front close tail hend =>
    simp only [Option.some.injEq, Prod.mk.injEq] at h
    obtain ⟨rfl, rfl, rfl⟩ := h
    exact (append_of_findEndTag? hend).1
  | case4 text front close tail hend _ _ _ ih =>
    obtain ⟨⟨content, inside, after⟩, inner, outer⟩ := Option.map_eq_some_iff.mp h
    simp only [Prod.mk.injEq] at outer
    obtain ⟨rfl, rfl, rfl⟩ := outer
    rw [← (append_of_findEndTag? hend).1, ← ih inner]
    simp

theorem append_of_blockClose? {name text before chars rest : List Char}
    (h : blockClose? name text = some (before, chars, rest)) : before ++ chars ++ rest = text := by
  unfold blockClose? at h
  split at h
  · exact append_of_templateClose? h
  · exact (append_of_findEndTag? h).1

/-- The blocks of a text that starts at a position, or the position of the `<template>` that is
never closed. -/
def blocksFrom (position : Nat) (text : List Char) : Except Nat (List Block) :=
  match text with
  | [] => .ok []
  | c :: cs =>
    if hopen : "<!--".toList.isPrefixOf (c :: cs) = true then
      let comment := through "-->".toList (c :: cs)
      have hcomment : comment.2.length < (c :: cs).length := by
        have construct : readConstruct? (c :: cs) = some (.comment, comment.1, comment.2) := by
          simp only [readConstruct?, hopen, ↓reduceIte, comment]
        exact length_lt_of_append (append_of_readConstruct? construct)
      blocksFrom (position + byteLength comment.1) comment.2
    else
      match htag : readTag? (c :: cs) with
      | none => blocksFrom (position + c.utf8Size) cs
      | some (tag, rest) =>
        have hrest : rest.length < (c :: cs).length := by
          rw [← append_of_readTag? htag]
          simp [TagText.chars]
          omega
        let start := position + byteLength tag.chars
        let block (content : Nat) (stop : Nat) : Block :=
          ⟨String.ofList tag.name, ⟨position, stop⟩, ⟨start, content⟩, tag.locate position⟩
        match tag.close with
        | .missing =>
          if tag.name = templateName then .error position else blocksFrom start rest
        | .selfClosing => (blocksFrom start rest).map (block start start :: ·)
        | .plain =>
          match hclose : blockClose? tag.name rest with
          | none =>
            if tag.name = templateName then .error position
            else
              let stop := start + byteLength rest
              .ok [block stop stop]
          | some (before, chars, after) =>
            have hafter : after.length < (c :: cs).length := by
              have whole := congrArg List.length (append_of_blockClose? hclose)
              rw [List.length_append] at whole
              omega
            let content := start + byteLength before
            let stop := content + byteLength chars
            (blocksFrom stop after).map (block content stop :: ·)
termination_by text.length
decreasing_by
  · exact hcomment
  · exact Nat.lt_succ_self cs.length
  · exact hrest
  · exact hrest
  · exact hafter

def locateBlocks (source : List Char) : Except Location Layout :=
  match blocksFrom 0 source with
  | .ok blocks => .ok ⟨blocks⟩
  | .error position => .error ((LineIndex.ofText source).location source position)

end TemplateMessages.Component
