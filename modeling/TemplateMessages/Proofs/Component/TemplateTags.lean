import TemplateMessages.Component.Layout
import TemplateMessages.Proofs.Text.Placement

set_option autoImplicit false

/-!
# Template tags in plain text

The search for the end of a template reads a text from left to right and takes every template tag
that it meets, wherever it stands. `templateTags` is the list of these tags. The search ends at the
first end tag behind tags that nest, so `templateClose?` is a statement about this list.
-/

namespace TemplateMessages.Component

open TemplateMessages.Markup
open TemplateMessages.Text

inductive TagKind where
  | opening
  | selfClosing
  | closing
  deriving DecidableEq, Repr

structure TemplateTag where
  kind : TagKind
  span : Span
  deriving DecidableEq, Repr

/-- The template tag at the start of a text: its kind, its characters and the rest. A start tag that
does not close is none. -/
def templateTag? (text : List Char) : Option (TagKind × List Char × List Char) :=
  match readEndTagOf? templateName text with
  | some (chars, rest) => some (.closing, chars, rest)
  | none =>
    match readTag? text with
    | some (tag, rest) =>
      if tag.name = templateName ∧ tag.close ≠ .missing then
        some (if tag.close = .plain then .opening else .selfClosing, tag.chars, rest)
      else none
    | none => none

theorem append_of_templateTag? {text chars rest : List Char} {kind : TagKind}
    (h : templateTag? text = some (kind, chars, rest)) : chars ++ rest = text ∧ chars ≠ [] := by
  unfold templateTag? at h
  split at h
  · rename_i hend
    cases h
    exact append_of_readEndTagOf? hend
  · split at h
    · rename_i tag after htag
      split at h
      · cases h
        exact ⟨append_of_readTag? htag, by simp [TagText.chars]⟩
      · cases h
    · cases h

/-- The template tags of a text that starts at a position. -/
def templateTags (position : Nat) (text : List Char) : List TemplateTag :=
  match text with
  | [] => []
  | c :: cs =>
    match h : templateTag? (c :: cs) with
    | some (kind, chars, rest) =>
      have : rest.length < (c :: cs).length := length_lt_of_append (append_of_templateTag? h)
      let stop := position + byteLength chars
      ⟨kind, ⟨position, stop⟩⟩ :: templateTags stop rest
    | none => templateTags (position + c.utf8Size) cs
termination_by text.length
decreasing_by
  · exact this
  · exact Nat.lt_succ_self _

theorem templateTags_of_some {text chars rest : List Char} {kind : TagKind} (position : Nat)
    (h : templateTag? text = some (kind, chars, rest)) :
    templateTags position text =
      ⟨kind, ⟨position, position + byteLength chars⟩⟩ ::
        templateTags (position + byteLength chars) rest := by
  cases text with
  | nil => cases h
  | cons c cs =>
    rw [templateTags]
    split
    · rename_i hfound
      rw [h] at hfound
      cases hfound
      rfl
    · rename_i hnone
      rw [h] at hnone
      cases hnone

theorem templateTags_of_none {c : Char} {cs : List Char} (position : Nat)
    (h : templateTag? (c :: cs) = none) :
    templateTags position (c :: cs) = templateTags (position + c.utf8Size) cs := by
  rw [templateTags]
  split
  · rename_i hfound
    rw [h] at hfound
    cases hfound
  · rfl

inductive Balanced : List TemplateTag → Prop
  | nil : Balanced []
  | selfClosing {tag : TemplateTag} {tags : List TemplateTag} (kind : tag.kind = .selfClosing)
      (tail : Balanced tags) : Balanced (tag :: tags)
  | element {first last : TemplateTag} {inner tags : List TemplateTag}
      (opens : first.kind = .opening) (content : Balanced inner) (closes : last.kind = .closing)
      (tail : Balanced tags) : Balanced (first :: inner ++ last :: tags)

/-- The first end tag that closes none of the tags in front of it, `depth` more templates being
open. -/
def firstUnmatched : (depth : Nat) → List TemplateTag → Option Span
  | _, [] => none
  | depth, tag :: tags =>
    match tag.kind, depth with
    | .opening, depth => firstUnmatched (depth + 1) tags
    | .selfClosing, depth => firstUnmatched depth tags
    | .closing, 0 => some tag.span
    | .closing, outer + 1 => firstUnmatched outer tags

section

variable {tag : TemplateTag} {tags : List TemplateTag} {depth : Nat}

@[simp] theorem firstUnmatched_opening (h : tag.kind = .opening) :
    firstUnmatched depth (tag :: tags) = firstUnmatched (depth + 1) tags := by
  simp only [firstUnmatched, h]

@[simp] theorem firstUnmatched_selfClosing (h : tag.kind = .selfClosing) :
    firstUnmatched depth (tag :: tags) = firstUnmatched depth tags := by
  simp only [firstUnmatched, h]

@[simp] theorem firstUnmatched_closing (h : tag.kind = .closing) :
    firstUnmatched (depth + 1) (tag :: tags) = firstUnmatched depth tags := by
  simp only [firstUnmatched, h]

@[simp] theorem firstUnmatched_zero (h : tag.kind = .closing) :
    firstUnmatched 0 (tag :: tags) = some tag.span := by
  simp only [firstUnmatched, h]

end

theorem firstUnmatched_append {before : List TemplateTag} (h : Balanced before) (depth : Nat)
    (after : List TemplateTag) :
    firstUnmatched depth (before ++ after) = firstUnmatched depth after := by
  induction h generalizing depth after with
  | nil => rfl
  | selfClosing kind _ ih =>
    rw [List.cons_append, firstUnmatched_selfClosing kind]
    exact ih depth after
  | element opens _ closes _ content tail =>
    rw [List.append_assoc, List.cons_append, firstUnmatched_opening opens, content,
      List.cons_append, firstUnmatched_closing closes]
    exact tail depth after

theorem exists_close_of_firstUnmatched {tags : List TemplateTag} {depth : Nat} {span : Span}
    (h : firstUnmatched depth tags = some span) :
    ∃ before last after, tags = before ++ last :: after ∧ Balanced before ∧
      last.kind = .closing ∧ firstUnmatched depth (last :: after) = some span := by
  induction hlength : tags.length using Nat.strongRecOn generalizing tags depth with
  | ind length ih =>
    subst hlength
    cases tags with
    | nil => cases h
    | cons tag tags =>
      cases hkind : tag.kind with
      | opening =>
        -- the template of this tag closes first, and the search goes on behind it
        rw [firstUnmatched_opening hkind] at h
        obtain ⟨inner, close, middle, rfl, hinner, hclose, hmiddle⟩ :=
          ih _ (Nat.lt_succ_self _) h rfl
        rw [firstUnmatched_closing hclose] at hmiddle
        obtain ⟨later, last, after, rfl, hlater, hlast, hafter⟩ :=
          ih _ (by simp only [List.length_cons, List.length_append]; omega) hmiddle rfl
        exact ⟨tag :: inner ++ close :: later, last, after, by simp,
          .element hkind hinner hclose hlater, hlast, hafter⟩
      | selfClosing =>
        rw [firstUnmatched_selfClosing hkind] at h
        obtain ⟨before, last, after, rfl, hbefore, hlast, hafter⟩ :=
          ih _ (Nat.lt_succ_self _) h rfl
        exact ⟨tag :: before, last, after, rfl, .selfClosing hkind hbefore, hlast, hafter⟩
      | closing => exact ⟨[], tag, tags, rfl, .nil, hkind, h⟩

theorem firstUnmatched_eq_some_iff {tags : List TemplateTag} {span : Span} :
    firstUnmatched 0 tags = some span ↔
      ∃ before last after, tags = before ++ last :: after ∧ Balanced before ∧
        last.kind = .closing ∧ last.span = span := by
  constructor
  · intro h
    obtain ⟨before, last, after, htags, hbefore, hlast, hspan⟩ := exists_close_of_firstUnmatched h
    rw [firstUnmatched_zero hlast] at hspan
    exact ⟨before, last, after, htags, hbefore, hlast, Option.some.inj hspan⟩
  · rintro ⟨before, last, after, rfl, hbefore, hlast, rfl⟩
    rw [firstUnmatched_append hbefore, firstUnmatched_zero hlast]

theorem templateTag?_of_readEndTagOf? {text chars rest : List Char}
    (h : readEndTagOf? templateName text = some (chars, rest)) :
    templateTag? text = some (.closing, chars, rest) := by
  simp only [templateTag?, h]

theorem readEndTagOf?_of_templateTag? {text chars rest : List Char}
    (h : templateTag? text = some (.closing, chars, rest)) :
    readEndTagOf? templateName text = some (chars, rest) := by
  unfold templateTag? at h
  split at h
  · rename_i hend
    cases h
    exact hend
  · split at h
    · split at h
      · split at h <;> cases h
      · cases h
    · cases h

def startKind (tag : TagText) : TagKind :=
  if tag.close = .plain then .opening else .selfClosing

theorem firstUnmatched_startKind (depth : Nat) (tag : TagText) (span : Span)
    (tags : List TemplateTag) :
    firstUnmatched depth (⟨startKind tag, span⟩ :: tags) =
      firstUnmatched (if tag.close = .plain then depth + 1 else depth) tags := by
  by_cases hclose : tag.close = .plain
  · have hkind : startKind tag = .opening := by rw [startKind, if_pos hclose]
    rw [firstUnmatched_opening hkind, if_pos hclose]
  · have hkind : startKind tag = .selfClosing := by rw [startKind, if_neg hclose]
    rw [firstUnmatched_selfClosing hkind, if_neg hclose]

theorem templateTag?_of_readTag? {text rest : List Char} {tag : TagText}
    (hend : readEndTagOf? templateName text = none) (htag : readTag? text = some (tag, rest))
    (h : tag.name = templateName ∧ tag.close ≠ .missing) :
    templateTag? text = some (startKind tag, tag.chars, rest) := by
  simp only [templateTag?, hend, htag, if_pos h]
  rfl

theorem nestedTemplate?_succ {c : Char} {cs : List Char} (limit : Nat)
    (hend : readEndTagOf? templateName (c :: cs) = none) :
    (∃ tag rest, nestedTemplate? (limit + 1) (c :: cs) = some ([], tag, rest) ∧
      templateTag? (c :: cs) = some (startKind tag, tag.chars, rest)) ∨
    (nestedTemplate? (limit + 1) (c :: cs) =
        (nestedTemplate? limit cs).map (fun (front, tag, rest) => (c :: front, tag, rest)) ∧
      templateTag? (c :: cs) = none) := by
  cases htag : readTag? (c :: cs) with
  | none =>
    right
    simp only [nestedTemplate?, templateTag?, hend, htag, and_self]
  | some found =>
    obtain ⟨tag, rest⟩ := found
    by_cases h : tag.name = templateName ∧ tag.close ≠ .missing
    · left
      refine ⟨tag, rest, ?_, templateTag?_of_readTag? hend htag h⟩
      simp only [nestedTemplate?, htag, if_pos h]
    · right
      simp only [nestedTemplate?, templateTag?, hend, htag, if_neg h, and_self]

/-- The tags of a text whose first end tag is known begin with the start tag that stands in front
of it, or else with the end tag. -/
theorem templateTags_of_findEndTag? {text before chars rest : List Char} (position : Nat)
    (hend : findEndTag? templateName text = some (before, chars, rest)) :
    templateTags position text =
      match nestedTemplate? before.length text with
      | some (front, tag, after) =>
        let start := position + byteLength front
        let stop := start + byteLength tag.chars
        ⟨startKind tag, ⟨start, stop⟩⟩ :: templateTags stop after
      | none =>
        let start := position + byteLength before
        let stop := start + byteLength chars
        ⟨.closing, ⟨start, stop⟩⟩ :: templateTags stop rest := by
  induction text generalizing position before with
  | nil => cases hend
  | cons c cs ih =>
    rw [findEndTag?] at hend
    cases hhere : readEndTagOf? templateName (c :: cs) with
    | some found =>
      obtain ⟨tag, after⟩ := found
      rw [hhere] at hend
      cases hend
      rw [templateTags_of_some position (templateTag?_of_readEndTagOf? hhere)]
      rfl
    | none =>
      rw [hhere] at hend
      obtain ⟨⟨inner, _, _⟩, hinner, heq⟩ := Option.map_eq_some_iff.mp hend
      cases heq
      rw [List.length_cons]
      rcases nestedTemplate?_succ inner.length hhere with ⟨tag, after, hnested, htag⟩ |
        ⟨hnested, htag⟩
      · rw [hnested, templateTags_of_some position htag]
        rfl
      · rw [hnested, templateTags_of_none position htag, ih (position + c.utf8Size) hinner]
        cases nestedTemplate? inner.length cs with
        | none => simp only [Option.map_none, byteLength, Nat.add_assoc]
        | some parts => simp only [Option.map_some, byteLength, Nat.add_assoc]

theorem findEndTag?_eq_none_of_append {name front rest : List Char}
    (h : findEndTag? name (front ++ rest) = none) : findEndTag? name rest = none := by
  induction front with
  | nil => exact h
  | cons c cs ih =>
    apply ih
    rw [List.cons_append, findEndTag?] at h
    split at h
    · cases h
    · exact Option.map_eq_none_iff.mp h

theorem firstUnmatched_of_findEndTag?_eq_none {text : List Char} (depth position : Nat)
    (h : findEndTag? templateName text = none) :
    firstUnmatched depth (templateTags position text) = none := by
  fun_induction templateTags position text generalizing depth with
  | case1 => rfl
  | case2 position c cs kind chars rest htag _ stop ih =>
    have hrest : findEndTag? templateName rest = none := by
      rw [← (append_of_templateTag? htag).1] at h
      exact findEndTag?_eq_none_of_append h
    cases kind with
    | opening =>
      simpa using ih (depth + 1) hrest
    | selfClosing =>
      simpa using ih depth hrest
    | closing =>
      rw [findEndTag?, readEndTagOf?_of_templateTag? htag] at h
      cases h
  | case3 position c cs htag ih =>
    have hrest : findEndTag? templateName ([c] ++ cs) = none := h
    exact ih depth (findEndTag?_eq_none_of_append hrest)

theorem exists_findEndTag?_of_templateClose? {depth : Nat} {text before chars rest : List Char}
    (h : templateClose? depth text = some (before, chars, rest)) :
    ∃ inner front, findEndTag? templateName inner = some (front, chars, rest) := by
  fun_induction templateClose? depth text generalizing before with
  | case1 => cases h
  | case2 depth text _ _ _ _ front tag after hnested _ ih =>
    obtain ⟨⟨content, close, tail⟩, inner, outer⟩ := Option.map_eq_some_iff.mp h
    obtain ⟨rfl, rfl, rfl⟩ := by simpa only [Prod.mk.injEq] using outer
    exact ih inner
  | case3 text front close tail hend =>
    obtain ⟨rfl, rfl, rfl⟩ := by simpa only [Option.some.injEq, Prod.mk.injEq] using h
    exact ⟨text, _, hend⟩
  | case4 text front close tail hend _ _ _ ih =>
    obtain ⟨⟨content, inside, after⟩, inner, outer⟩ := Option.map_eq_some_iff.mp h
    obtain ⟨rfl, rfl, rfl⟩ := by simpa only [Prod.mk.injEq] using outer
    exact ih inner

theorem templateClose?_span (depth position : Nat) (text : List Char) :
    (templateClose? depth text).map (fun (before, chars, _) =>
        (⟨position + byteLength before, position + byteLength before + byteLength chars⟩ : Span)) =
      firstUnmatched depth (templateTags position text) := by
  fun_induction templateClose? depth text generalizing position with
  | case1 depth text hend =>
    rw [firstUnmatched_of_findEndTag?_eq_none depth position hend]
    rfl
  | case2 depth text before chars rest hend front tag after hnested _ ih =>
    rw [templateTags_of_findEndTag? position hend, hnested]
    dsimp only
    rw [firstUnmatched_startKind, ← dite_eq_ite, ← ih, Option.map_map]
    apply congrFun (congrArg Option.map _)
    funext parts
    simp [Nat.add_assoc]
  | case3 text before chars rest hend hnested =>
    rw [templateTags_of_findEndTag? position hend, hnested]
    rfl
  | case4 text before chars rest hend hnested outer _ ih =>
    rw [templateTags_of_findEndTag? position hend, hnested]
    dsimp only
    rw [firstUnmatched_closing rfl, ← ih, Option.map_map]
    apply congrFun (congrArg Option.map _)
    funext parts
    simp [Nat.add_assoc]

end TemplateMessages.Component
