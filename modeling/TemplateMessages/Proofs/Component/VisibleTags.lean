import TemplateMessages.Proofs.Component.TemplateEnd

set_option autoImplicit false

/-!
# Templates without hidden tags

When the template tags of the plain text are those of the scan, and every end tag of the scan closes
the innermost open element, the search for blocks and the scan find the same end.
-/

namespace TemplateMessages.Component

open TemplateMessages.Markup
open TemplateMessages.Text

def tagOf? : Token → Option TemplateTag
  | .startTag tag =>
    if tag.name = "template" then
      some ⟨if tag.selfClosing then .selfClosing else .opening, tag.span⟩
    else none
  | .endTag span name => if name = "template" then some ⟨.closing, span⟩ else none
  | _ => none

/-- Every end tag among the tokens closes the innermost open element. -/
def InOrder : (opened : List String) → List Token → Prop
  | _, [] => True
  | opened, .startTag tag :: tokens =>
    InOrder (if tag.isLeaf then opened else tag.name :: opened) tokens
  | [], .endTag _ _ :: _ => False
  | inner :: opened, .endTag _ name :: tokens => name = inner ∧ InOrder opened tokens
  | opened, _ :: tokens => InOrder opened tokens

def templateDepth (frames : List Frame) : Nat :=
  frames.countP (·.name == "template")

theorem firstUnmatched_append_of_some {tags : List TemplateTag} {depth : Nat} {span : Span}
    (h : firstUnmatched depth tags = some span) (after : List TemplateTag) :
    firstUnmatched depth (tags ++ after) = some span := by
  induction tags generalizing depth with
  | nil => cases h
  | cons tag tags ih =>
    rw [List.cons_append]
    cases hkind : tag.kind with
    | opening =>
      rw [firstUnmatched_opening hkind] at h ⊢
      exact ih h
    | selfClosing =>
      rw [firstUnmatched_selfClosing hkind] at h ⊢
      exact ih h
    | closing =>
      cases depth with
      | zero =>
        rw [firstUnmatched_zero hkind] at h ⊢
        exact h
      | succ depth =>
        rw [firstUnmatched_closing hkind] at h ⊢
        exact ih h

section

variable {tag : StartTag} {frame : Frame} {frames : List Frame} {tokens : List Token}

theorem firstUnmatched_endTag (span : Span) :
    firstUnmatched (templateDepth (frame :: frames))
        ((.endTag span frame.name :: tokens).filterMap tagOf?) =
      firstUnmatched (templateDepth frames) (tokens.filterMap tagOf?) := by
  by_cases htemplate : frame.name = "template"
  · have hdepth : templateDepth (frame :: frames) = templateDepth frames + 1 :=
      List.countP_cons_of_pos (by simpa using htemplate)
    have htag : tagOf? (.endTag span frame.name) = some ⟨.closing, span⟩ := if_pos htemplate
    rw [List.filterMap_cons_some htag, hdepth, firstUnmatched_closing rfl]
  · have hdepth : templateDepth (frame :: frames) = templateDepth frames :=
      List.countP_cons_of_neg (by simpa using htemplate)
    have htag : tagOf? (.endTag span frame.name) = none := if_neg htemplate
    rw [List.filterMap_cons_none htag, hdepth]

theorem firstUnmatched_startTag (leaf : tag.isLeaf = false) :
    firstUnmatched (templateDepth frames) ((.startTag tag :: tokens).filterMap tagOf?) =
      firstUnmatched (templateDepth (⟨tag.name, tag.translate⟩ :: frames))
        (tokens.filterMap tagOf?) := by
  obtain ⟨hopen, _⟩ := Bool.or_eq_false_iff.mp leaf
  by_cases htemplate : tag.name = "template"
  · have hdepth : templateDepth (⟨tag.name, tag.translate⟩ :: frames) =
        templateDepth frames + 1 := List.countP_cons_of_pos (by simpa using htemplate)
    have htag : tagOf? (.startTag tag) = some ⟨.opening, tag.span⟩ := by
      simp only [tagOf?, htemplate, hopen, Bool.false_eq_true, ↓reduceIte]
    rw [List.filterMap_cons_some htag, hdepth, firstUnmatched_opening rfl]
  · have hdepth : templateDepth (⟨tag.name, tag.translate⟩ :: frames) = templateDepth frames :=
      List.countP_cons_of_neg (by simpa using htemplate)
    have htag : tagOf? (.startTag tag) = none := if_neg htemplate
    rw [List.filterMap_cons_none htag, hdepth]

theorem firstUnmatched_leaf (leaf : tag.isLeaf = true) (depth : Nat) :
    firstUnmatched depth ((.startTag tag :: tokens).filterMap tagOf?) =
      firstUnmatched depth (tokens.filterMap tagOf?) := by
  by_cases htemplate : tag.name = "template"
  · have hclosing : tag.selfClosing = true := by
      have hvoid : voidElements.contains "template" = false := by decide
      rwa [StartTag.isLeaf, htemplate, hvoid, Bool.or_false] at leaf
    have htag : tagOf? (.startTag tag) = some ⟨.selfClosing, tag.span⟩ := by
      simp only [tagOf?, htemplate, hclosing, ↓reduceIte]
    rw [List.filterMap_cons_some htag, firstUnmatched_selfClosing rfl]
  · have htag : tagOf? (.startTag tag) = none := if_neg htemplate
    rw [List.filterMap_cons_none htag]

end

theorem closeElement?_of_inOrder {frame : Frame} {frames : List Frame} {span : Span} {name : String}
    {tokens : List Token}
    (h : InOrder ((frame :: frames).map Frame.name) (.endTag span name :: tokens)) :
    name = frame.name ∧ closeElement? name (frame :: frames) = some frames ∧
      InOrder (frames.map Frame.name) tokens := by
  obtain ⟨hname, htail⟩ := h
  refine ⟨hname, ?_, htail⟩
  rw [closeElement?, if_pos hname.symm]

theorem firstUnmatched_tokens {position stop : Nat} (inner : List Frame) {root : Frame}
    {text : List Char} (hroot : root.name = "template")
    (h : templateStop? position (inner ++ [root]) text = some stop)
    (ordered : InOrder ((inner ++ [root]).map Frame.name)
      (scanFrom position (inner ++ [root]) text).tokens) :
    (firstUnmatched (templateDepth inner)
      ((scanFrom position (inner ++ [root]) text).tokens.filterMap tagOf?)).map Span.stop =
        some stop := by
  generalize hframes : inner ++ [root] = frames at h ordered ⊢
  fun_induction templateStop? position frames text generalizing inner with
  | case1 => cases h
  | case2 position frames c cs span name last hstep =>
    obtain rfl := Option.some.inj h
    have does := advance_does position frames c cs
    rw [scanFrom, hstep] at ordered ⊢
    rw [hstep] at does
    subst hframes
    cases does with
    | root closed behind =>
      cases inner with
      | nil => rfl
      | cons frame inner =>
        -- the innermost element is not the root, so its end tag does not end the scan
        rw [List.cons_append] at ordered closed
        obtain ⟨_, hclosed, _⟩ := closeElement?_of_inOrder ordered
        rw [hclosed] at closed
        simp at closed
  | case3 => cases h
  | case4 position frames c cs tokens outer next rest shorter hstep ih =>
    have does := advance_does position frames c cs
    rw [scanFrom, hstep] at ordered ⊢
    rw [hstep] at does
    subst hframes
    dsimp only at ordered ⊢
    cases does with
    | text span translate => exact ih _ rfl h ordered
    | comment span => exact ih _ rfl h ordered
    | doctype span => exact ih _ rfl h ordered
    | endTag span name closed inside =>
      cases inner with
      | nil =>
        obtain ⟨hname, hclosed, _⟩ := closeElement?_of_inOrder ordered
        rw [List.nil_append, hclosed] at closed
        obtain rfl := Option.some.inj closed
        exact absurd ⟨rfl, hname.trans hroot⟩ inside
      | cons frame inner =>
        rw [List.cons_append] at ordered closed
        obtain ⟨rfl, hclosed, hordered⟩ := closeElement?_of_inOrder ordered
        rw [hclosed] at closed
        obtain rfl := Option.some.inj closed
        rw [List.singleton_append, firstUnmatched_endTag]
        exact ih _ rfl h hordered
    | leaf tag leaf =>
      rw [List.singleton_append, firstUnmatched_leaf leaf]
      apply ih _ rfl h
      rwa [List.singleton_append, InOrder, leaf] at ordered
    | rawText tag content last leaf raw =>
      have hnone : tagOf? (.rawText content) = none := rfl
      have hordered : InOrder (((⟨tag.name, tag.translate⟩ : Frame) :: (inner ++ [root])).map
          Frame.name) (.endTag last tag.name :: (scanFrom next (inner ++ [root]) rest).tokens) := by
        rwa [List.cons_append, InOrder, leaf] at ordered
      rw [List.cons_append, firstUnmatched_startTag leaf, List.cons_append,
        List.filterMap_cons_none hnone, List.cons_append, List.nil_append, firstUnmatched_endTag]
      exact ih _ rfl h (closeElement?_of_inOrder hordered).2.2
    | element tag leaf =>
      rw [List.singleton_append, firstUnmatched_startTag leaf]
      apply ih _ rfl h
      rwa [List.singleton_append, InOrder, leaf] at ordered

theorem readEndTagOf?_of_readTag? {name text rest : List Char} {tag : TagText}
    (h : readTag? text = some (tag, rest)) : readEndTagOf? name text = none := by
  obtain ⟨c, cs, rfl, hstart⟩ := isNameStart_of_readTag? h
  obtain ⟨_, hslash, _⟩ := ne_of_isNameStart hstart
  simp [readEndTagOf?, List.isPrefixOf, hslash.symm]

theorem advanceStartTag_template {text chars rest : List Char} {tag : TagText} (position : Nat)
    (frames : List Frame) (whole : chars ++ rest = text ∧ chars ≠ [])
    (hname : tag.name = templateName) (hclose : tag.close = .plain) :
    ∃ token shorter, advanceStartTag position frames tag chars rest whole =
        .go [.startTag token] (⟨"template", token.translate⟩ :: frames)
          (position + byteLength chars) rest shorter ∧
      token.name = "template" ∧ token.isLeaf = false ∧
      token.span = ⟨position, position + byteLength chars⟩ := by
  have hvoid : voidElements.contains (String.ofList templateName) = false := by decide
  have hraw : rawTextElements.contains (String.ofList templateName) = false := by decide
  unfold advanceStartTag
  simp only [hname, hclose, hvoid, hraw, reduceCtorEq, ↓reduceIte, Bool.false_eq_true, or_self,
    beq_iff_eq]
  exact ⟨_, length_lt_of_append whole, rfl, rfl, rfl, rfl⟩

/-- When no template tag is hidden from the scan and its end tags are in order, the search finds the
template up to where the scan closes it. -/
theorem findsTemplate_of_visible {position stop : Nat} {text rest : List Char} {tag : TagText}
    (hread : readTag? text = some (tag, rest)) (hname : tag.name = templateName)
    (hclose : tag.close = .plain) (hscan : templateStop? position [] text = some stop)
    (ordered : InOrder [] (scanFrom position [] text).tokens)
    (visible : ∃ after, templateTags position text =
      (scanFrom position [] text).tokens.filterMap tagOf? ++ after) :
    FindsTemplate position text stop := by
  have hopens := templateTag?_of_readTag? (readEndTagOf?_of_readTag? hread) hread
    ⟨hname, by rw [hclose]; decide⟩
  cases text with
  | nil => cases hread
  | cons c cs =>
    obtain ⟨whole, hstep⟩ := advance_of_readTag? position [] hread
    obtain ⟨token, shorter, hgo, htoken, hleaf, hspan⟩ :=
      advanceStartTag_template position [] whole hname hclose
    rw [hgo] at hstep
    rw [templateStop?, hstep] at hscan
    rw [scanFrom, hstep] at ordered visible
    obtain ⟨after, hafter⟩ := visible
    dsimp only at hscan ordered hafter
    have hordered : InOrder ["template"] (scanFrom (position + byteLength tag.chars)
        [⟨"template", token.translate⟩] rest).tokens := by
      rwa [List.singleton_append, InOrder, hleaf, htoken] at ordered
    have htag : tagOf? (.startTag token) =
        some ⟨.opening, ⟨position, position + byteLength tag.chars⟩⟩ := by
      obtain ⟨hopen, _⟩ := Bool.or_eq_false_iff.mp hleaf
      simp only [tagOf?, htoken, hopen, hspan, Bool.false_eq_true, ↓reduceIte]
    rw [templateTags_of_some position hopens, List.singleton_append,
      List.filterMap_cons_some htag, List.cons_append, List.cons.injEq] at hafter
    have hinside := firstUnmatched_tokens [] rfl hscan hordered
    obtain ⟨span, hfirst, hstop⟩ := Option.map_eq_some_iff.mp hinside
    have hwhole := firstUnmatched_append_of_some hfirst after
    apply (findsTemplate_iff_nestsUpTo position stop hread hname hclose).mpr
    apply nestsUpTo_iff.mpr
    rw [hafter.2, ← hstop]
    exact congrArg (Option.map Span.stop) hwhole

end TemplateMessages.Component
