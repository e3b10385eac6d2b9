import TemplateMessages.Markup.Token
import TemplateMessages.Proofs.Markup.Locality
import TemplateMessages.Proofs.Markup.Tiling
import TemplateMessages.Proofs.Text.Placement

set_option autoImplicit false

/-!
# Replaying the tokens of a scan

The tokens of a scan say by themselves which elements are open at each of them: a start tag opens
its element, and an end tag closes the nearest element of its name with all inside it. The replay
never meets an end tag without its element, and it agrees with the flags that the scan gave to the
texts and the start tags. It looks at the tokens only, not at the stack of the scan. What a step
of the scan can do to its tokens and to the open elements, `Went` and `Ended` list.
-/

namespace TemplateMessages.Markup

open TemplateMessages.Text

section

def StartTag.isLeaf (tag : StartTag) : Bool :=
  tag.selfClosing || voidElements.contains tag.name

inductive Went (frames : List Frame) : List Token → List Frame → Prop
  | text (span : Span) (translate : Bool) : Went frames [.text span translate] frames
  | comment (span : Span) : Went frames [.comment span] frames
  | doctype (span : Span) : Went frames [.doctype span] frames
  | endTag {outer : List Frame} (span : Span) (name : String)
      (closed : closeElement? name frames = some outer)
      (inside : ¬(outer.isEmpty = true ∧ name = "template")) :
      Went frames [.endTag span name] outer
  | leaf (tag : StartTag) (leaf : tag.isLeaf = true) : Went frames [.startTag tag] frames
  | rawText (tag : StartTag) (content last : Span) (leaf : tag.isLeaf = false)
      (raw : rawTextElements.contains tag.name = true) :
      Went frames [.startTag tag, .rawText content, .endTag last tag.name] frames
  | element (tag : StartTag) (leaf : tag.isLeaf = false) :
      Went frames [.startTag tag] (⟨tag.name, tag.translate⟩ :: frames)

inductive Ended (position : Nat) (frames : List Frame) : List Token → Nat → Prop
  | stray : Ended position frames [] position
  | root {stop : Nat} (closed : closeElement? "template" frames = some [])
      (behind : position < stop) :
      Ended position frames [.endTag ⟨position, stop⟩ "template"] stop
  | rawText (tag : StartTag) (content : Span) (raw : rawTextElements.contains tag.name = true)
      (stop : Nat) : Ended position frames [.startTag tag, .rawText content] stop

def Advance.Does {text : List Char} (position : Nat) (frames : List Frame) : Advance text → Prop
  | .stop tokens last => Ended position frames tokens last
  | .go tokens inner _ _ _ => Went frames tokens inner

variable {text chars rest : List Char}

theorem advanceEndTag_does (position : Nat) (frames : List Frame) (name : String)
    (h : chars ++ rest = text ∧ chars ≠ []) :
    (advanceEndTag position frames name chars rest h).Does position frames := by
  unfold advanceEndTag
  split
  · exact .stray
  · rename_i outer hclosed
    dsimp only
    by_cases hroot : outer.isEmpty = true ∧ name = "template"
    · rw [if_pos hroot]
      obtain ⟨hempty, rfl⟩ := hroot
      rw [List.isEmpty_iff.mp hempty] at hclosed
      apply Ended.root hclosed
      have hpositive : byteLength chars ≠ 0 := fun hzero =>
        h.2 (eq_nil_of_byteLength_eq_zero hzero)
      omega
    · rw [if_neg hroot]
      exact .endTag _ name hclosed hroot

theorem advanceRawText_does (position next : Nat) (frames : List Frame) (tag : StartTag)
    (name : List Char) (hname : tag.name = String.ofList name) (leaf : tag.isLeaf = false)
    (raw : rawTextElements.contains tag.name = true) (h : rest.length < text.length) :
    (advanceRawText next frames (.startTag tag) name rest h).Does position frames := by
  unfold advanceRawText
  split
  · exact .rawText tag _ raw _
  · dsimp only
    rw [← hname]
    exact .rawText tag _ _ leaf raw

theorem advanceStartTag_does (position : Nat) (frames : List Frame) (tag : TagText)
    (h : chars ++ rest = text ∧ chars ≠ []) :
    (advanceStartTag position frames tag chars rest h).Does position frames := by
  unfold advanceStartTag
  dsimp only
  by_cases hmissing : tag.close = .missing
  · rw [if_pos hmissing]
    exact .text _ _
  · rw [if_neg hmissing]
    split
    · rename_i hleaf
      exact .leaf _ (by simpa [StartTag.isLeaf] using hleaf)
    · rename_i hleaf
      have hplain : (tag.close == .selfClosing || voidElements.contains (String.ofList tag.name)) =
          false := by simpa using hleaf
      split
      · rename_i hraw
        refine advanceRawText_does position _ frames _ tag.name ?_ ?_ hraw _
        · rfl
        · exact hplain
      · exact .element _ hplain

theorem advance_does (position : Nat) (frames : List Frame) (c : Char) (cs : List Char) :
    (advance position frames c cs).Does position frames := by
  unfold advance
  split
  · exact .text _ _
  · rename_i construct chars rest h
    have whole := append_of_readConstruct? h
    cases construct with
    | comment => exact .comment _
    | doctype => exact .doctype _
    | endTag name => exact advanceEndTag_does position frames name whole
    | startTag tag => exact advanceStartTag_does position frames tag whole

end

def Attribute.translates? (attr : Attribute) : Option Bool :=
  if attr.name = "translate" then
    if attr.valueText = "yes" ∨ attr.valueText = "" then some true
    else if attr.valueText = "no" then some false
    else none
  else none

structure Replay where
  frames : List Frame
  rawText : Option String
  deriving DecidableEq, Repr, Inhabited

namespace Replay

def empty : Replay := ⟨[], none⟩

def flag (replay : Replay) : Bool :=
  (replay.frames.head?.map Frame.translate).getD true

/-- What one more token does; nothing is given for a token that cannot stand here. -/
def next? (replay : Replay) (token : Token) : Option Replay :=
  match replay.rawText, token with
  | none, .startTag tag =>
    if tag.isLeaf then some replay
    else if rawTextElements.contains tag.name then some ⟨replay.frames, some tag.name⟩
    else some ⟨⟨tag.name, tag.translate⟩ :: replay.frames, none⟩
  | none, .endTag _ name =>
    (replay.frames.dropWhile (·.name ≠ name)).tail?.map (⟨·, none⟩)
  | none, .rawText _ => none
  | none, _ => some replay
  | some _, .rawText _ => some replay
  | some name, .endTag _ closed => if closed = name then some ⟨replay.frames, none⟩ else none
  | some _, _ => none

end Replay

def replay? (tokens : List Token) : Option Replay :=
  tokens.foldlM Replay.next? Replay.empty

/-- The flag of the token is the one that the replay in front of it gives. `text` is the region from
the token on. -/
def Token.AgreesWith (replay : Replay) (text : List Char) : Token → Prop
  | .text span translate =>
    match readTag? text with
    | some (tag, _) =>
      -- what was read of a start tag that does not close
      tag.close = .missing ∧ span.length = byteLength tag.chars ∧ translate = false
    | none => translate = replay.flag
  | .startTag tag =>
    tag.root = (replay.frames.isEmpty && tag.name == "template") ∧
      tag.translate =
        if tag.root then replay.flag
        else (tag.attributes.reverse.findSome? Attribute.translates?).getD replay.flag
  | _ => True

/-- The tokens stand one behind the other in a text that starts at `position`, and agree with the
replay that `replay` starts; `last` and `rest` are what is behind them. -/
inductive Replays : (position : Nat) → (replay : Replay) → (text : List Char) → List Token →
    (last : Replay) → (rest : List Char) → Prop
  | nil (position : Nat) (replay : Replay) (text : List Char) :
      Replays position replay text [] replay text
  | cons {position : Nat} {replay next last : Replay} {chars text rest : List Char} {token : Token}
      {tokens : List Token} (span : token.span = ⟨position, position + byteLength chars⟩)
      (filled : chars ≠ [] ∨ ∃ span, token = .rawText span)
      (agrees : token.AgreesWith replay (chars ++ text)) (step : replay.next? token = some next)
      (tail : Replays (position + byteLength chars) next text tokens last rest) :
      Replays position replay (chars ++ text) (token :: tokens) last rest

variable {position : Nat} {replay last : Replay} {text rest chars : List Char} {tokens : List Token}

namespace Replays

theorem single {next : Replay} {token : Token}
    (span : token.span = ⟨position, position + byteLength chars⟩) (filled : chars ≠ [])
    (agrees : token.AgreesWith replay (chars ++ rest)) (step : replay.next? token = some next) :
    Replays position replay (chars ++ rest) [token] next rest :=
  .cons span (.inl filled) agrees step (.nil _ _ _)

theorem append {final : Replay} {after : List Char} {stop : Nat} {more : List Token}
    (first : Replays position replay text tokens last rest)
    (hstop : stop + byteLength rest = position + byteLength text)
    (second : Replays stop last rest more final after) :
    Replays position replay text (tokens ++ more) final after := by
  induction first with
  | nil position replay text =>
    obtain rfl : stop = position := Nat.add_right_cancel hstop
    exact second
  | cons span filled agrees step _ ih =>
    refine .cons span filled agrees step (ih ?_ second)
    simp [hstop, Nat.add_assoc]

theorem start_lt_stop (h : Replays position replay text tokens last rest) {token : Token}
    (hmem : token ∈ tokens) (hraw : ∀ span, token ≠ .rawText span) :
    token.span.start < token.span.stop := by
  induction h with
  | nil => cases hmem
  | cons span filled _ _ _ ih =>
    rcases List.mem_cons.mp hmem with rfl | hlater
    · rcases filled with hne | ⟨content, rfl⟩
      · rw [span]
        exact Nat.lt_add_of_pos_right (byteLength_pos hne)
      · exact absurd rfl (hraw content)
    · exact ih hlater

theorem agrees_of_split (h : Replays position replay text tokens last rest)
    {before after : List Token} {token : Token} (hsplit : tokens = before ++ token :: after) :
    ∃ inner there, before.foldlM Replay.next? replay = some inner ∧
      (inner.next? token).isSome = true ∧ token.AgreesWith inner there ∧
      Covers position text ⟨token.span.start, position + byteLength text⟩ there := by
  induction h generalizing before with
  | nil => cases before <;> cases hsplit
  | @cons position replay next last chars text rest first tokens span filled agrees step tail ih =>
    cases before with
    | nil =>
      obtain ⟨rfl, rfl⟩ := List.cons.inj hsplit
      refine ⟨replay, _, rfl, by rw [step]; rfl, agrees, ?_⟩
      rw [span]
      exact Covers.whole _ _
    | cons other before =>
      obtain ⟨rfl, htail⟩ := List.cons.inj hsplit
      obtain ⟨inner, there, hreplay, hnext, hagrees, hcovers⟩ := ih htail
      refine ⟨inner, there, ?_, hnext, hagrees, ?_⟩
      · rw [List.foldlM_cons, step]
        exact hreplay
      · rw [add_byteLength_append]
        exact hcovers.behind

end Replays

theorem inherited_eq_flag (frames : List Frame) (rawText : Option String) :
    inherited frames = (Replay.mk frames rawText).flag := by
  cases frames <;> rfl

theorem closeElement?_eq (name : String) (frames : List Frame) :
    closeElement? name frames = (frames.dropWhile (·.name ≠ name)).tail? := by
  induction frames with
  | nil => rfl
  | cons frame frames ih =>
    rw [closeElement?, List.dropWhile_cons]
    by_cases hname : frame.name = name
    · simp [hname]
    · simp [hname, ih]

theorem translateFlag_eq_getD (around : Bool) {attr : Attribute} (h : attr.name = "translate") :
    translateFlag around attr.valueText = attr.translates?.getD around := by
  unfold translateFlag Attribute.translates?
  rw [if_pos h]
  split
  · rfl
  · split <;> rfl

theorem ownFlag_eq (around : Bool) (attributes : List Attribute) :
    ownFlag around attributes =
      (attributes.reverse.findSome? Attribute.translates?).getD around := by
  unfold ownFlag
  induction attributes generalizing around with
  | nil => rfl
  | cons attr attributes ih =>
    rw [List.reverse_cons, List.findSome?_append, List.filter_cons]
    by_cases hname : attr.name = "translate"
    · rw [if_pos (beq_iff_eq.mpr hname), List.foldl_cons, ih, translateFlag_eq_getD around hname]
      cases attributes.reverse.findSome? Attribute.translates? <;>
        cases h : attr.translates? <;> simp [h]
    · have hnone : attr.translates? = none := if_neg hname
      rw [if_neg (by simpa using hname), ih]
      simp [hnone]

def Advance.Replayed (position : Nat) (frames : List Frame) : Advance text → Prop
  | .stop tokens _ => ∃ last rest, Replays position ⟨frames, none⟩ text tokens last rest
  | .go tokens inner _ rest _ => Replays position ⟨frames, none⟩ text tokens ⟨inner, none⟩ rest

theorem advanceEndTag_replayed (position : Nat) (frames : List Frame) (name : String)
    (h : chars ++ rest = text ∧ chars ≠ []) :
    (advanceEndTag position frames name chars rest h).Replayed position frames := by
  unfold advanceEndTag
  split
  · exact ⟨_, _, .nil _ _ _⟩
  · rename_i outer hclosed
    have hnext : Replay.next? ⟨frames, none⟩
        (.endTag ⟨position, position + byteLength chars⟩ name) = some ⟨outer, none⟩ := by
      rw [closeElement?_eq] at hclosed
      simp only [Replay.next?, hclosed, Option.map_some]
    have hstep : Replays position ⟨frames, none⟩ text
        [.endTag ⟨position, position + byteLength chars⟩ name] ⟨outer, none⟩ rest := by
      rw [← h.1]
      exact .single rfl h.2 trivial hnext
    dsimp only
    by_cases hroot : outer.isEmpty = true ∧ name = "template"
    · rw [if_pos hroot]
      exact ⟨_, _, hstep⟩
    · rw [if_neg hroot]
      exact hstep

theorem advanceRawText_replayed {position : Nat} {frames : List Frame} {tag : StartTag}
    {name : List Char} (hname : tag.name = String.ofList name)
    (hopen : Replay.next? ⟨frames, none⟩ (.startTag tag) = some ⟨frames, some tag.name⟩)
    (hspan : tag.span = ⟨position, position + byteLength chars⟩)
    (hagrees : (Token.startTag tag).AgreesWith ⟨frames, none⟩ (chars ++ rest))
    (whole : chars ++ rest = text ∧ chars ≠ []) (h : rest.length < text.length) :
    (advanceRawText (position + byteLength chars) frames (.startTag tag) name rest h).Replayed
      position frames := by
  obtain ⟨rfl, hne⟩ := whole
  unfold advanceRawText
  split
  · refine ⟨⟨frames, some tag.name⟩, [], .cons hspan (.inl hne) hagrees hopen ?_⟩
    have hcontent : Replays (position + byteLength chars) ⟨frames, some tag.name⟩ (rest ++ [])
        [.rawText ⟨position + byteLength chars, position + byteLength chars + byteLength rest⟩]
        ⟨frames, some tag.name⟩ [] :=
      .cons rfl (.inr ⟨_, rfl⟩) trivial rfl (.nil _ _ _)
    rwa [List.append_nil] at hcontent
  · rename_i content last after hend
    obtain ⟨hwhole, hlast⟩ := append_of_findEndTag? hend
    refine .cons hspan (.inl hne) hagrees hopen ?_
    rw [← hwhole, List.append_assoc]
    refine .cons rfl (.inr ⟨_, rfl⟩) trivial rfl ?_
    exact .single rfl hlast trivial (if_pos hname.symm)

theorem agreesWith_token (tag : TagText) (position : Nat) (frames : List Frame)
    (text : List Char) :
    (Token.startTag (tag.token position frames)).AgreesWith ⟨frames, none⟩ text := by
  refine ⟨rfl, ?_⟩
  rw [← inherited_eq_flag, ← ownFlag_eq]
  rfl

theorem advanceStartTag_replayed (position : Nat) (frames : List Frame) {tag : TagText}
    (hread : readTag? text = some (tag, rest)) (h : tag.chars ++ rest = text ∧ tag.chars ≠ []) :
    (advanceStartTag position frames tag tag.chars rest h).Replayed position frames := by
  have hagrees := agreesWith_token tag position frames (tag.chars ++ rest)
  have hstep {next : Replay} (hnext : Replay.next? ⟨frames, none⟩
      (.startTag (tag.token position frames)) = some next) :
      Replays position ⟨frames, none⟩ text [.startTag (tag.token position frames)] next rest := by
    rw [← h.1]
    exact .single rfl h.2 hagrees hnext
  unfold advanceStartTag
  dsimp only
  by_cases hmissing : tag.close = .missing
  · rw [if_pos hmissing]
    have hunclosed : Token.AgreesWith ⟨frames, none⟩ (tag.chars ++ rest)
        (.text ⟨position, position + byteLength tag.chars⟩ false) := by
      rw [Token.AgreesWith, h.1, hread]
      exact ⟨hmissing, Nat.add_sub_cancel_left _ _, rfl⟩
    rw [Advance.Replayed, ← h.1]
    exact .single rfl h.2 hunclosed rfl
  · rw [if_neg hmissing]
    split
    · rename_i hleaf
      refine hstep (if_pos ?_)
      simpa [StartTag.isLeaf, TagText.token] using hleaf
    · rename_i hleaf
      have hplain : ¬(tag.token position frames).isLeaf = true := by
        simpa [StartTag.isLeaf, TagText.token] using hleaf
      split
      · rename_i hraw
        have hopen : Replay.next? ⟨frames, none⟩ (.startTag (tag.token position frames)) =
            some ⟨frames, some (tag.token position frames).name⟩ :=
          (if_neg hplain).trans (if_pos hraw)
        exact advanceRawText_replayed rfl hopen rfl hagrees h _
      · rename_i hraw
        exact hstep ((if_neg hplain).trans (if_neg hraw))

theorem advance_replayed (position : Nat) (frames : List Frame) (c : Char) (cs : List Char) :
    (advance position frames c cs).Replayed position frames := by
  unfold advance
  split
  · rename_i hnone
    have htag : readTag? (c :: cs) = none := by
      cases hread : readTag? (c :: cs) with
      | none => rfl
      | some found =>
        rw [readConstruct?_of_readTag? hread] at hnone
        cases hnone
    have whole := cons_textRun_append c cs
    have hagrees : Token.AgreesWith ⟨frames, none⟩ ((c :: (textRun cs).1) ++ (textRun cs).2)
        (.text ⟨position, position + byteLength (c :: (textRun cs).1)⟩ (inherited frames)) := by
      rw [Token.AgreesWith, whole, htag]
      exact inherited_eq_flag frames none
    have hrun : Replays position ⟨frames, none⟩ ((c :: (textRun cs).1) ++ (textRun cs).2)
        [.text ⟨position, position + byteLength (c :: (textRun cs).1)⟩ (inherited frames)]
        ⟨frames, none⟩ (textRun cs).2 :=
      .single rfl (List.cons_ne_nil _ _) hagrees rfl
    rwa [whole] at hrun
  · rename_i construct chars rest h
    have whole := append_of_readConstruct? h
    have hstep {token : Token} (hspan : token.span = ⟨position, position + byteLength chars⟩)
        (hagrees : token.AgreesWith ⟨frames, none⟩ (chars ++ rest))
        (hnext : Replay.next? ⟨frames, none⟩ token = some ⟨frames, none⟩) :
        Replays position ⟨frames, none⟩ (c :: cs) [token] ⟨frames, none⟩ rest := by
      rw [← whole.1]
      exact .single hspan whole.2 hagrees hnext
    cases construct with
    | comment => exact hstep rfl trivial rfl
    | doctype => exact hstep rfl trivial rfl
    | endTag name => exact advanceEndTag_replayed position frames name whole
    | startTag tag =>
      obtain ⟨hread, rfl⟩ := readConstruct?_cases h
      exact advanceStartTag_replayed position frames hread whole

theorem scanFrom_replays (position : Nat) (frames : List Frame) (text : List Char) :
    ∃ last rest, Replays position ⟨frames, none⟩ text (scanFrom position frames text).tokens
      last rest := by
  fun_induction scanFrom position frames text with
  | case1 position frames => exact ⟨_, _, .nil _ _ _⟩
  | case2 position frames c cs tokens stop hstep =>
    have step := advance_replayed position frames c cs
    rwa [hstep] at step
  | case3 position frames c cs tokens inner next rest shorter hstep scanned ih =>
    have step := advance_replayed position frames c cs
    have tiled := advance_tiled position frames c cs
    rw [hstep] at step tiled
    obtain ⟨last, after, hafter⟩ := ih
    exact ⟨last, after, step.append (Tiles.covers_rest tiled).stop_eq.symm hafter⟩

/-- The tokens of a scan tile its region from the start to the place where the scan ends, and only
the content of a raw text element can be empty. Replayed on a stack of open elements, each of them
can stand where it does, and each text and each start tag has the flag that the replay gives. -/
theorem scan_replays {source region : List Char} {span : Span}
    (h : Covers 0 source span region) :
    (∃ rest, Tiles span.start region (scan source span).tokens (scan source span).stop rest) ∧
      (scan source span).stop ≤ span.stop ∧
      (∀ token ∈ (scan source span).tokens, (∀ content, token ≠ .rawText content) →
        token.span.start < token.span.stop) ∧
      ∀ before token after, (scan source span).tokens = before ++ token :: after →
        ∃ replay, replay? before = some replay ∧ (replay.next? token).isSome = true ∧
          token.AgreesWith replay (Span.slice ⟨token.span.start, span.stop⟩ source) := by
  obtain ⟨rest, htiles⟩ := scan_tiled h
  obtain ⟨last, after, hreplays⟩ := scanFrom_replays span.start [] region
  rw [← h.slice_eq] at hreplays
  refine ⟨⟨rest, htiles⟩, ?_, fun token hmem hraw => hreplays.start_lt_stop hmem hraw, ?_⟩
  · rw [h.stop_eq]
    exact htiles.covers_rest.start_le_stop
  · intro before token later hsplit
    obtain ⟨replay, there, hreplay, hnext, hagrees, hcovers⟩ := hreplays.agrees_of_split hsplit
    rw [h.slice_eq, ← h.stop_eq] at hcovers
    refine ⟨replay, hreplay, hnext, ?_⟩
    rwa [(h.trans hcovers).slice_eq]

/-- A start tag that does not close, behind an element that is not translated and holds a script. -/
def unclosedMarkup : List Char :=
  "é<p translate=no>a<script>b</script></p>d<b x".toList

theorem scan_replays_unclosedTag :
    Covers 0 unclosedMarkup ⟨2, 46⟩ (unclosedMarkup.drop 1) ∧
      ∃ before replay, (scan unclosedMarkup ⟨2, 46⟩).tokens = before ++ [.text ⟨42, 46⟩ false] ∧
        before.length = 7 ∧ replay? before = some replay ∧ replay.flag = true ∧
        (replay.next? (.text ⟨42, 46⟩ false)).isSome = true ∧
        Token.AgreesWith replay "<b x".toList (.text ⟨42, 46⟩ false) := by
  have hcovers : Covers 0 unclosedMarkup ⟨2, 46⟩ (unclosedMarkup.drop 1) :=
    ⟨['é'], [], by decide, by decide⟩
  obtain ⟨before, hbefore⟩ :
      ∃ before, before = (scan unclosedMarkup ⟨2, 46⟩).tokens.dropLast := ⟨_, rfl⟩
  have hsplit : (scan unclosedMarkup ⟨2, 46⟩).tokens = before ++ [.text ⟨42, 46⟩ false] := by
    rw [hbefore]
    decide +kernel
  have hempty : replay? before = some .empty := by
    rw [hbefore]
    decide +kernel
  obtain ⟨-, -, -, hagree⟩ := scan_replays hcovers
  obtain ⟨replay, hreplay, hnext, hflag⟩ := hagree before (.text ⟨42, 46⟩ false) [] hsplit
  obtain rfl : Replay.empty = replay := Option.some.inj (hempty.symm.trans hreplay)
  have hlength : before.length = 7 := by
    rw [hbefore]
    decide +kernel
  have hslice : Span.slice ⟨42, 46⟩ unclosedMarkup = "<b x".toList := by decide
  exact ⟨hcovers, before, _, hsplit, hlength, hreplay, rfl, hnext, hslice ▸ hflag⟩

end TemplateMessages.Markup
