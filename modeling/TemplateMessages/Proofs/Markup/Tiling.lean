import Mathlib.Data.List.Pairwise
import TemplateMessages.Markup.Token
import TemplateMessages.Proofs.Text.Placement

set_option autoImplicit false

/-!
# The tokens of a scan tile its text

Each token of a scan starts where the one in front of it ends, so no two tokens share a character.
A step of the scan tiles what it reads, and a whole scan tiles the text up to the place where it
ends.
-/

namespace TemplateMessages.Markup

open TemplateMessages.Text

namespace Token

def span : Token → Span
  | text span _ => span
  | comment span => span
  | doctype span => span
  | startTag tag => tag.span
  | endTag span _ => span
  | rawText span => span

/-- The token is read from these characters. What a start tag says about its attributes is what
stands in the characters. -/
def ReadFrom (position : Nat) (chars : List Char) (token : Token) : Prop :=
  token.span = ⟨position, position + byteLength chars⟩ ∧
    match token with
    | startTag tag =>
      ∃ tagText : TagText, tagText.chars = chars ∧ tag.attributes = tagText.locate position
    | _ => True

end Token

/-- The tokens are read one behind the other from a text that starts at `position`; what is left
behind them is `rest`, which starts at `stop`. -/
inductive Tiles : (position : Nat) → (text : List Char) → List Token → (stop : Nat) →
    (rest : List Char) → Prop
  | nil (position : Nat) (text : List Char) : Tiles position text [] position text
  | cons {position stop : Nat} {chars text rest : List Char} {token : Token} {tokens : List Token}
      (read : token.ReadFrom position chars)
      (tail : Tiles (position + byteLength chars) text tokens stop rest) :
      Tiles position (chars ++ text) (token :: tokens) stop rest

namespace Tiles

variable {position stop : Nat} {text rest : List Char} {tokens : List Token}

theorem single {chars rest : List Char} {token : Token} (read : token.ReadFrom position chars) :
    Tiles position (chars ++ rest) [token] (position + byteLength chars) rest :=
  .cons read (.nil _ _)

theorem append {last : Nat} {after : List Char} {more : List Token}
    (first : Tiles position text tokens stop rest) (second : Tiles stop rest more last after) :
    Tiles position text (tokens ++ more) last after := by
  induction first with
  | nil => exact second
  | cons read _ ih => exact .cons read (ih second)

theorem covers (h : Tiles position text tokens stop rest) {token : Token} (hmem : token ∈ tokens) :
    ∃ chars, Covers position text token.span chars ∧ token.ReadFrom token.span.start chars := by
  induction h with
  | nil => cases hmem
  | @cons position stop chars text rest first tokens read tail ih =>
    rcases List.mem_cons.mp hmem with rfl | hlater
    · refine ⟨chars, ?_, ?_⟩
      · rw [read.1]
        exact Covers.head position chars text
      · rw [read.1]
        exact read
    · obtain ⟨found, hcovers, hread⟩ := ih hlater
      exact ⟨found, hcovers.behind, hread⟩

theorem covers_rest (h : Tiles position text tokens stop rest) :
    Covers position text ⟨stop, position + byteLength text⟩ rest := by
  induction h with
  | nil => exact Covers.whole _ _
  | @cons position stop chars text rest token tokens read tail ih =>
    rw [add_byteLength_append]
    exact ih.behind

theorem position_le_stop (h : Tiles position text tokens stop rest) : position ≤ stop := by
  induction h with
  | nil => exact Nat.le_refl _
  | cons _ _ ih => omega

theorem within (h : Tiles position text tokens stop rest) {token : Token} (hmem : token ∈ tokens) :
    token.span.Within ⟨position, stop⟩ := by
  induction h with
  | nil => cases hmem
  | @cons position stop chars text rest first tokens read tail ih =>
    have hstop := tail.position_le_stop
    rcases List.mem_cons.mp hmem with rfl | hlater
    · rw [read.1]
      exact ⟨Nat.le_refl _, hstop⟩
    · have hrest := ih hlater
      exact ⟨Nat.le_trans (Nat.le_add_right _ _) hrest.1, hrest.2⟩

theorem ascending (h : Tiles position text tokens stop rest) :
    tokens.Pairwise fun a b => a.span.stop ≤ b.span.start := by
  induction h with
  | nil => exact List.Pairwise.nil
  | @cons position stop chars text rest first tokens read tail ih =>
    apply List.Pairwise.cons _ ih
    intro later hlater
    rw [read.1]
    exact (tail.within hlater).1

theorem apart (h : Tiles position text tokens stop rest) {a b : Token} (ha : a ∈ tokens)
    (hb : b ∈ tokens) (hne : a ≠ b) : a.span.Apart b.span := by
  have hpairwise : tokens.Pairwise fun a b => a.span.Apart b.span :=
    h.ascending.imp fun hle => Or.inl hle
  have : Std.Symm fun a b : Token => a.span.Apart b.span := ⟨fun _ _ => Span.Apart.symm⟩
  exact hpairwise.forall ha hb hne

end Tiles

/-- What a step of the scan gives tiles the text in front of its rest. -/
def Advance.Tiled {text : List Char} (position : Nat) : Advance text → Prop
  | .stop tokens last => ∃ rest, Tiles position text tokens last rest
  | .go tokens _ next rest _ => Tiles position text tokens next rest

variable {text chars rest : List Char}

theorem advanceEndTag_tiled (position : Nat) (frames : List Frame) (name : String)
    (h : chars ++ rest = text ∧ chars ≠ []) :
    (advanceEndTag position frames name chars rest h).Tiled position := by
  have tile : Tiles position text [.endTag ⟨position, position + byteLength chars⟩ name]
      (position + byteLength chars) rest := by
    rw [← h.1]
    exact .single ⟨rfl, trivial⟩
  unfold advanceEndTag
  split
  · exact ⟨text, .nil position text⟩
  · rename_i outer _
    dsimp only
    by_cases hroot : outer.isEmpty = true ∧ name = "template"
    · rw [if_pos hroot]
      exact ⟨rest, tile⟩
    · rw [if_neg hroot]
      exact tile

theorem advanceRawText_tiled {position : Nat} {tag : Token} (frames : List Frame)
    (name : List Char) (read : tag.ReadFrom position chars) (whole : chars ++ rest = text)
    (h : rest.length < text.length) :
    (advanceRawText (position + byteLength chars) frames tag name rest h).Tiled position := by
  subst whole
  unfold advanceRawText
  split
  · refine ⟨[], .cons read ?_⟩
    have content : Tiles (position + byteLength chars) (rest ++ [])
        [.rawText ⟨position + byteLength chars, position + byteLength chars + byteLength rest⟩]
        (position + byteLength chars + byteLength rest) [] := .single ⟨rfl, trivial⟩
    rwa [List.append_nil] at content
  · rename_i content endTag after hend
    have whole := (append_of_findEndTag? hend).1
    dsimp only [Advance.Tiled]
    refine .cons read ?_
    conv => arg 2; rw [← whole, List.append_assoc]
    refine .cons ⟨rfl, trivial⟩ ?_
    exact .single ⟨rfl, trivial⟩

theorem advanceStartTag_tiled (position : Nat) (frames : List Frame) (tag : TagText)
    (hchars : chars = tag.chars) (h : chars ++ rest = text ∧ chars ≠ []) :
    (advanceStartTag position frames tag chars rest h).Tiled position := by
  have whole := h.1
  have tile {token : Token} (read : token.ReadFrom position chars) :
      Tiles position text [token] (position + byteLength chars) rest := by
    rw [← whole]
    exact .single read
  unfold advanceStartTag
  dsimp only
  by_cases hmissing : tag.close = .missing
  · rw [if_pos hmissing]
    exact tile ⟨rfl, trivial⟩
  · rw [if_neg hmissing]
    split
    · exact tile ⟨rfl, tag, hchars.symm, rfl⟩
    · split
      · refine advanceRawText_tiled frames tag.name ?_ whole _
        exact ⟨rfl, tag, hchars.symm, rfl⟩
      · exact tile ⟨rfl, tag, hchars.symm, rfl⟩

theorem advanceText_tiled (position : Nat) (frames : List Frame) (c : Char) (cs : List Char) :
    (advanceText position frames c cs).Tiled position := by
  change Tiles position (c :: cs) _ _ _
  conv => arg 2; rw [← cons_textRun_append c cs]
  exact .single ⟨rfl, trivial⟩

theorem chars_eq_of_readConstruct? {tag : TagText}
    (h : readConstruct? text = some (.startTag tag, chars, rest)) : chars = tag.chars := by
  unfold readConstruct? at h
  split at h
  · simp at h
  · split at h
    · simp at h
    · split at h
      · simp at h
      · split at h
        · simp at h
        · split at h
          · simp only [Option.some.injEq, Prod.mk.injEq, Construct.startTag.injEq] at h
            rw [← h.1, h.2.1]
          · simp at h

theorem advance_tiled (position : Nat) (frames : List Frame) (c : Char) (cs : List Char) :
    (advance position frames c cs).Tiled position := by
  unfold advance
  split
  · exact advanceText_tiled position frames c cs
  · rename_i construct chars rest h
    have whole := append_of_readConstruct? h
    have tile {token : Token} (read : token.ReadFrom position chars) :
        Tiles position (c :: cs) [token] (position + byteLength chars) rest := by
      rw [← whole.1]
      exact .single read
    cases construct with
    | comment => exact tile ⟨rfl, trivial⟩
    | doctype => exact tile ⟨rfl, trivial⟩
    | endTag name => exact advanceEndTag_tiled position frames name whole
    | startTag tag =>
      exact advanceStartTag_tiled position frames tag (chars_eq_of_readConstruct? h) whole

theorem scanFrom_tiled (position : Nat) (frames : List Frame) (text : List Char) :
    ∃ rest, Tiles position text (scanFrom position frames text).tokens
      (scanFrom position frames text).stop rest := by
  fun_induction scanFrom position frames text with
  | case1 position frames => exact ⟨[], .nil position []⟩
  | case2 position frames c cs tokens last hstep =>
    have step := advance_tiled position frames c cs
    rw [hstep] at step
    exact step
  | case3 position frames c cs tokens inner next rest shorter hstep scanned ih =>
    have step := advance_tiled position frames c cs
    rw [hstep] at step
    obtain ⟨after, hafter⟩ := ih
    exact ⟨after, Tiles.append step hafter⟩

theorem scan_tiled {source region : List Char} {span : Span} (h : Covers 0 source span region) :
    ∃ rest, Tiles span.start region (scan source span).tokens (scan source span).stop rest := by
  unfold scan
  rw [h.slice_eq]
  exact scanFrom_tiled span.start [] region

end TemplateMessages.Markup
