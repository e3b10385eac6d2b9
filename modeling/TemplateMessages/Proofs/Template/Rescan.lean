import TemplateMessages.Proofs.Markup.Reads
import TemplateMessages.Proofs.Markup.TextRuns
import TemplateMessages.Proofs.Template.Replaceable

set_option autoImplicit false

/-!
# Scanning a rewritten template

The tokens of a template are written again, some of its texts and start tags with other characters.
The scan of the result has the same marks in the same order, each where it was written, just when the
rewriting disturbs nothing: every text is read as text up to its end, and every start tag as a start
tag of that name up to its end. All other tokens are read the same whatever stands behind them.
-/

namespace TemplateMessages.Template

open TemplateMessages.Markup
open TemplateMessages.Text

inductive Mark where
  | text
  | comment
  | doctype
  | startTag (name : String) (selfClosing : Bool)
  | endTag (name : String)
  | rawText
  deriving DecidableEq, Repr

def markOf : Token → Mark
  | .text .. => .text
  | .comment _ => .comment
  | .doctype _ => .doctype
  | .startTag tag => .startTag tag.name tag.selfClosing
  | .endTag _ name => .endTag name
  | .rawText _ => .rawText

def isFixed : Token → Bool
  | .text .. => false
  | .startTag _ => false
  | _ => true

def marksOf (scanned : Scan) : List (Mark × Span) :=
  scanned.tokens.map fun token => (markOf token, token.span)

/-- The tokens of a text, each with the characters that are written for it. -/
abbrev Renewal := List (Token × List Char)

def Renewal.chars (renewal : Renewal) : List Char :=
  renewal.flatMap (·.2)

/-- The marks of a text that starts at `position`, where they are written. A text for which nothing is
written leaves no mark. -/
def Renewal.marks (position : Nat) : Renewal → List (Mark × Span)
  | [] => []
  | (token, chars) :: renewal =>
    let next := position + byteLength chars
    if markOf token = .text ∧ chars = [] then Renewal.marks position renewal
    else (markOf token, ⟨position, next⟩) :: Renewal.marks next renewal

def Unmarked (text after : List Char) : Prop :=
  readConstruct? (text ++ after) = none ∧
    ∀ front back, front ++ back = text → front ≠ [] → back ≠ [] →
      startsMarkup (back ++ after) = false

/-- The whole of the text is read as one text: no markup begins in it, or all of it is a start tag
that does not close. -/
def ReadsAsText (text after : List Char) : Prop :=
  text = [] ∨ Unmarked text after ∨
    ∃ tag, readTag? (text ++ after) = some (tag, after) ∧ tag.close = .missing

def ReadsAsStartTag (tag : StartTag) (text after : List Char) : Prop :=
  ∃ again, readTag? (text ++ after) = some (again, after) ∧ again.close ≠ .missing ∧
    String.ofList again.name = tag.name ∧ (again.close == .selfClosing) = tag.selfClosing

/-- Every text and every start tag is read again where it is written, `rest` standing behind. -/
def Undisturbed (rest : List Char) : Renewal → Prop
  | [] => True
  | (token, chars) :: renewal =>
    let after := Renewal.chars renewal ++ rest
    (match token with
      | .text .. => ReadsAsText chars after
      | .startTag tag => ReadsAsStartTag tag chars after
      | _ => True) ∧
      Undisturbed rest renewal

/-- The tokens are those of a text that starts at `position`, with `rest` behind them, and only
translated ones are written with other characters. -/
inductive Renews : (position : Nat) → (text : List Char) → Renewal → (rest : List Char) → Prop
  | nil (position : Nat) (rest : List Char) : Renews position rest [] rest
  | cons {position : Nat} {chars written text rest : List Char} {token : Token}
      {renewal : Renewal} (read : token.span = ⟨position, position + byteLength chars⟩)
      (kept : isTranslated token = false → written = chars)
      (tail : Renews (position + byteLength chars) text renewal rest) :
      Renews position (chars ++ text) ((token, written) :: renewal) rest

variable {position : Nat} {frames : List Frame} {text chars rest last written after : List Char}
  {renewal : Renewal} {token : Token} {tokens : List Token}

@[simp] theorem Renewal.chars_nil : Renewal.chars [] = [] :=
  rfl

@[simp] theorem Renewal.chars_cons (token : Token) (written : List Char) (renewal : Renewal) :
    Renewal.chars ((token, written) :: renewal) = written ++ Renewal.chars renewal :=
  rfl

@[simp] theorem marksOf_behind (scanned : Scan) :
    marksOf (.behind tokens scanned) =
      tokens.map (fun token => (markOf token, token.span)) ++ marksOf scanned :=
  List.map_append

theorem Renews.uncons (h : Renews position (chars ++ text) renewal last)
    (htokens : renewal.map (·.1) = token :: tokens)
    (hspan : token.span = ⟨position, position + byteLength chars⟩) :
    ∃ (written : List Char) (later : Renewal), renewal = (token, written) :: later ∧
      later.map (·.1) = tokens ∧
      (isTranslated token = false → written = chars) ∧
      Renews (position + byteLength chars) text later last := by
  generalize hwhole : chars ++ text = whole at h
  cases h with
  | nil => cases htokens
  | @cons _ other written more _ head later read kept tail =>
    obtain ⟨rfl, hlater⟩ := List.cons.inj htokens
    obtain ⟨rfl, rfl⟩ := append_inj_of_span hwhole (hspan.symm.trans read)
    exact ⟨written, later, rfl, hlater, kept, tail⟩

theorem Renews.of_nil (h : Renews position text renewal last)
    (htokens : renewal.map (·.1) = []) : renewal = [] ∧ last = text := by
  obtain rfl := List.map_eq_nil_iff.mp htokens
  cases h
  exact ⟨rfl, rfl⟩

theorem Renews.nothing (h : Renews position [] renewal last)
    (htokens : renewal.map (·.1) = (scanFrom position frames []).tokens) :
    renewal.chars ++ last = [] := by
  rw [scanFrom_nil] at htokens
  obtain ⟨rfl, rfl⟩ := h.of_nil htokens
  rfl

theorem marksOf_of_readsAsText (hne : written ≠ [])
    (hafter : after = [] ∨ startsMarkup after = true) (h : ReadsAsText written after) :
    marksOf (scanFrom position frames (written ++ after)) =
      (.text, ⟨position, position + byteLength written⟩) ::
        marksOf (scanFrom (position + byteLength written) frames after) := by
  rcases h with hnil | ⟨hplain, hinside⟩ | ⟨tag, hread, hclose⟩
  · exact absurd hnil hne
  · cases written with
    | nil => exact absurd rfl hne
    | cons c cs =>
      have hrun : textRun (cs ++ after) = (cs, after) :=
        (textRun_append_iff hafter).mpr fun front back hsplit hback =>
          hinside (c :: front) back (by rw [List.cons_append, hsplit]) (by simp) hback
      rw [List.cons_append] at hplain ⊢
      rw [scanFrom_textRun hplain, hrun]
      rfl
  · have hwritten : tag.chars = written :=
      List.append_cancel_right (append_of_readTag? hread)
    rw [scanFrom_unclosedTag hread hclose, hwritten]
    rfl

theorem readsAsText_of_marksOf {later : List (Mark × Span)}
    (h : marksOf (scanFrom position frames (written ++ after)) =
      (.text, ⟨position, position + byteLength written⟩) :: later) :
    ReadsAsText written after ∧
      marksOf (scanFrom (position + byteLength written) frames after) = later := by
  have hreads := reads_scanFrom position frames (written ++ after)
  generalize scanFrom position frames (written ++ after) = scanned at h hreads
  generalize hwhole : written ++ after = whole at hreads
  cases hreads with
  | nothing => cases h
  | @textRun c cs run rest plain found =>
    rw [marksOf_behind] at h
    obtain ⟨hfirst, hlater⟩ := List.cons.inj h
    have hrun := textRun_append cs
    rw [found] at hrun
    rw [← hrun, ← List.cons_append] at hwhole
    obtain ⟨rfl, rfl⟩ := append_inj_of_span hwhole (congrArg Prod.snd hfirst).symm
    have hafter : after = [] ∨ startsMarkup after = true := by
      have hstops := textRun_stops cs
      rwa [found] at hstops
    rw [← hrun] at plain found
    have hinside := (textRun_append_iff hafter).mp found
    refine ⟨.inr (.inl ⟨plain, ?_⟩), hlater⟩
    intro front back hsplit hfront hback
    cases front with
    | nil => exact absurd rfl hfront
    | cons d front => exact hinside front back (List.cons.inj hsplit).2 hback
  | comment found => cases h
  | doctype found => cases h
  | strayEndTag found closed => cases h
  | rootEndTag found root closed => cases h
  | endTag found closed inside => cases h
  | @unclosedTag _ rest tag found close =>
    rw [marksOf_behind] at h
    obtain ⟨hfirst, hlater⟩ := List.cons.inj h
    have hread := append_of_readTag? found
    obtain ⟨rfl, rfl⟩ := append_inj_of_span (hwhole.trans hread.symm)
      (congrArg Prod.snd hfirst).symm
    rw [← hread] at found
    exact ⟨.inr (.inr ⟨tag, found, close⟩), hlater⟩
  | leaf found close empty => cases h
  | rawText found close notVoid raw ended => cases h
  | openRawText found close notVoid raw ended => cases h
  | element found close notVoid notRaw => cases h

theorem readsAsStartTag_of_marksOf {name : String} {selfClosing : Bool}
    {later : List (Mark × Span)}
    (h : marksOf (scanFrom position frames (written ++ after)) =
      (.startTag name selfClosing, ⟨position, position + byteLength written⟩) :: later) :
    ∃ again, readTag? (written ++ after) = some (again, after) ∧ again.close ≠ .missing ∧
      String.ofList again.name = name ∧ (again.close == .selfClosing) = selfClosing := by
  obtain ⟨tag, rest, hread, hclose, hfirst⟩ : ∃ tag rest,
      readTag? (written ++ after) = some (tag, rest) ∧ tag.close ≠ .missing ∧
      (Mark.startTag (String.ofList tag.name) (tag.close == .selfClosing),
        (⟨position, position + byteLength tag.chars⟩ : Span)) =
        (.startTag name selfClosing, ⟨position, position + byteLength written⟩) := by
    have hreads := reads_scanFrom position frames (written ++ after)
    generalize scanFrom position frames (written ++ after) = scanned at h hreads
    generalize written ++ after = whole at hreads ⊢
    have hplain {tag : TagText} (close : tag.close = .plain) : tag.close ≠ .missing := by
      rw [close]
      decide
    cases hreads with
    | nothing => cases h
    | textRun plain found => cases h
    | comment found => cases h
    | doctype found => cases h
    | strayEndTag found closed => cases h
    | rootEndTag found root closed => cases h
    | endTag found closed inside => cases h
    | unclosedTag found close => cases h
    | leaf found close empty => exact ⟨_, _, found, close, (List.cons.inj h).1⟩
    | rawText found close notVoid raw ended =>
      exact ⟨_, _, found, hplain close, (List.cons.inj h).1⟩
    | openRawText found close notVoid raw ended =>
      exact ⟨_, _, found, hplain close, (List.cons.inj h).1⟩
    | element found close notVoid notRaw =>
      exact ⟨_, _, found, hplain close, (List.cons.inj h).1⟩
  obtain ⟨hmark, hspan⟩ := Prod.mk.inj hfirst
  obtain ⟨hname, hself⟩ := Mark.startTag.inj hmark
  obtain ⟨rfl, rfl⟩ := append_inj_of_span (append_of_readTag? hread).symm hspan.symm
  exact ⟨tag, hread, hclose, hname, hself⟩

theorem name_ne_nil_of_readTag? {tag : TagText} (h : readTag? text = some (tag, rest)) :
    tag.name ≠ [] := by
  unfold readTag? at h
  split at h
  · cases h
  · rename_i name inner hopen
    cases h
    unfold readTagOpen? at hopen
    split at hopen
    · exact (append_of_readQualifiedName? hopen).2
    · cases hopen

theorem startsMarkup_tagChars {tag : TagText} (h : readTag? text = some (tag, rest))
    (after : List Char) : startsMarkup (tag.chars ++ after) = true := by
  obtain ⟨c, cs, htext, hstart⟩ := isNameStart_of_readTag? h
  obtain ⟨more, hchars⟩ : ∃ more, tag.chars = '<' :: c :: more := by
    have hname := name_ne_nil_of_readTag? h
    have hwhole := (append_of_readTag? h).trans htext
    unfold TagText.chars at hwhole ⊢
    cases hspelled : tag.name with
    | nil => exact absurd hspelled hname
    | cons d ds =>
      rw [hspelled] at hwhole
      obtain rfl : d = c := (List.cons.inj (List.cons.inj hwhole).2).1
      exact ⟨_, rfl⟩
  have hopen : (readTagOpen? ('<' :: c :: (more ++ after))).isSome = true := by
    simp only [readTagOpen?, readQualifiedName?, readName?, hstart, if_true]
    split
    · rename_i hnone
      cases hnone
    · split <;> rfl
    · rfl
  rw [hchars, List.cons_append, List.cons_append]
  simp [startsMarkup, hopen]

theorem startsMarkup_renewed (hrenews : Renews position text renewal last)
    (htokens : renewal.map (·.1) = (scanFrom position frames text).tokens)
    (hmarkup : startsMarkup text = true) (h : Undisturbed last renewal) :
    startsMarkup (renewal.chars ++ last) = true := by
  have hreads := reads_scanFrom position frames text
  generalize scanFrom position frames text = scanned at htokens hreads
  -- a start tag is read again, so markup begins there
  have htag {tag : TagText} {after : List Char} {later : List Token}
      (found : readTag? text = some (tag, after))
      (htag : renewal.map (·.1) = .startTag (tag.token position frames) :: later) :
      startsMarkup (renewal.chars ++ last) = true := by
    rw [← append_of_readTag? found] at hrenews
    obtain ⟨written, more, rfl, -, -, -⟩ := hrenews.uncons htag rfl
    obtain ⟨⟨again, hread, -⟩, -⟩ := h
    simpa using startsMarkup_of_readTag? hread
  have hend {name chars after : List Char} {later : List Token}
      (found : readEndTag? text = some (name, chars, after))
      (hend : renewal.map (·.1) = .endTag ⟨position, position + byteLength chars⟩
        (String.ofList name) :: later) :
      startsMarkup (renewal.chars ++ last) = true := by
    rw [← (append_of_readEndTag? found).1] at hrenews
    obtain ⟨written, more, rfl, -, kept, -⟩ := hrenews.uncons hend rfl
    rw [kept rfl, Renewal.chars_cons, List.append_assoc]
    exact startsMarkup_iff.mpr ⟨_, _, _, readConstruct?_of_readEndTag? (readEndTag?_rest found _),
      by simp⟩
  cases hreads with
  | nothing => cases hmarkup
  | textRun plain found =>
    obtain ⟨_, _, _, hread, -⟩ := startsMarkup_iff.mp hmarkup
    rw [plain] at hread
    cases hread
  | @comment _ chars after found =>
    rw [← (append_of_readConstruct? found).1] at hrenews
    obtain ⟨written, more, rfl, hmore, kept, tail⟩ := hrenews.uncons htokens rfl
    have hafter : after = [] → Renewal.chars more ++ last = [] := by
      rintro rfl
      exact tail.nothing hmore
    rw [kept rfl, Renewal.chars_cons, List.append_assoc]
    exact startsMarkup_iff.mpr ⟨_, _, _, readConstruct?_comment_rest found hafter, by simp⟩
  | doctype found =>
    obtain ⟨_, _, _, hread, hdoctype⟩ := startsMarkup_iff.mp hmarkup
    rw [readConstruct?_of_readDoctype? found] at hread
    cases hread
    exact absurd rfl hdoctype
  | strayEndTag found closed =>
    obtain ⟨rfl, rfl⟩ := hrenews.of_nil htokens
    exact hmarkup
  | rootEndTag found root closed => exact hend found htokens
  | endTag found closed inside => exact hend found htokens
  | @unclosedTag _ after tag found close =>
    rw [← append_of_readTag? found] at hrenews
    obtain ⟨written, more, rfl, -, kept, -⟩ := hrenews.uncons htokens rfl
    rw [kept rfl, Renewal.chars_cons, List.append_assoc]
    exact startsMarkup_tagChars found _
  | leaf found close empty => exact htag found htokens
  | rawText found close notVoid raw ended => exact htag found htokens
  | openRawText found close notVoid raw ended => exact htag found htokens
  | element found close notVoid notRaw => exact htag found htokens

theorem closeElement?_names {frames frames' : List Frame}
    (h : frames'.map (·.name) = frames.map (·.name)) (name : String) :
    (closeElement? name frames').map (List.map (·.name)) =
      (closeElement? name frames).map (List.map (·.name)) := by
  induction frames generalizing frames' with
  | nil =>
    rw [List.map_eq_nil_iff.mp h]
  | cons frame frames ih =>
    cases frames' with
    | nil => cases h
    | cons frame' frames' =>
      obtain ⟨hname, hnames⟩ := List.cons.inj h
      dsimp only at hname
      rw [closeElement?, closeElement?, hname]
      split
      · exact congrArg some hnames
      · exact ih hnames

/-- The scan of what is written for the tokens of this text has their marks just when nothing is
disturbed. Only the names of the open elements matter. -/
def Rescans (text : List Char) : Prop :=
  ∀ {position : Nat} {frames : List Frame} {position' : Nat} {frames' : List Frame}
    {renewal : Renewal} {last : List Char}, Renews position text renewal last →
    renewal.map (·.1) = (scanFrom position frames text).tokens →
    frames'.map (·.name) = frames.map (·.name) →
    (marksOf (scanFrom position' frames' (renewal.chars ++ last)) = renewal.marks position' ↔
      Undisturbed last renewal)

section
variable {position' : Nat} {frames' outer outer' : List Frame}

theorem rescans_kept (ih : Rescans rest) (hrenews : Renews position (chars ++ rest) renewal last)
    (htokens : renewal.map (·.1) =
      token :: (scanFrom (position + byteLength chars) outer rest).tokens)
    (hspan : token.span = ⟨position, position + byteLength chars⟩)
    (hfixed : isFixed token = true)
    (hnames : outer'.map (·.name) = outer.map (·.name))
    (hnew : ∀ after, (rest = [] → after = []) →
      marksOf (scanFrom position' frames' (chars ++ after)) =
        (markOf token, ⟨position', position' + byteLength chars⟩) ::
          marksOf (scanFrom (position' + byteLength chars) outer' after)) :
    marksOf (scanFrom position' frames' (renewal.chars ++ last)) = renewal.marks position' ↔
      Undisturbed last renewal := by
  obtain ⟨written, later, rfl, hlater, kept, tail⟩ := hrenews.uncons htokens hspan
  obtain rfl : written = chars := kept (by cases token <;> first | rfl | cases hfixed)
  have hafter : rest = [] → later.chars ++ last = [] := by
    rintro rfl
    exact tail.nothing hlater
  have hmarks : Renewal.marks position' ((token, written) :: later) =
      (markOf token, ⟨position', position' + byteLength written⟩) ::
        later.marks (position' + byteLength written) := by
    cases token <;> first | rfl | cases hfixed
  have hundisturbed : Undisturbed last ((token, written) :: later) ↔ Undisturbed last later := by
    cases token <;> first | exact and_iff_right trivial | cases hfixed
  rw [Renewal.chars_cons, List.append_assoc, hnew _ hafter, hmarks, hundisturbed, List.cons.injEq,
    and_iff_right rfl]
  exact ih tail hlater hnames

theorem rescans_startTag {tag : TagText} {inner : List Frame} (ih : Rescans rest)
    (hrenews : Renews position (tag.chars ++ rest) renewal last)
    (htokens : renewal.map (·.1) = .startTag (tag.token position frames) ::
      (scanFrom (position + byteLength tag.chars) inner rest).tokens)
    (hnew : ∀ written after, ReadsAsStartTag (tag.token position frames) written after →
      ∃ inner' : List Frame, inner'.map (·.name) = inner.map (·.name) ∧
        marksOf (scanFrom position' frames' (written ++ after)) =
          (markOf (.startTag (tag.token position frames)),
            ⟨position', position' + byteLength written⟩) ::
            marksOf (scanFrom (position' + byteLength written) inner' after)) :
    marksOf (scanFrom position' frames' (renewal.chars ++ last)) = renewal.marks position' ↔
      Undisturbed last renewal := by
  obtain ⟨written, later, rfl, hlater, -, tail⟩ := hrenews.uncons htokens rfl
  have hmarks : Renewal.marks position'
      ((.startTag (tag.token position frames), written) :: later) =
      (markOf (.startTag (tag.token position frames)),
        ⟨position', position' + byteLength written⟩) ::
        later.marks (position' + byteLength written) := rfl
  rw [Renewal.chars_cons, List.append_assoc, hmarks, Undisturbed]
  constructor
  · intro h
    have hfirst := readsAsStartTag_of_marksOf h
    obtain ⟨inner', hnames, hscan⟩ := hnew written _ hfirst
    rw [hscan, List.cons.injEq] at h
    exact ⟨hfirst, (ih tail hlater hnames).mp h.2⟩
  · rintro ⟨hfirst, hrest⟩
    obtain ⟨inner', hnames, hscan⟩ := hnew written _ hfirst
    rw [hscan, (ih tail hlater hnames).mpr hrest]

theorem rescans_text {translate : Bool} (ih : Rescans rest)
    (hrenews : Renews position (chars ++ rest) renewal last)
    (htokens : renewal.map (·.1) = .text ⟨position, position + byteLength chars⟩ translate ::
      (scanFrom (position + byteLength chars) frames rest).tokens)
    (hnames : frames'.map (·.name) = frames.map (·.name))
    (hnew : ∀ (written : List Char) (later : Renewal),
      (translate = false → written = chars) → written ≠ [] →
      Renews (position + byteLength chars) rest later last →
      later.map (·.1) = (scanFrom (position + byteLength chars) frames rest).tokens →
      Undisturbed last later → ReadsAsText written (later.chars ++ last) →
      marksOf (scanFrom position' frames' (written ++ (later.chars ++ last))) =
        (.text, ⟨position', position' + byteLength written⟩) ::
          marksOf (scanFrom (position' + byteLength written) frames' (later.chars ++ last))) :
    marksOf (scanFrom position' frames' (renewal.chars ++ last)) = renewal.marks position' ↔
      Undisturbed last renewal := by
  obtain ⟨written, later, rfl, hlater, kept, tail⟩ := hrenews.uncons htokens rfl
  rw [Renewal.chars_cons, List.append_assoc, Undisturbed, Renewal.marks]
  by_cases hnil : written = []
  · subst hnil
    rw [if_pos ⟨rfl, rfl⟩, List.nil_append, and_iff_right (.inl rfl)]
    exact ih tail hlater hnames
  · rw [if_neg fun hboth => hnil hboth.2]
    constructor
    · intro h
      obtain ⟨hfirst, hrest⟩ := readsAsText_of_marksOf h
      exact ⟨hfirst, (ih tail hlater hnames).mp hrest⟩
    · rintro ⟨hfirst, hrest⟩
      rw [hnew written later kept hnil tail hlater hrest hfirst, (ih tail hlater hnames).mpr hrest]
      rfl

theorem again_of_readsAsStartTag {tag : TagText}
    (h : ReadsAsStartTag (tag.token position frames) written after) :
    ∃ again, readTag? (written ++ after) = some (again, after) ∧ again.chars = written ∧
      again.close ≠ .missing ∧ again.name = tag.name ∧
      (again.close == .selfClosing) = (tag.close == .selfClosing) ∧
      ∀ position' frames', markOf (.startTag (again.token position' frames')) =
        markOf (.startTag (tag.token position frames)) := by
  obtain ⟨again, hread, hclose, hname, hself⟩ := h
  have hspelled : again.name = tag.name := by
    have hlist := congrArg String.toList hname
    simpa [TagText.token] using hlist
  refine ⟨again, hread, List.append_cancel_right (append_of_readTag? hread), hclose, hspelled,
    hself, fun position' frames' => ?_⟩
  rw [markOf, markOf, Mark.startTag.injEq]
  exact ⟨hname, hself⟩

theorem plain_of_again {tag again : TagText} (hclose : tag.close = .plain)
    (hmissing : again.close ≠ .missing)
    (hself : (again.close == .selfClosing) = (tag.close == .selfClosing)) :
    again.close = .plain := by
  rw [hclose] at hself
  cases hagain : again.close with
  | plain => rfl
  | selfClosing =>
    rw [hagain] at hself
    cases hself
  | missing => exact absurd hagain hmissing

theorem rescans_rawText {tag : TagText} {content ending : List Char} (ih : Rescans rest)
    (hrenews : Renews position (tag.chars ++ (content ++ (ending ++ rest))) renewal last)
    (htokens : renewal.map (·.1) =
      let start := position + byteLength tag.chars
      let stop := start + byteLength content
      .startTag (tag.token position frames) :: .rawText ⟨start, stop⟩ ::
        .endTag ⟨stop, stop + byteLength ending⟩ (String.ofList tag.name) ::
          (scanFrom (stop + byteLength ending) frames rest).tokens)
    (hclose : tag.close = .plain)
    (hvoid : voidElements.contains (String.ofList tag.name) = false)
    (hraw : rawTextElements.contains (String.ofList tag.name) = true)
    (hend : findEndTag? tag.name (content ++ (ending ++ rest)) = some (content, ending, rest))
    (hnames : frames'.map (·.name) = frames.map (·.name)) :
    marksOf (scanFrom position' frames' (renewal.chars ++ last)) = renewal.marks position' ↔
      Undisturbed last renewal := by
  obtain ⟨written, later, rfl, hlater, -, tail⟩ := hrenews.uncons htokens rfl
  obtain ⟨inside, later, rfl, hending, kept, tail⟩ := tail.uncons hlater rfl
  obtain rfl := kept rfl
  obtain ⟨closing, later, rfl, hrest, kept, tail⟩ := tail.uncons hending rfl
  obtain rfl := kept rfl
  have hnew : ReadsAsStartTag (tag.token position frames) written
      (inside ++ (closing ++ (later.chars ++ last))) →
      marksOf (scanFrom position' frames'
        (written ++ (inside ++ (closing ++ (later.chars ++ last))))) =
        let start := position' + byteLength written
        let stop := start + byteLength inside
        let next := stop + byteLength closing
        (markOf (.startTag (tag.token position frames)), ⟨position', start⟩) ::
          (.rawText, ⟨start, stop⟩) :: (.endTag (String.ofList tag.name), ⟨stop, next⟩) ::
            marksOf (scanFrom next frames' (later.chars ++ last)) := by
    intro h
    obtain ⟨again, hread, rfl, hmissing, hspelled, hself, hmark⟩ := again_of_readsAsStartTag h
    have hagain := findEndTag?_rest hend (later.chars ++ last)
    rw [← hspelled, List.append_assoc] at hagain
    rw [← hspelled] at hvoid hraw
    rw [scanFrom_rawText hread (plain_of_again hclose hmissing hself) hvoid hraw hagain, hspelled]
    simp only [marksOf_behind, List.map_cons, List.map_nil, List.cons_append, List.nil_append, hmark]
    rfl
  simp only [Undisturbed, true_and, Renewal.marks, markOf, reduceCtorEq, false_and, if_false,
    Renewal.chars_cons, List.append_assoc]
  constructor
  · intro h
    have hfirst : ReadsAsStartTag (tag.token position frames) written
        (inside ++ (closing ++ (later.chars ++ last))) := readsAsStartTag_of_marksOf h
    rw [hnew hfirst] at h
    simp only [List.cons.injEq] at h
    exact ⟨hfirst, (ih tail hrest hnames).mp h.2.2.2⟩
  · rintro ⟨hfirst, hlast⟩
    rw [hnew hfirst]
    dsimp only
    rw [(ih tail hrest hnames).mpr hlast]
    rfl

theorem rescans_openRawText {tag : TagText}
    (hrenews : Renews position (tag.chars ++ rest) renewal last)
    (htokens : renewal.map (·.1) =
      let start := position + byteLength tag.chars
      [.startTag (tag.token position frames), .rawText ⟨start, start + byteLength rest⟩])
    (hclose : tag.close = .plain)
    (hvoid : voidElements.contains (String.ofList tag.name) = false)
    (hraw : rawTextElements.contains (String.ofList tag.name) = true)
    (hend : findEndTag? tag.name rest = none) :
    marksOf (scanFrom position' frames' (renewal.chars ++ last)) = renewal.marks position' ↔
      Undisturbed last renewal := by
  rw [← List.append_nil rest] at hrenews
  obtain ⟨written, later, rfl, hlater, -, tail⟩ := hrenews.uncons htokens rfl
  obtain ⟨inside, later, rfl, hnone, kept, tail⟩ := tail.uncons hlater rfl
  obtain rfl := kept rfl
  obtain ⟨rfl, rfl⟩ := tail.of_nil hnone
  simp only [Undisturbed, and_true, Renewal.marks, markOf, reduceCtorEq, false_and, if_false,
    Renewal.chars_cons, Renewal.chars_nil, List.append_nil]
  constructor
  · intro h
    exact readsAsStartTag_of_marksOf h
  · intro h
    obtain ⟨again, hread, rfl, hmissing, hspelled, hself, hmark⟩ := again_of_readsAsStartTag h
    have hagain := hmark position' frames'
    rw [← hspelled] at hvoid hraw hend
    rw [scanFrom_openRawText hread (plain_of_again hclose hmissing hself) hvoid hraw hend, marksOf]
    simp only [List.map_cons, List.map_nil, hagain]
    rfl

theorem rescans_textRun {c : Char} {cs run : List Char} (ih : Rescans rest)
    (hrenews : Renews position ((c :: run) ++ rest) renewal last)
    (htokens : renewal.map (·.1) =
      .text ⟨position, position + byteLength (c :: run)⟩ (inherited frames) ::
        (scanFrom (position + byteLength (c :: run)) frames rest).tokens)
    (found : textRun cs = (run, rest)) (hnames : frames'.map (·.name) = frames.map (·.name)) :
    marksOf (scanFrom position' frames' (renewal.chars ++ last)) = renewal.marks position' ↔
      Undisturbed last renewal := by
  refine rescans_text ih hrenews htokens hnames ?_
  intro written later _ hne tail hlater hrest hfirst
  refine marksOf_of_readsAsText hne ?_ hfirst
  have hstops := textRun_stops cs
  rw [found] at hstops
  rcases hstops with rfl | hmarkup
  · exact .inl (tail.nothing hlater)
  · exact .inr (startsMarkup_renewed tail hlater hmarkup hrest)

theorem rescans_unclosedTag {tag : TagText} (ih : Rescans rest)
    (hrenews : Renews position (tag.chars ++ rest) renewal last)
    (htokens : renewal.map (·.1) = .text ⟨position, position + byteLength tag.chars⟩ false ::
      (scanFrom (position + byteLength tag.chars) frames rest).tokens)
    (found : readTag? text = some (tag, rest))
    (hnames : frames'.map (·.name) = frames.map (·.name)) :
    marksOf (scanFrom position' frames' (renewal.chars ++ last)) = renewal.marks position' ↔
      Undisturbed last renewal := by
  refine rescans_text ih hrenews htokens hnames ?_
  intro written later kept hne _ _ _ hfirst
  obtain rfl := kept rfl
  have hmarkup := startsMarkup_tagChars found (later.chars ++ last)
  rcases hfirst with hnil | ⟨hplain, -⟩ | ⟨again, hread, hmissing⟩
  · exact absurd hnil hne
  · obtain ⟨_, _, _, hread, -⟩ := startsMarkup_iff.mp hmarkup
    rw [hplain] at hread
    cases hread
  · have hchars := List.append_cancel_right (append_of_readTag? hread)
    rw [scanFrom_unclosedTag hread hmissing, hchars]
    rfl

theorem rescans_endTag {name : List Char} (ih : Rescans rest)
    (hrenews : Renews position (chars ++ rest) renewal last)
    (htokens : renewal.map (·.1) =
      .endTag ⟨position, position + byteLength chars⟩ (String.ofList name) ::
        (scanFrom (position + byteLength chars) outer rest).tokens)
    (found : readEndTag? text = some (name, chars, rest))
    (closed : closeElement? (String.ofList name) frames = some outer)
    (inside : ¬(outer.isEmpty = true ∧ String.ofList name = "template"))
    (hnames : frames'.map (·.name) = frames.map (·.name)) :
    marksOf (scanFrom position' frames' (renewal.chars ++ last)) = renewal.marks position' ↔
      Undisturbed last renewal := by
  have hclosed := closeElement?_names hnames (String.ofList name)
  rw [closed] at hclosed
  obtain ⟨outer', houter, hnames'⟩ := Option.map_eq_some_iff.mp hclosed
  have hinside : ¬(outer'.isEmpty = true ∧ String.ofList name = "template") := by
    rintro ⟨hempty, htemplate⟩
    refine inside ⟨?_, htemplate⟩
    rw [List.isEmpty_iff.mp hempty] at hnames'
    exact List.isEmpty_iff.mpr (List.map_eq_nil_iff.mp hnames'.symm)
  refine rescans_kept ih hrenews htokens rfl rfl hnames' ?_
  intro after _
  have hread := readConstruct?_of_readEndTag? (readEndTag?_rest found after)
  rw [scanFrom_endTag hread houter hinside]
  rfl

theorem rescans_rootEndTag {name : List Char}
    (hrenews : Renews position (chars ++ rest) renewal last)
    (htokens : renewal.map (·.1) =
      [.endTag ⟨position, position + byteLength chars⟩ (String.ofList name)])
    (found : readEndTag? text = some (name, chars, rest))
    (root : String.ofList name = "template")
    (closed : closeElement? (String.ofList name) frames = some [])
    (hnames : frames'.map (·.name) = frames.map (·.name)) :
    marksOf (scanFrom position' frames' (renewal.chars ++ last)) = renewal.marks position' ↔
      Undisturbed last renewal := by
  obtain ⟨written, later, rfl, hlater, kept, tail⟩ := hrenews.uncons htokens rfl
  obtain rfl := kept rfl
  obtain ⟨rfl, rfl⟩ := tail.of_nil hlater
  have hclosed := closeElement?_names hnames (String.ofList name)
  rw [closed] at hclosed
  obtain ⟨outer, houter, hempty⟩ := Option.map_eq_some_iff.mp hclosed
  obtain rfl := List.map_eq_nil_iff.mp hempty
  have hread := readConstruct?_of_readEndTag? (readEndTag?_rest found last)
  rw [root] at houter hread
  rw [Renewal.chars_cons, Renewal.chars_nil, List.append_nil,
    scanFrom_rootEndTag hread houter, root]
  exact iff_of_true rfl ⟨trivial, trivial⟩

theorem rescans_leaf {tag : TagText} (ih : Rescans rest)
    (hrenews : Renews position (tag.chars ++ rest) renewal last)
    (htokens : renewal.map (·.1) = .startTag (tag.token position frames) ::
      (scanFrom (position + byteLength tag.chars) frames rest).tokens)
    (hempty : tag.close = .selfClosing ∨ voidElements.contains (String.ofList tag.name) = true)
    (hnames : frames'.map (·.name) = frames.map (·.name)) :
    marksOf (scanFrom position' frames' (renewal.chars ++ last)) = renewal.marks position' ↔
      Undisturbed last renewal := by
  refine rescans_startTag ih hrenews htokens ?_
  intro written after h
  obtain ⟨again, hread, rfl, hmissing, hspelled, hself, hmark⟩ := again_of_readsAsStartTag h
  have hagain : again.close = .selfClosing ∨
      voidElements.contains (String.ofList again.name) = true := by
    rw [hspelled]
    refine hempty.imp_left fun hclose => ?_
    rw [hclose] at hself
    simpa using hself
  refine ⟨frames', hnames, ?_⟩
  rw [scanFrom_leaf hread hmissing hagain, marksOf_behind, List.map_singleton, hmark]
  rfl

theorem rescans_element {tag : TagText} (ih : Rescans rest)
    (hrenews : Renews position (tag.chars ++ rest) renewal last)
    (htokens : renewal.map (·.1) = .startTag (tag.token position frames) ::
      (scanFrom (position + byteLength tag.chars)
        (⟨String.ofList tag.name, (tag.token position frames).translate⟩ :: frames) rest).tokens)
    (hclose : tag.close = .plain)
    (hvoid : voidElements.contains (String.ofList tag.name) = false)
    (hraw : rawTextElements.contains (String.ofList tag.name) = false)
    (hnames : frames'.map (·.name) = frames.map (·.name)) :
    marksOf (scanFrom position' frames' (renewal.chars ++ last)) = renewal.marks position' ↔
      Undisturbed last renewal := by
  refine rescans_startTag ih hrenews htokens ?_
  intro written after h
  obtain ⟨again, hread, rfl, hmissing, hspelled, hself, hmark⟩ := again_of_readsAsStartTag h
  rw [← hspelled] at hvoid hraw
  refine ⟨⟨String.ofList again.name, (again.token position' frames').translate⟩ :: frames', ?_, ?_⟩
  · rw [List.map_cons, List.map_cons, hnames, hspelled]
  · rw [scanFrom_element hread (plain_of_again hclose hmissing hself) hvoid hraw, marksOf_behind,
      List.map_singleton, hmark]
    rfl

end

theorem rescans (text : List Char) : Rescans text := by
  -- one construct may be three tokens, so the induction is on what is left of the text
  induction hlength : text.length using Nat.strong_induction_on generalizing text with
  | _ n ih =>
    intro position frames position' frames' renewal last hrenews htokens hnames
    have hshorter {chars rest : List Char} (whole : chars ++ rest = text) (hne : chars ≠ []) :
        Rescans rest := ih _ (hlength ▸ length_lt_of_append ⟨whole, hne⟩) rest rfl
    have htag (tag : TagText) : tag.chars ≠ [] := by simp [TagText.chars]
    have hreads := reads_scanFrom position frames text
    generalize scanFrom position frames text = scanned at htokens hreads
    cases hreads with
    | nothing =>
      obtain ⟨rfl, rfl⟩ := hrenews.of_nil htokens
      rw [Renewal.chars_nil, List.append_nil, scanFrom_nil]
      exact iff_of_true rfl trivial
    | @textRun c cs run rest plain found =>
      have whole := cons_textRun_append c cs
      rw [found] at whole
      rw [← whole] at hrenews
      exact rescans_textRun (hshorter whole (by simp)) hrenews htokens found hnames
    | @comment _ chars rest found =>
      have whole := append_of_readConstruct? found
      rw [← whole.1] at hrenews
      refine rescans_kept (hshorter whole.1 whole.2) hrenews htokens rfl rfl hnames ?_
      intro after hafter
      rw [scanFrom_comment (readConstruct?_comment_rest found hafter)]
      rfl
    | @doctype _ chars rest found =>
      have whole := append_of_readDoctype? found
      rw [← whole.1] at hrenews
      refine rescans_kept (hshorter whole.1 whole.2) hrenews htokens rfl rfl hnames ?_
      intro after _
      rw [scanFrom_doctype (readConstruct?_of_readDoctype? (readDoctype?_rest found))]
      rfl
    | @strayEndTag _ name chars rest found closed =>
      obtain ⟨rfl, rfl⟩ := hrenews.of_nil htokens
      have hclosed := closeElement?_names hnames (String.ofList name)
      rw [closed, Option.map_none, Option.map_eq_none_iff] at hclosed
      rw [Renewal.chars_nil, List.nil_append,
        scanFrom_strayEndTag (readConstruct?_of_readEndTag? found) hclosed]
      exact iff_of_true rfl trivial
    | @rootEndTag _ name chars rest found root closed =>
      rw [← (append_of_readEndTag? found).1] at hrenews
      exact rescans_rootEndTag hrenews htokens found root closed hnames
    | @endTag _ name chars rest outer found closed inside =>
      have whole := append_of_readEndTag? found
      rw [← whole.1] at hrenews
      exact rescans_endTag (hshorter whole.1 whole.2) hrenews htokens found closed inside hnames
    | @unclosedTag _ rest tag found close =>
      have whole := append_of_readTag? found
      rw [← whole] at hrenews
      exact rescans_unclosedTag (hshorter whole (htag tag)) hrenews htokens found hnames
    | @leaf _ rest tag found close empty =>
      have whole := append_of_readTag? found
      rw [← whole] at hrenews
      exact rescans_leaf (hshorter whole (htag tag)) hrenews htokens empty hnames
    | @rawText _ rest content ending after tag found close notVoid raw ended =>
      have whole := append_of_readTag? found
      have hcontent := (append_of_findEndTag? ended).1
      rw [List.append_assoc] at hcontent
      rw [← whole, ← hcontent] at hrenews
      rw [← hcontent] at ended whole
      have hne : tag.chars ++ content ++ ending ≠ [] := by simp [htag tag]
      exact rescans_rawText (hshorter (by simpa using whole) hne) hrenews htokens close notVoid raw
        ended hnames
    | @openRawText _ rest tag found close notVoid raw ended =>
      rw [← append_of_readTag? found] at hrenews
      exact rescans_openRawText hrenews htokens close notVoid raw ended
    | @element _ rest tag found close notVoid notRaw =>
      have whole := append_of_readTag? found
      rw [← whole] at hrenews
      exact rescans_element (hshorter whole (htag tag)) hrenews htokens close notVoid notRaw hnames

end TemplateMessages.Template
