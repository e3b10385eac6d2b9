import TemplateMessages.Markup.Token

set_option autoImplicit false

/-!
# Equations of the scan

One equation for each thing that can stand at a place of the text: what the scan makes of it, and
how it goes on behind it.
-/

namespace TemplateMessages.Markup

open TemplateMessages.Text

/-- Behind the bracket of a start tag stands the first character of its name. -/
theorem isNameStart_of_readTag? {text rest : List Char} {tag : TagText}
    (h : readTag? text = some (tag, rest)) :
    ∃ c cs, text = '<' :: c :: cs ∧ isNameStart c = true := by
  unfold readTag? at h
  split at h
  · cases h
  · rename_i name inner hopen
    unfold readTagOpen? at hopen
    split at hopen
    · rename_i body
      cases body with
      | nil => cases hopen
      | cons c cs =>
        refine ⟨c, cs, rfl, ?_⟩
        cases hstart : isNameStart c with
        | true => rfl
        | false =>
          simp [readQualifiedName?, readName?, hstart] at hopen
    · cases hopen

theorem eq_of_toLower_eq {c d : Char} (h : c.toLower = d) (hd : d.isLower = false) : c = d := by
  unfold Char.toLower at h
  split at h
  · rename_i hupper
    have hval := congrArg (fun c : Char => c.val.toNat) h
    have hlow : 65 ≤ c.val.toNat := UInt32.le_iff_toNat_le.mp hupper.1
    have hhigh : c.val.toNat ≤ 90 := UInt32.le_iff_toNat_le.mp hupper.2
    simp only [UInt32.toNat_add] at hval
    change (c.val.toNat + 32) % 2 ^ 32 = d.val.toNat at hval
    have hlower : d.isLower = true := by
      unfold Char.isLower
      simp only [Bool.and_eq_true, decide_eq_true_eq, UInt32.le_iff_toNat_le, ge_iff_le]
      change 97 ≤ d.val.toNat ∧ d.val.toNat ≤ 122
      omega
    rw [hd] at hlower
    cases hlower
  · exact h

theorem ne_of_isNameStart {c : Char} (h : isNameStart c = true) :
    c ≠ '!' ∧ c ≠ '/' ∧ c.toLower ≠ '!' := by
  have hbang : c ≠ '!' := by
    rintro rfl
    revert h
    decide
  refine ⟨hbang, ?_, fun hlower => hbang (eq_of_toLower_eq hlower rfl)⟩
  rintro rfl
  revert h
  decide

theorem readConstruct?_of_readTag? {text rest : List Char} {tag : TagText}
    (h : readTag? text = some (tag, rest)) :
    readConstruct? text = some (.startTag tag, tag.chars, rest) := by
  obtain ⟨c, cs, rfl, hstart⟩ := isNameStart_of_readTag? h
  obtain ⟨hbang, hslash, hlower⟩ := ne_of_isNameStart hstart
  have hcomment : "<!--".toList.isPrefixOf ('<' :: c :: cs) = false := by
    simp [List.isPrefixOf, hbang.symm]
  have hsection : "<![".toList.isPrefixOf ('<' :: c :: cs) = false := by
    simp [List.isPrefixOf, hbang.symm]
  have hdoctype : readDoctype? ('<' :: c :: cs) = none := by
    simp [readDoctype?, hlower]
  have hend : readEndTag? ('<' :: c :: cs) = none := by
    simp [readEndTag?, hslash]
  simp only [readConstruct?, hcomment, hsection, hdoctype, hend, h, Bool.false_eq_true, ↓reduceIte]

theorem readConstruct?_of_readEndTag? {text name chars rest : List Char}
    (h : readEndTag? text = some (name, chars, rest)) :
    readConstruct? text = some (.endTag (String.ofList name), chars, rest) := by
  obtain ⟨inner, rfl⟩ : ∃ inner, text = '<' :: '/' :: inner := by
    unfold readEndTag? at h
    split at h
    · exact ⟨_, rfl⟩
    · cases h
  have hcomment : "<!--".toList.isPrefixOf ('<' :: '/' :: inner) = false := by
    simp [List.isPrefixOf]
  have hsection : "<![".toList.isPrefixOf ('<' :: '/' :: inner) = false := by
    simp [List.isPrefixOf]
  have hdoctype : readDoctype? ('<' :: '/' :: inner) = none := by
    simp [readDoctype?]
  simp only [readConstruct?, hcomment, hsection, hdoctype, h, Bool.false_eq_true, ↓reduceIte]

theorem readConstruct?_eq_none_of_ne {c : Char} {cs : List Char} (h : c ≠ '<') :
    readConstruct? (c :: cs) = none := by
  have hcomment : "<!--".toList.isPrefixOf (c :: cs) = false := by
    simp [List.isPrefixOf, h.symm]
  have hsection : "<![".toList.isPrefixOf (c :: cs) = false := by
    simp [List.isPrefixOf, h.symm]
  have hdoctype : readDoctype? (c :: cs) = none := by
    have hlower : c.toLower ≠ '<' := fun hlower => h (eq_of_toLower_eq hlower rfl)
    simp [readDoctype?, hlower]
  have hend : readEndTag? (c :: cs) = none := by
    simp [readEndTag?, h]
  have htag : readTag? (c :: cs) = none := by
    simp [readTag?, readTagOpen?, h]
  simp only [readConstruct?, hcomment, hsection, hdoctype, hend, htag, Bool.false_eq_true,
    ↓reduceIte]

theorem startsMarkup_eq_false_of_ne {c : Char} {cs : List Char} (h : c ≠ '<') :
    startsMarkup (c :: cs) = false := by
  simp [startsMarkup, List.isPrefixOf, h.symm, readEndTag?, readTagOpen?, h]

/-- A text run ends at markup or at the end of the text. -/
theorem textRun_stops (text : List Char) :
    (textRun text).2 = [] ∨ startsMarkup (textRun text).2 = true := by
  fun_induction textRun text with
  | case1 => exact .inl rfl
  | case2 _ _ h => exact .inr h
  | case3 _ _ _ _ _ heq ih => simpa [heq] using ih

theorem textRun_append_iff {text after : List Char} (hafter : after = [] ∨ startsMarkup after = true) :
    textRun (text ++ after) = (text, after) ↔
      ∀ front back, front ++ back = text → back ≠ [] → startsMarkup (back ++ after) = false := by
  -- The run is over where markup starts first, so it takes all of `text` when none starts there.
  induction text with
  | nil =>
    constructor
    · intro _ front back heq hback
      exact absurd (List.append_eq_nil_iff.mp heq).2 hback
    · intro _
      obtain rfl | hmarkup := hafter
      · rfl
      · cases after with
        | nil => rfl
        | cons c cs => rw [List.nil_append, textRun, if_pos hmarkup]
  | cons c cs ih =>
    rw [List.cons_append, textRun]
    cases hmarkup : startsMarkup (c :: (cs ++ after)) with
    | true =>
      rw [if_pos rfl]
      constructor
      · intro heq
        cases congrArg Prod.fst heq
      · intro hnone
        have hfirst := hnone [] (c :: cs) rfl (by simp)
        rw [List.cons_append, hmarkup] at hfirst
        cases hfirst
    | false =>
      rw [if_neg (by decide)]
      constructor
      · intro heq front back hsplit hback
        have hrun : textRun (cs ++ after) = (cs, after) := by
          simpa [Prod.ext_iff] using heq
        rcases front with _ | ⟨d, front⟩
        · rw [List.nil_append] at hsplit
          rw [hsplit]
          exact hmarkup
        · exact ih.mp hrun front back (List.cons.inj hsplit).2 hback
      · intro hnone
        have hrun := ih.mpr fun front back hsplit hback =>
          hnone (c :: front) back (by rw [List.cons_append, hsplit]) hback
        rw [hrun]

/-- A text run without a bracket goes on up to the next markup. -/
theorem textRun_append_of_not_mem {run rest : List Char} (hrun : '<' ∉ run)
    (hrest : rest = [] ∨ startsMarkup rest = true) : textRun (run ++ rest) = (run, rest) := by
  refine (textRun_append_iff hrest).mpr fun front back hsplit hback => ?_
  cases back with
  | nil => exact absurd rfl hback
  | cons c cs =>
    refine startsMarkup_eq_false_of_ne fun heq => hrun ?_
    rw [← hsplit, heq]
    simp

/-- The scan with tokens in front. -/
def Scan.behind (tokens : List Token) (scanned : Scan) : Scan :=
  ⟨tokens ++ scanned.tokens, scanned.stop⟩

/-- The token of a start tag that closes. -/
def TagText.token (tag : TagText) (position : Nat) (frames : List Frame) : StartTag :=
  let name := String.ofList tag.name
  let root := frames.isEmpty && name == "template"
  let attributes := tag.locate position
  { span := ⟨position, position + byteLength tag.chars⟩
    name, attributes
    selfClosing := tag.close == .selfClosing
    translate := if root then inherited frames else ownFlag (inherited frames) attributes
    root }

variable {position : Nat} {frames outer : List Frame} {text chars rest : List Char}

theorem ne_nil_of_readConstruct? {construct : Construct}
    (h : readConstruct? text = some (construct, chars, rest)) : ∃ c cs, text = c :: cs := by
  cases text with
  | nil =>
    have hne := (append_of_readConstruct? h).2
    have hnil := (List.append_eq_nil_iff.mp (append_of_readConstruct? h).1).1
    exact absurd hnil hne
  | cons c cs => exact ⟨c, cs, rfl⟩

theorem advance_of_readConstruct? {c : Char} {cs : List Char} {construct : Construct}
    (position : Nat) (frames : List Frame)
    (h : readConstruct? (c :: cs) = some (construct, chars, rest)) :
    ∃ whole, advance position frames c cs =
      match construct with
      | .comment => .go [.comment ⟨position, position + byteLength chars⟩] frames
          (position + byteLength chars) rest (length_lt_of_append whole)
      | .doctype => .go [.doctype ⟨position, position + byteLength chars⟩] frames
          (position + byteLength chars) rest (length_lt_of_append whole)
      | .endTag name => advanceEndTag position frames name chars rest whole
      | .startTag tag => advanceStartTag position frames tag chars rest whole := by
  refine ⟨append_of_readConstruct? h, ?_⟩
  unfold advance
  split
  · rename_i hnone
    rw [h] at hnone
    cases hnone
  · rename_i other otherChars otherRest hfound
    obtain ⟨rfl, rfl, rfl⟩ : construct = other ∧ chars = otherChars ∧ rest = otherRest := by
      rw [h] at hfound
      simpa only [Option.some.injEq, Prod.mk.injEq] using hfound
    cases construct <;> rfl

theorem advance_of_readTag? {c : Char} {cs : List Char} {tag : TagText} (position : Nat)
    (frames : List Frame) (h : readTag? (c :: cs) = some (tag, rest)) :
    ∃ whole, advance position frames c cs =
      advanceStartTag position frames tag tag.chars rest whole :=
  advance_of_readConstruct? position frames (readConstruct?_of_readTag? h)

@[simp] theorem scanFrom_nil (position : Nat) (frames : List Frame) :
    scanFrom position frames [] = ⟨[], position⟩ := by
  rw [scanFrom]

theorem scanFrom_of_stop {c : Char} {cs : List Char} {tokens : List Token} {stop : Nat}
    (h : advance position frames c cs = .stop tokens stop) :
    scanFrom position frames (c :: cs) = ⟨tokens, stop⟩ := by
  rw [scanFrom, h]

theorem scanFrom_of_go {c : Char} {cs : List Char} {tokens : List Token} {next : Nat}
    (shorter : rest.length < (c :: cs).length)
    (h : advance position frames c cs = .go tokens outer next rest shorter) :
    scanFrom position frames (c :: cs) = .behind tokens (scanFrom next outer rest) := by
  rw [scanFrom, h]
  rfl

theorem scanFrom_textRun {c : Char} {cs : List Char} (h : readConstruct? (c :: cs) = none) :
    scanFrom position frames (c :: cs) =
      .behind [.text ⟨position, position + byteLength (c :: (textRun cs).1)⟩ (inherited frames)]
        (scanFrom (position + byteLength (c :: (textRun cs).1)) frames (textRun cs).2) := by
  have hstep : advance position frames c cs = advanceText position frames c cs := by
    unfold advance
    split
    · rfl
    · rename_i hfound
      rw [h] at hfound
      cases hfound
  exact scanFrom_of_go _ hstep

theorem scanFrom_comment (h : readConstruct? text = some (.comment, chars, rest)) :
    scanFrom position frames text =
      .behind [.comment ⟨position, position + byteLength chars⟩]
        (scanFrom (position + byteLength chars) frames rest) := by
  obtain ⟨c, cs, rfl⟩ := ne_nil_of_readConstruct? h
  obtain ⟨whole, hstep⟩ := advance_of_readConstruct? position frames h
  exact scanFrom_of_go _ hstep

theorem scanFrom_doctype (h : readConstruct? text = some (.doctype, chars, rest)) :
    scanFrom position frames text =
      .behind [.doctype ⟨position, position + byteLength chars⟩]
        (scanFrom (position + byteLength chars) frames rest) := by
  obtain ⟨c, cs, rfl⟩ := ne_nil_of_readConstruct? h
  obtain ⟨whole, hstep⟩ := advance_of_readConstruct? position frames h
  exact scanFrom_of_go _ hstep

theorem scanFrom_strayEndTag {name : String}
    (h : readConstruct? text = some (.endTag name, chars, rest))
    (hclosed : closeElement? name frames = none) :
    scanFrom position frames text = ⟨[], position⟩ := by
  obtain ⟨c, cs, rfl⟩ := ne_nil_of_readConstruct? h
  obtain ⟨whole, hstep⟩ := advance_of_readConstruct? position frames h
  dsimp only at hstep
  refine scanFrom_of_stop (hstep.trans ?_)
  unfold advanceEndTag
  rw [hclosed]

theorem scanFrom_rootEndTag (h : readConstruct? text = some (.endTag "template", chars, rest))
    (hclosed : closeElement? "template" frames = some []) :
    scanFrom position frames text =
      ⟨[.endTag ⟨position, position + byteLength chars⟩ "template"],
        position + byteLength chars⟩ := by
  obtain ⟨c, cs, rfl⟩ := ne_nil_of_readConstruct? h
  obtain ⟨whole, hstep⟩ := advance_of_readConstruct? position frames h
  dsimp only at hstep
  refine scanFrom_of_stop (hstep.trans ?_)
  unfold advanceEndTag
  rw [hclosed]
  rfl

theorem scanFrom_endTag {name : String}
    (h : readConstruct? text = some (.endTag name, chars, rest))
    (hclosed : closeElement? name frames = some outer)
    (hinside : ¬(outer.isEmpty = true ∧ name = "template")) :
    scanFrom position frames text =
      .behind [.endTag ⟨position, position + byteLength chars⟩ name]
        (scanFrom (position + byteLength chars) outer rest) := by
  obtain ⟨c, cs, rfl⟩ := ne_nil_of_readConstruct? h
  obtain ⟨whole, hstep⟩ := advance_of_readConstruct? position frames h
  dsimp only at hstep
  refine scanFrom_of_go (length_lt_of_append whole) (hstep.trans ?_)
  unfold advanceEndTag
  rw [hclosed]
  exact if_neg hinside

theorem scanFrom_unclosedTag {tag : TagText} (h : readTag? text = some (tag, rest))
    (hclose : tag.close = .missing) :
    scanFrom position frames text =
      .behind [.text ⟨position, position + byteLength tag.chars⟩ false]
        (scanFrom (position + byteLength tag.chars) frames rest) := by
  obtain ⟨c, cs, rfl⟩ := ne_nil_of_readConstruct? (readConstruct?_of_readTag? h)
  obtain ⟨whole, hstep⟩ := advance_of_readTag? position frames h
  refine scanFrom_of_go (length_lt_of_append whole) (hstep.trans ?_)
  exact if_pos hclose

theorem scanFrom_leaf {tag : TagText} (h : readTag? text = some (tag, rest))
    (hclose : tag.close ≠ .missing)
    (hleaf : tag.close = .selfClosing ∨ voidElements.contains (String.ofList tag.name) = true) :
    scanFrom position frames text =
      .behind [.startTag (tag.token position frames)]
        (scanFrom (position + byteLength tag.chars) frames rest) := by
  obtain ⟨c, cs, rfl⟩ := ne_nil_of_readConstruct? (readConstruct?_of_readTag? h)
  obtain ⟨whole, hstep⟩ := advance_of_readTag? position frames h
  refine scanFrom_of_go (length_lt_of_append whole) (hstep.trans ?_)
  unfold advanceStartTag
  dsimp only
  rw [if_neg hclose, if_pos (by simpa using hleaf)]
  rfl

theorem advanceStartTag_rawText {tag : TagText} (whole : tag.chars ++ rest = text ∧ tag.chars ≠ [])
    (hclose : tag.close = .plain)
    (hvoid : voidElements.contains (String.ofList tag.name) = false)
    (hraw : rawTextElements.contains (String.ofList tag.name) = true) :
    advanceStartTag position frames tag tag.chars rest whole =
      advanceRawText (position + byteLength tag.chars) frames
        (.startTag (tag.token position frames)) tag.name rest (length_lt_of_append whole) := by
  have hmissing : tag.close ≠ .missing := by
    rw [hclose]
    decide
  have hleaf : ¬((tag.close == .selfClosing) = true ∨
      voidElements.contains (String.ofList tag.name) = true) := by
    rw [hclose, hvoid]
    decide
  unfold advanceStartTag
  dsimp only
  rw [if_neg hmissing, if_neg hleaf, if_pos hraw]
  rfl

theorem advanceRawText_of_none {tag : Token} {name : List Char}
    (shorter : rest.length < text.length) (hend : findEndTag? name rest = none) :
    advanceRawText position frames tag name rest shorter =
      .stop [tag, .rawText ⟨position, position + byteLength rest⟩]
        (position + byteLength rest) := by
  unfold advanceRawText
  split
  · rfl
  · rename_i hfind
    rw [hend] at hfind
    cases hfind

theorem advanceRawText_of_some {tag : Token} {name content last after : List Char}
    (shorter : rest.length < text.length)
    (hend : findEndTag? name rest = some (content, last, after)) :
    let start := position + byteLength content
    let stop := start + byteLength last
    ∃ less, advanceRawText position frames tag name rest shorter =
      .go [tag, .rawText ⟨position, start⟩, .endTag ⟨start, stop⟩ (String.ofList name)] frames stop
        after less := by
  have hless : after.length < text.length := by
    rw [← (append_of_findEndTag? hend).1] at shorter
    simp only [List.length_append] at shorter
    omega
  unfold advanceRawText
  split
  · rename_i hfind
    rw [hend] at hfind
    cases hfind
  · rename_i hfind
    rw [hend] at hfind
    cases hfind
    exact ⟨hless, rfl⟩

theorem scanFrom_rawText {tag : TagText} {content last after : List Char}
    (h : readTag? text = some (tag, rest)) (hclose : tag.close = .plain)
    (hvoid : voidElements.contains (String.ofList tag.name) = false)
    (hraw : rawTextElements.contains (String.ofList tag.name) = true)
    (hend : findEndTag? tag.name rest = some (content, last, after)) :
    scanFrom position frames text =
      let start := position + byteLength tag.chars
      let stop := start + byteLength content
      let next := stop + byteLength last
      .behind [.startTag (tag.token position frames), .rawText ⟨start, stop⟩,
        .endTag ⟨stop, next⟩ (String.ofList tag.name)] (scanFrom next frames after) := by
  obtain ⟨c, cs, rfl⟩ := ne_nil_of_readConstruct? (readConstruct?_of_readTag? h)
  obtain ⟨whole, hstep⟩ := advance_of_readTag? position frames h
  rw [advanceStartTag_rawText whole hclose hvoid hraw] at hstep
  obtain ⟨less, hgo⟩ := advanceRawText_of_some (length_lt_of_append whole) hend
  exact scanFrom_of_go _ (hstep.trans hgo)

theorem scanFrom_openRawText {tag : TagText} (h : readTag? text = some (tag, rest))
    (hclose : tag.close = .plain)
    (hvoid : voidElements.contains (String.ofList tag.name) = false)
    (hraw : rawTextElements.contains (String.ofList tag.name) = true)
    (hend : findEndTag? tag.name rest = none) :
    scanFrom position frames text =
      let start := position + byteLength tag.chars
      let stop := start + byteLength rest
      ⟨[.startTag (tag.token position frames), .rawText ⟨start, stop⟩], stop⟩ := by
  obtain ⟨c, cs, rfl⟩ := ne_nil_of_readConstruct? (readConstruct?_of_readTag? h)
  obtain ⟨whole, hstep⟩ := advance_of_readTag? position frames h
  rw [advanceStartTag_rawText whole hclose hvoid hraw] at hstep
  exact scanFrom_of_stop (hstep.trans (advanceRawText_of_none _ hend))

theorem scanFrom_element {tag : TagText} (h : readTag? text = some (tag, rest))
    (hclose : tag.close = .plain)
    (hvoid : voidElements.contains (String.ofList tag.name) = false)
    (hraw : rawTextElements.contains (String.ofList tag.name) = false) :
    scanFrom position frames text =
      .behind [.startTag (tag.token position frames)]
        (scanFrom (position + byteLength tag.chars)
          (⟨String.ofList tag.name, (tag.token position frames).translate⟩ :: frames) rest) := by
  obtain ⟨c, cs, rfl⟩ := ne_nil_of_readConstruct? (readConstruct?_of_readTag? h)
  obtain ⟨whole, hstep⟩ := advance_of_readTag? position frames h
  have hmissing : tag.close ≠ .missing := by
    rw [hclose]
    decide
  have hleaf : ¬((tag.close == .selfClosing) = true ∨
      voidElements.contains (String.ofList tag.name) = true) := by
    rw [hclose, hvoid]
    decide
  refine scanFrom_of_go (length_lt_of_append whole) (hstep.trans ?_)
  unfold advanceStartTag
  dsimp only
  rw [if_neg hmissing, if_neg hleaf, if_neg (by rw [hraw]; decide)]
  rfl

end TemplateMessages.Markup
