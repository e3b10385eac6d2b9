import TemplateMessages.Proofs.Markup.TagReading
import TemplateMessages.Proofs.Markup.Tiling

set_option autoImplicit false

/-!
# Spans of tags and attributes

The attributes of a start tag stand in its characters one behind the other, and the value of an
attribute stands in the attribute. `ScanReached` says at which places of a region a step of the scan
is taken, and `Gives` what it can give there: a tag that is read there, whether it closes or not, has
its attributes and their values in the characters behind. A start tag of a scan is read where it
stands, from the rest of the region.
-/

namespace TemplateMessages.Markup

open TemplateMessages.Text

theorem ValueText.covers_locate (value : ValueText) (position : Nat) :
    Covers position value.chars (value.locate position).span value.text := by
  have inner : Covers (position + byteLength (value.gap ++ value.quoteChars))
      (value.text ++ value.quoteChars)
      ⟨position + byteLength (value.gap ++ value.quoteChars),
        position + byteLength (value.gap ++ value.quoteChars) + byteLength value.text⟩
      value.text := Covers.head _ _ _
  have outer := inner.behind
  rw [add_byteLength_append, ← List.append_assoc] at outer
  exact outer

theorem AttributeText.covers_locate (attr : AttributeText) (position : Nat) :
    Covers position attr.chars (attr.locate position).span attr.body := by
  have inner : Covers (position + byteLength attr.blanks) attr.body
      ⟨position + byteLength attr.blanks,
        position + byteLength attr.blanks + byteLength attr.body⟩ attr.body := Covers.whole _ _
  exact inner.behind

theorem AttributeText.covers_value (attr : AttributeText) (position : Nat)
    {value : AttributeValue} (h : (attr.locate position).value = some value) :
    ∃ chars, Covers (attr.locate position).span.start attr.body value.span chars := by
  obtain ⟨valueText, hvalue, rfl⟩ := Option.map_eq_some_iff.mp h
  refine ⟨valueText.text, ?_⟩
  have hbody : attr.body = attr.name ++ valueText.chars := by
    simp [AttributeText.body, hvalue]
  rw [hbody]
  exact (valueText.covers_locate _).behind

theorem covers_of_mem_locateAttributes {position : Nat} {attrs : List AttributeText}
    {attr : Attribute} (h : attr ∈ locateAttributes position attrs) :
    ∃ body, Covers position (TagText.attributeChars attrs) attr.span body ∧
      ∀ value, attr.value = some value →
        ∃ chars, Covers attr.span.start body value.span chars := by
  induction attrs generalizing position with
  | nil => cases h
  | cons first attrs ih =>
    have whole : TagText.attributeChars (first :: attrs) =
        first.chars ++ TagText.attributeChars attrs := List.flatMap_cons
    rw [whole]
    rcases List.mem_cons.mp h with rfl | hlater
    · exact ⟨first.body, (first.covers_locate position).before,
        fun value hvalue => first.covers_value position hvalue⟩
    · obtain ⟨body, hbody, hvalue⟩ := ih hlater
      exact ⟨body, hbody.behind, hvalue⟩

theorem covers_of_mem_locate {position : Nat} {tag : TagText} {attr : Attribute}
    (h : attr ∈ tag.locate position) :
    ∃ body, Covers position tag.chars attr.span body ∧
      ∀ value, attr.value = some value →
        ∃ chars, Covers attr.span.start body value.span chars := by
  obtain ⟨body, hbody, hvalue⟩ := covers_of_mem_locateAttributes h
  exact ⟨body, hbody.behind.before, hvalue⟩

theorem start_lt_stop_of_mem_locateAttributes {position : Nat} {attrs : List AttributeText}
    {attr : Attribute} (h : attr ∈ locateAttributes position attrs) (hname : attr.name ≠ "") :
    attr.span.start < attr.span.stop := by
  induction attrs generalizing position with
  | nil => cases h
  | cons first attrs ih =>
    rcases List.mem_cons.mp h with rfl | hlater
    · refine Nat.lt_add_of_pos_right (byteLength_pos fun hbody => ?_)
      exact hname (congrArg String.ofList (List.append_eq_nil_iff.mp hbody).1)
    · exact ih hlater

theorem locateAttributes_ascending (position : Nat) (attrs : List AttributeText) :
    (locateAttributes position attrs).Pairwise fun a b => a.span.stop ≤ b.span.start := by
  induction attrs generalizing position with
  | nil => exact List.Pairwise.nil
  | cons first attrs ih =>
    apply List.Pairwise.cons _ (ih _)
    intro later hlater
    obtain ⟨body, hbody, _⟩ := covers_of_mem_locateAttributes hlater
    have hfirst := (first.covers_locate position).within
    exact Nat.le_trans hfirst.2 hbody.within.1

namespace Tiles

variable {position stop : Nat} {text rest : List Char} {tokens : List Token} {tag : StartTag}

theorem covers_attribute (h : Tiles position text tokens stop rest)
    (hmem : Token.startTag tag ∈ tokens) {attr : Attribute} (hattr : attr ∈ tag.attributes) :
    ∃ chars body, Covers position text tag.span chars ∧
      Covers tag.span.start chars attr.span body ∧
      ∀ value, attr.value = some value →
        ∃ valueChars, Covers attr.span.start body value.span valueChars := by
  obtain ⟨chars, hchars, _, tagText, rfl, hattributes⟩ := h.covers hmem
  rw [hattributes] at hattr
  obtain ⟨body, hbody, hvalues⟩ := covers_of_mem_locate hattr
  exact ⟨tagText.chars, body, hchars, hbody, hvalues⟩

theorem attribute_within (h : Tiles position text tokens stop rest)
    (hmem : Token.startTag tag ∈ tokens) {attr : Attribute} (hattr : attr ∈ tag.attributes) :
    attr.span.Within tag.span := by
  obtain ⟨chars, body, hchars, hbody, _⟩ := h.covers_attribute hmem hattr
  exact hchars.within_of_covers hbody

theorem attributes_ascending (h : Tiles position text tokens stop rest)
    (hmem : Token.startTag tag ∈ tokens) :
    tag.attributes.Pairwise fun a b => a.span.stop ≤ b.span.start := by
  obtain ⟨chars, _, _, tagText, _, hattributes⟩ := h.covers hmem
  rw [hattributes]
  exact locateAttributes_ascending _ _

theorem attributes_apart (h : Tiles position text tokens stop rest)
    (hmem : Token.startTag tag ∈ tokens) {a b : Attribute} (ha : a ∈ tag.attributes)
    (hb : b ∈ tag.attributes) (hne : a ≠ b) : a.span.Apart b.span := by
  have apart : tag.attributes.Pairwise fun a b => a.span.Apart b.span :=
    (h.attributes_ascending hmem).imp fun hle => Or.inl hle
  have : Std.Symm fun a b : Attribute => a.span.Apart b.span := ⟨fun _ _ => Span.Apart.symm⟩
  exact apart.forall ha hb hne

theorem start_lt_stop_of_binding (h : Tiles position text tokens stop rest)
    (hmem : Token.startTag tag ∈ tokens) {attr : Attribute} (hattr : attr ∈ tag.attributes)
    (hbinding : attr.binding?.isSome = true) : attr.span.start < attr.span.stop := by
  obtain ⟨chars, _, _, tagText, _, hattributes⟩ := h.covers hmem
  rw [hattributes] at hattr
  refine start_lt_stop_of_mem_locateAttributes hattr fun hname => ?_
  rw [Attribute.binding?, hname] at hbinding
  exact absurd hbinding (by decide)

end Tiles

section

/-- A step of the scan of a region is taken at `position`, inside `frames`, where `text` is left. -/
inductive ScanReached (source : List Char) (region : Span) :
    (position : Nat) → (frames : List Frame) → (text : List Char) → Prop
  | start : ScanReached source region region.start [] (region.slice source)
  | step {position next : Nat} {frames inner : List Frame} {c : Char} {cs rest : List Char}
      {tokens : List Token} {shorter : rest.length < (c :: cs).length}
      (reached : ScanReached source region position frames (c :: cs))
      (step : advance position frames c cs = .go tokens inner next rest shorter) :
      ScanReached source region next inner rest

def Attribute.spans (attr : Attribute) : List Span :=
  attr.span :: (attr.value.map AttributeValue.span).toList

variable {source chars : List Char} {region : Span}

theorem ScanReached.covers (hregion : Covers 0 source region chars) {position : Nat}
    {frames : List Frame} {text : List Char}
    (h : ScanReached source region position frames text) :
    Covers 0 source ⟨position, region.stop⟩ text := by
  induction h with
  | start =>
    rw [hregion.slice_eq]
    exact hregion
  | @step position next frames inner c cs rest tokens shorter _ hstep ih =>
    have htiled := advance_tiled position frames c cs
    rw [hstep] at htiled
    have hrest := ih.trans htiled.covers_rest
    rwa [← ih.stop_eq] at hrest

theorem covers_of_mem_spans {base : Nat} {text body : List Char} {attr : Attribute}
    (hbody : Covers base text attr.span body)
    (hvalues : ∀ value, attr.value = some value →
      ∃ inside, Covers attr.span.start body value.span inside)
    {span : Span} (h : span ∈ attr.spans) : ∃ inside, Covers base text span inside := by
  rcases List.mem_cons.mp h with rfl | hlater
  · exact ⟨body, hbody⟩
  · obtain ⟨value, hvalue, rfl⟩ := Option.map_eq_some_iff.mp (Option.mem_toList.mp hlater)
    obtain ⟨inside, hinside⟩ := hvalues value hvalue
    exact ⟨inside, hbody.trans hinside⟩

theorem covers_of_readTag? {position : Nat} {text rest : List Char} {tag : TagText}
    (h : readTag? text = some (tag, rest)) {attr : Attribute} (hattr : attr ∈ tag.locate position)
    {span : Span} (hspan : span ∈ attr.spans) : ∃ inside, Covers position text span inside := by
  obtain ⟨body, hbody, hvalues⟩ := covers_of_mem_locate hattr
  rw [← append_of_readTag? h]
  obtain ⟨inside, hinside⟩ := covers_of_mem_spans hbody hvalues hspan
  exact ⟨inside, hinside.before⟩

theorem Tiles.covers_of_mem_spans {position stop : Nat} {text rest : List Char}
    {tokens : List Token} (h : Tiles position text tokens stop rest) {tag : StartTag}
    (hmem : Token.startTag tag ∈ tokens) {attr : Attribute} (hattr : attr ∈ tag.attributes)
    {span : Span} (hspan : span ∈ attr.spans) : ∃ inside, Covers position text span inside := by
  obtain ⟨tagChars, body, htag, hbody, hvalues⟩ := h.covers_attribute hmem hattr
  exact Markup.covers_of_mem_spans (htag.trans hbody) hvalues hspan

end

section

open TagText (attributeChars)

/-- The start tag at a place of a text, read no further than `limit`. -/
def readTagAt? (source : List Char) (start limit : Nat) : Option TagText :=
  (readTag? (Span.slice ⟨start, limit⟩ source)).map (·.1)

/-- The tokens of a step. -/
def Advance.tokens {text : List Char} : Advance text → List Token
  | .stop tokens _ => tokens
  | .go tokens .. => tokens

/-- What a step at a place can give. Texts and start tags come from what is read there. -/
inductive Gives (position : Nat) (frames : List Frame) (text : List Char) : Token → Prop
  | textRun {c : Char} {cs : List Char} (whole : c :: cs = text)
      (plain : readConstruct? text = none) :
      Gives position frames text
        (.text ⟨position, position + byteLength (c :: (textRun cs).1)⟩ (inherited frames))
  | unclosedTag {tag : TagText} {rest : List Char} (found : readTag? text = some (tag, rest))
      (close : tag.close = .missing) :
      Gives position frames text (.text ⟨position, position + byteLength tag.chars⟩ false)
  | startTag {tag : TagText} {rest : List Char} (found : readTag? text = some (tag, rest))
      (close : tag.close ≠ .missing) :
      Gives position frames text (.startTag (tag.token position frames))
  | comment (span : Span) : Gives position frames text (.comment span)
  | doctype (span : Span) : Gives position frames text (.doctype span)
  | endTag (span : Span) (name : String) : Gives position frames text (.endTag span name)
  | rawText (span : Span) : Gives position frames text (.rawText span)

variable {source chars text rest : List Char} {region : Span} {position next : Nat}
  {frames : List Frame} {token : Token}

theorem gives_of_mem_advanceEndTag {name : String} {whole : chars ++ rest = text ∧ chars ≠ []}
    (h : token ∈ (advanceEndTag position frames name chars rest whole).tokens) :
    Gives position frames text token := by
  unfold advanceEndTag at h
  split at h
  · cases h
  · dsimp only at h
    split at h
    · rw [List.mem_singleton.mp h]
      apply Gives.endTag
    · rw [List.mem_singleton.mp h]
      apply Gives.endTag

theorem gives_of_mem_advanceRawText {name : List Char} {first : Token}
    {shorter : rest.length < text.length} (hfirst : Gives position frames text first)
    (h : token ∈ (advanceRawText next frames first name rest shorter).tokens) :
    Gives position frames text token := by
  unfold advanceRawText at h
  split at h
  · simp only [Advance.tokens, List.mem_cons, List.not_mem_nil, or_false] at h
    rcases h with rfl | rfl
    · exact hfirst
    · apply Gives.rawText
  · simp only [Advance.tokens, List.mem_cons, List.not_mem_nil, or_false] at h
    rcases h with rfl | rfl | rfl
    · exact hfirst
    · apply Gives.rawText
    · apply Gives.endTag

theorem gives_of_mem_advanceStartTag {tag : TagText} (hread : readTag? text = some (tag, rest))
    {whole : tag.chars ++ rest = text ∧ tag.chars ≠ []}
    (h : token ∈ (advanceStartTag position frames tag tag.chars rest whole).tokens) :
    Gives position frames text token := by
  unfold advanceStartTag at h
  dsimp only at h
  split at h
  · rename_i hclose
    rw [List.mem_singleton.mp h]
    exact .unclosedTag hread hclose
  · rename_i hclose
    have htag : Gives position frames text (.startTag (tag.token position frames)) :=
      .startTag hread hclose
    split at h
    · rw [List.mem_singleton.mp h]
      exact htag
    · split at h
      · exact gives_of_mem_advanceRawText htag h
      · rw [List.mem_singleton.mp h]
        exact htag

theorem gives_of_mem_advance {c : Char} {cs : List Char}
    (h : token ∈ (advance position frames c cs).tokens) :
    Gives position frames (c :: cs) token := by
  unfold advance at h
  split at h
  · rename_i hplain
    rw [List.mem_singleton.mp h]
    exact .textRun rfl hplain
  · rename_i construct chars rest hread
    have hcase := readConstruct?_cases hread
    cases construct with
    | comment =>
      rw [List.mem_singleton.mp h]
      apply Gives.comment
    | doctype =>
      rw [List.mem_singleton.mp h]
      apply Gives.doctype
    | endTag name => exact gives_of_mem_advanceEndTag h
    | startTag tag =>
      obtain ⟨htag, rfl⟩ := hcase
      exact gives_of_mem_advanceStartTag htag h

theorem ScanReached.exists_gives (hreached : ScanReached source region position frames text)
    (h : token ∈ (scanFrom position frames text).tokens) :
    ∃ position frames text, ScanReached source region position frames text ∧
      Gives position frames text token := by
  fun_induction scanFrom position frames text with
  | case1 => cases h
  | case2 position frames c cs tokens stop hstep =>
    have hmem : token ∈ (advance position frames c cs).tokens := by
      rw [hstep]
      exact h
    exact ⟨position, frames, c :: cs, hreached, gives_of_mem_advance hmem⟩
  | case3 position frames c cs tokens inner next rest shorter hstep scanned ih =>
    rcases List.mem_append.mp h with hfirst | hlater
    · have hmem : token ∈ (advance position frames c cs).tokens := by
        rw [hstep]
        exact hfirst
      exact ⟨position, frames, c :: cs, hreached, gives_of_mem_advance hmem⟩
    · exact ih (hreached.step hstep) hlater

theorem exists_readTag?_of_mem_scan {tag : StartTag} (hregion : Covers 0 source region chars)
    (h : Token.startTag tag ∈ (scan source region).tokens) :
    ∃ (frames : List Frame) (read : TagText) (rest : List Char),
      Covers 0 source ⟨tag.span.start, region.stop⟩ (read.chars ++ rest) ∧
      read.StandsBefore rest ∧ read.close ≠ .missing ∧
      tag = read.token tag.span.start frames := by
  obtain ⟨position, frames, text, hreached, hgives⟩ := ScanReached.start.exists_gives h
  cases hgives with
  | @startTag read rest hread hclose =>
    have hcovers := hreached.covers hregion
    rw [← append_of_readTag? hread] at hcovers
    exact ⟨frames, read, rest, hcovers, standsBefore_of_readTag? hread, hclose, rfl⟩

theorem exists_of_mem_locateAttributes {attrs : List AttributeText} {attr : Attribute}
    (h : attr ∈ locateAttributes position attrs) :
    ∃ before first behind, attrs = before ++ first :: behind ∧
      attr = first.locate (position + byteLength (attributeChars before)) := by
  induction attrs generalizing position with
  | nil => cases h
  | cons other attrs ih =>
    rcases List.mem_cons.mp h with rfl | hlater
    · exact ⟨[], other, attrs, rfl, rfl⟩
    · obtain ⟨before, first, behind, rfl, rfl⟩ := ih hlater
      refine ⟨other :: before, first, behind, rfl, ?_⟩
      simp [Nat.add_assoc]

end

end TemplateMessages.Markup
