import TemplateMessages.Proofs.Call.CandidateSpans
import TemplateMessages.Proofs.Markup.TagSpans
import TemplateMessages.Proofs.Markup.Tiling
import TemplateMessages.Template.Resolution

set_option autoImplicit false

/-!
# What the transformation of a template may replace

An edit of a template replaces an interpolation of translated text or a call in one, or a bound
attribute of a translated tag or a call in its value. So it stays inside one translated token of
the scan, and everything else between the tags, and the rest of the tags, is apart from it.
-/

namespace TemplateMessages.Template

open TemplateMessages.Call (Candidate FunctionNames)
open TemplateMessages.Markup
open TemplateMessages.Text
open TemplateMessages.Translation

def isTranslated : Token → Bool
  | .text _ translate => translate
  | .startTag tag => tag.translate && !tag.root
  | _ => false

def isBound (attr : Attribute) : Bool :=
  attr.binding?.isSome && attr.value.isSome

inductive Replaceable (source : List Char) (names : FunctionNames) (scanned : Scan) : Span → Prop
  | interpolation {text : Span} {expression : Interpolation}
      (token : Token.text text true ∈ scanned.tokens)
      (found : expression ∈ interpolationsFrom text.start (text.slice source)) :
      Replaceable source names scanned expression.whole
  | interpolationCall {text : Span} {expression : Interpolation} {call : Candidate}
      (token : Token.text text true ∈ scanned.tokens)
      (found : expression ∈ interpolationsFrom text.start (text.slice source))
      (called : call ∈ Call.candidates names (expression.inner.slice source)
        expression.inner.start .text) :
      Replaceable source names scanned call.span
  | binding {tag : StartTag} {attr : Attribute} (token : Token.startTag tag ∈ scanned.tokens)
      (translated : isTranslated (.startTag tag) = true) (member : attr ∈ tag.attributes)
      (bound : isBound attr = true) :
      Replaceable source names scanned attr.span
  | bindingCall {tag : StartTag} {attr : Attribute} {value : AttributeValue} {call : Candidate}
      (token : Token.startTag tag ∈ scanned.tokens)
      (translated : isTranslated (.startTag tag) = true) (member : attr ∈ tag.attributes)
      (bound : isBound attr = true) (valued : attr.value = some value)
      (called : call ∈ Call.candidates names (value.span.slice source) value.span.start
        .attributeValue) :
      Replaceable source names scanned call.span

/-- The calls in the expressions of a template. -/
def callsOf (source : List Char) (region : Span) (names : FunctionNames) : List Candidate :=
  (sites source region).flatMap fun site =>
    Call.candidates names (site.inner.slice source) site.inner.start site.place

theorem covers_of_mem_interpolationsFrom {position : Nat} {text : List Char}
    {expression : Interpolation} (h : expression ∈ interpolationsFrom position text) :
    ∃ inner, Covers position text expression.whole ('{' :: '{' :: inner ++ ['}', '}']) ∧
      Covers expression.whole.start ('{' :: '{' :: inner ++ ['}', '}']) expression.inner inner := by
  fun_induction interpolationsFrom position text with
  | case1 position text inner rest hread _ start last ih =>
    have whole := append_of_readInterpolation? hread
    have split : ('{' :: '{' :: inner ++ ['}', '}']) ++ rest = text := by
      rw [← whole]
      simp
    have hlength : byteLength ('{' :: '{' :: inner ++ ['}', '}']) = 2 + byteLength inner + 2 := by
      have brace : '{'.utf8Size = 1 ∧ '}'.utf8Size = 1 := by decide
      rw [byteLength_append]
      simp only [byteLength, brace.1, brace.2]
      omega
    rcases List.mem_cons.mp h with rfl | hlater
    · refine ⟨inner, ?_, ?_⟩
      · rw [← split]
        have outer := Covers.head position ('{' :: '{' :: inner ++ ['}', '}']) rest
        rw [hlength] at outer
        simpa only [start, last, Nat.add_assoc] using outer
      · have inside := Covers.head (position + 2) inner ['}', '}']
        exact Covers.behind_cons '{' (Covers.behind_cons '{' inside)
    · obtain ⟨found, houter, hinner⟩ := ih hlater
      refine ⟨found, ?_, hinner⟩
      rw [← split]
      apply Covers.behind
      rw [hlength]
      simpa only [start, last, Nat.add_assoc] using houter
  | case2 => cases h
  | case3 position c cs _ ih =>
    obtain ⟨found, houter, hinner⟩ := ih h
    refine ⟨found, ?_, hinner⟩
    exact houter.behind_cons c

theorem interpolationsFrom_ascending (position : Nat) (text : List Char) :
    (interpolationsFrom position text).Pairwise fun a b => a.whole.stop ≤ b.whole.start := by
  fun_induction interpolationsFrom position text with
  | case1 position text inner rest hread _ start last ih =>
    refine List.Pairwise.cons ?_ ih
    intro later hlater
    obtain ⟨_, houter, _⟩ := covers_of_mem_interpolationsFrom hlater
    exact houter.within.1
  | case2 => exact List.Pairwise.nil
  | case3 position c cs _ ih => exact ih

@[simp] theorem mem_translatableText {scanned : Scan} {text : Span} :
    text ∈ scanned.translatableText ↔ Token.text text true ∈ scanned.tokens := by
  unfold Scan.translatableText
  constructor
  · intro h
    obtain ⟨token, htoken, hmatch⟩ := List.mem_filterMap.mp h
    split at hmatch
    · rw [← Option.some.inj hmatch]
      exact htoken
    · cases hmatch
  · intro h
    exact List.mem_filterMap.mpr ⟨_, h, rfl⟩

@[simp] theorem mem_translatableTags {scanned : Scan} {tag : StartTag} :
    tag ∈ scanned.translatableTags ↔
      Token.startTag tag ∈ scanned.tokens ∧ isTranslated (.startTag tag) = true := by
  unfold Scan.translatableTags
  constructor
  · intro h
    obtain ⟨token, htoken, hmatch⟩ := List.mem_filterMap.mp h
    split at hmatch
    · split at hmatch
      · rename_i htranslated
        obtain rfl := Option.some.inj hmatch
        exact ⟨htoken, htranslated⟩
      · cases hmatch
    · cases hmatch
  · rintro ⟨htoken, htranslated⟩
    exact List.mem_filterMap.mpr ⟨_, htoken, if_pos htranslated⟩

namespace Replaceable

variable {source region : List Char} {names : FunctionNames} {template span : Span}

/-- What may be replaced is a part of the source, inside a translated text or inside a bound
attribute of a translated tag. -/
theorem placed (hregion : Covers 0 source template region)
    (h : Replaceable source names (scan source template) span) :
    (∃ old, Covers 0 source span old) ∧
      ((∃ text, Token.text text true ∈ (scan source template).tokens ∧ span.Within text) ∨
        ∃ tag attr, Token.startTag tag ∈ (scan source template).tokens ∧
          isTranslated (.startTag tag) = true ∧ attr ∈ tag.attributes ∧ isBound attr = true ∧
          span.Within attr.span) := by
  obtain ⟨rest, tiled⟩ := scan_tiled hregion
  cases h with
  | @interpolation text expression token found =>
    obtain ⟨chars, hchars, _⟩ := tiled.covers token
    have htext : Covers 0 source text chars := hregion.trans hchars
    rw [htext.slice_eq] at found
    obtain ⟨inner, houter, _⟩ := covers_of_mem_interpolationsFrom found
    exact ⟨⟨_, htext.trans houter⟩, Or.inl ⟨text, token, htext.within_of_covers houter⟩⟩
  | @interpolationCall text expression call token found called =>
    obtain ⟨chars, hchars, _⟩ := tiled.covers token
    have htext : Covers 0 source text chars := hregion.trans hchars
    rw [htext.slice_eq] at found
    obtain ⟨inner, houter, hinner⟩ := covers_of_mem_interpolationsFrom found
    have hexpression := houter.trans hinner
    rw [(htext.trans hexpression).slice_eq] at called
    have hcall := hexpression.trans (Call.covers_of_mem_candidates called)
    exact ⟨⟨_, htext.trans hcall⟩, Or.inl ⟨text, token, htext.within_of_covers hcall⟩⟩
  | @binding tag attr token translated member bound =>
    obtain ⟨chars, body, htag, hbody, _⟩ := tiled.covers_attribute token member
    exact ⟨⟨body, (hregion.trans htag).trans hbody⟩,
      Or.inr ⟨tag, attr, token, translated, member, bound, Nat.le_refl _, Nat.le_refl _⟩⟩
  | @bindingCall tag attr value call token translated member bound valued called =>
    obtain ⟨chars, body, htag, hbody, hvalues⟩ := tiled.covers_attribute token member
    obtain ⟨valueChars, hvalue⟩ := hvalues value valued
    have hattr := (hregion.trans htag).trans hbody
    rw [(hattr.trans hvalue).slice_eq] at called
    have hcall := hvalue.trans (Call.covers_of_mem_candidates called)
    exact ⟨⟨_, hattr.trans hcall⟩,
      Or.inr ⟨tag, attr, token, translated, member, bound, hattr.within_of_covers hcall⟩⟩

theorem inside_token (hregion : Covers 0 source template region)
    (h : Replaceable source names (scan source template) span) :
    ∃ token ∈ (scan source template).tokens, isTranslated token = true ∧
      span.Within token.span := by
  obtain ⟨rest, tiled⟩ := scan_tiled hregion
  rcases (h.placed hregion).2 with
    ⟨text, token, hwithin⟩ | ⟨tag, attr, token, htag, hattr, _, hwithin⟩
  · exact ⟨_, token, rfl, hwithin⟩
  · exact ⟨_, token, htag, hwithin.trans (tiled.attribute_within token hattr)⟩

theorem apart_token (hregion : Covers 0 source template region)
    (h : Replaceable source names (scan source template) span) {token : Token}
    (hmem : token ∈ (scan source template).tokens) (htoken : isTranslated token = false) :
    token.span.Apart span := by
  obtain ⟨rest, tiled⟩ := scan_tiled hregion
  obtain ⟨outer, houter, htranslated, hwithin⟩ := h.inside_token hregion
  have hne : token ≠ outer := by
    intro heq
    rw [heq, htranslated] at htoken
    cases htoken
  exact (tiled.apart hmem houter hne).within hwithin

theorem apart_attribute (hregion : Covers 0 source template region)
    (h : Replaceable source names (scan source template) span) {tag : StartTag} {attr : Attribute}
    (hmem : Token.startTag tag ∈ (scan source template).tokens) (hattr : attr ∈ tag.attributes)
    (hbound : isBound attr = false) : attr.span.Apart span := by
  obtain ⟨rest, tiled⟩ := scan_tiled hregion
  have hinside := tiled.attribute_within hmem hattr
  rcases (h.placed hregion).2 with
    ⟨text, token, hwithin⟩ | ⟨other, found, token, _, hfound, hother, hwithin⟩
  · exact ((tiled.apart token hmem (by simp)).within hinside).symm.within hwithin
  · by_cases heq : other = tag
    · subst heq
      have hne : attr ≠ found := by
        intro heq
        rw [heq, hother] at hbound
        cases hbound
      exact (tiled.attributes_apart hmem hattr hfound hne).within hwithin
    · have hne : Token.startTag other ≠ .startTag tag := by simpa using heq
      exact ((tiled.apart token hmem hne).within hinside).symm.within
        (hwithin.trans (tiled.attribute_within token hfound))

theorem within_scan (hregion : Covers 0 source template region)
    (h : Replaceable source names (scan source template) span) :
    span.Within ⟨template.start, (scan source template).stop⟩ := by
  obtain ⟨rest, tiled⟩ := scan_tiled hregion
  obtain ⟨token, hmem, _, hwithin⟩ := h.inside_token hregion
  exact hwithin.trans (tiled.within hmem)

end Replaceable

variable {source : List Char} {names : FunctionNames} {region : Span}
  {translate : Candidate → Except TranslationError Replacement}

/-- What a site is replaced by when it becomes constant. -/
def Site.whole : Site → Span
  | .interpolation expression => expression.whole
  | .binding attr _ => attr.span

theorem span_of_mem_edits_resolve {site : Site} {edit : Edit}
    (h : edit ∈ (resolve source names translate site).edits) :
    edit.span = site.whole ∨ ∃ call ∈ Call.candidates names (site.inner.slice source)
      site.inner.start site.place, edit.span = call.span := by
  have hcall : ∀ found ∈ ((Call.candidates names (site.inner.slice source) site.inner.start
      site.place).map fun candidate => (candidate, translate candidate)).filterMap callEdit?,
      ∃ call ∈ Call.candidates names (site.inner.slice source) site.inner.start site.place,
        found.span = call.span := by
    intro found hfound
    obtain ⟨⟨call, result⟩, hmem, hedit⟩ := List.mem_filterMap.mp hfound
    obtain ⟨candidate, hcandidate, heq⟩ := List.mem_map.mp hmem
    obtain ⟨rfl, rfl⟩ := Prod.mk.inj heq
    refine ⟨candidate, hcandidate, ?_⟩
    unfold callEdit? at hedit
    split at hedit
    · rw [← Option.some.inj hedit]
    · cases hedit
  unfold resolve at h
  dsimp only at h
  split at h
  · cases h
  · unfold Site.edits at h
    split at h
    · rw [List.mem_singleton.mp h]
      exact Or.inl rfl
    · exact Or.inr (hcall edit h)
    · split at h
      · rw [List.mem_singleton.mp h]
        exact Or.inl rfl
      · obtain ⟨found, hfound, rfl⟩ := List.mem_map.mp h
        exact Or.inr (hcall found hfound)

@[simp] theorem edits_all (outcomes : List Outcome) :
    (Outcome.all outcomes).edits = outcomes.flatMap (·.edits) := by
  induction outcomes with
  | nil => rfl
  | cons outcome outcomes ih =>
    rw [List.flatMap_cons, ← ih]
    rfl

theorem mem_edits_all {outcomes : List Outcome} {edit : Edit} :
    edit ∈ (Outcome.all outcomes).edits ↔ ∃ outcome ∈ outcomes, edit ∈ outcome.edits := by
  simp

@[simp] theorem recognized_resolveRegion :
    (resolveRegion source region names translate).recognized =
      (callsOf source region names).length := by
  unfold resolveRegion callsOf
  induction sites source region with
  | nil => rfl
  | cons site rest ih =>
    have hcons : (Outcome.all ((site :: rest).map (resolve source names translate))).recognized =
        (resolve source names translate site).recognized +
          (Outcome.all (rest.map (resolve source names translate))).recognized := rfl
    rw [hcons, ih, List.flatMap_cons, List.length_append]
    rfl

theorem replaceable_of_mem_edits {edit : Edit}
    (h : edit ∈ (resolveRegion source region names translate).edits) :
    Replaceable source names (scan source region) edit.span := by
  obtain ⟨outcome, houtcome, hedit⟩ := mem_edits_all.mp h
  obtain ⟨site, hsite, rfl⟩ := List.mem_map.mp houtcome
  have hspan := span_of_mem_edits_resolve hedit
  rcases List.mem_append.mp hsite with htext | htag
  · obtain ⟨text, hmem, hfound⟩ := List.mem_flatMap.mp htext
    obtain ⟨expression, hexpression, rfl⟩ := List.mem_map.mp hfound
    have htoken := mem_translatableText.mp hmem
    rcases hspan with hwhole | ⟨call, hcall, hwhole⟩
    · rw [hwhole]
      exact .interpolation htoken hexpression
    · rw [hwhole]
      exact .interpolationCall htoken hexpression hcall
  · obtain ⟨tag, hmem, hfound⟩ := List.mem_flatMap.mp htag
    obtain ⟨attr, hattr, hsome⟩ := List.mem_filterMap.mp hfound
    obtain ⟨htoken, htranslated⟩ := mem_translatableTags.mp hmem
    split at hsome
    · rename_i binding value hbinding hvalue
      obtain rfl := Option.some.inj hsome
      have hbound : isBound attr = true := by simp [isBound, hbinding, hvalue]
      rcases hspan with hwhole | ⟨call, hcall, hwhole⟩
      · rw [hwhole]
        exact .binding htoken htranslated hattr hbound
      · rw [hwhole]
        exact .bindingCall htoken htranslated hattr hbound hvalue hcall
    · cases hsome

theorem edits_eq_nil_of_callsOf_eq_nil (h : callsOf source region names = []) :
    (resolveRegion source region names translate).edits = [] := by
  apply List.eq_nil_iff_forall_not_mem.mpr
  intro edit hedit
  obtain ⟨outcome, houtcome, hmem⟩ := mem_edits_all.mp hedit
  obtain ⟨site, hsite, rfl⟩ := List.mem_map.mp houtcome
  have hnone := List.flatMap_eq_nil_iff.mp h site hsite
  unfold resolve at hmem
  rw [hnone] at hmem
  cases hmem

end TemplateMessages.Template
