import TemplateMessages.Proofs.Template.Parts
import TemplateMessages.Proofs.Template.Rescan

set_option autoImplicit false

/-!
# What is written for a template

The edits of a template stand in its translated tokens. So a transformed template is what is written
for its tokens, one behind the other: a translated text part by part, a translated start tag with its
edits carried out, and every other token as it is.
-/

namespace TemplateMessages.Template

open TemplateMessages.Call (Candidate FunctionNames)
open TemplateMessages.Markup
open TemplateMessages.Text
open TemplateMessages.Translation

section
variable (source : List Char) (names : FunctionNames)
  (translate : Candidate → Except TranslationError Replacement)

def tagEdits (tag : StartTag) : List Edit :=
  (tagSites tag).flatMap fun site => (resolve source names translate site).edits

def tokenEdits : Token → List Edit
  | .text run true => runEdits source names translate run
  | .startTag tag =>
    if isTranslated (.startTag tag) then tagEdits source names translate tag else []
  | _ => []

def rewrittenToken : Token → List Char
  | .text run true =>
    partChars (rewrittenParts source names translate run.start (partsOf (run.slice source)))
  | token =>
    Edit.applyAll ((tokenEdits source names translate token).map (Edit.movedBack token.span.start))
      (token.span.slice source)

/-- The tokens of a region, each with what is written for it. -/
def renewalOf (region : Span) : Renewal :=
  (scan source region).tokens.map fun token => (token, rewrittenToken source names translate token)

end

/-- The characters of a region behind the end of its scan. -/
def unscanned (source : List Char) (region : Span) : List Char :=
  (⟨(scan source region).stop, region.stop⟩ : Span).slice source

variable {source chars text rest tokenChars : List Char} {region : Span} {names : FunctionNames}
  {translate : Candidate → Except TranslationError Replacement} {site : Site} {token : Token}
  {tokens : List Token} {position stop : Nat}

theorem start_lt_stop_of_mem_sites (hregion : Covers 0 source region chars)
    (h : site ∈ sites source region) : site.whole.start < site.whole.stop := by
  obtain ⟨rest, tiled⟩ := scan_tiled hregion
  rcases List.mem_append.mp h with htext | htag
  · obtain ⟨run, _, hfound⟩ := List.mem_flatMap.mp htext
    obtain ⟨expression, hexpression, rfl⟩ := List.mem_map.mp hfound
    obtain ⟨inner, hwhole, _⟩ := covers_of_mem_interpolationsFrom hexpression
    have hpositive : 0 < byteLength ('{' :: '{' :: inner ++ ['}', '}']) :=
      byteLength_pos (by simp)
    have hstop := hwhole.stop_eq
    dsimp only [Site.whole]
    omega
  · obtain ⟨tag, hmem, hfound⟩ := List.mem_flatMap.mp htag
    obtain ⟨attr, hattr, hsome⟩ := List.mem_filterMap.mp hfound
    split at hsome
    · rename_i binding value hbinding hvalue
      obtain rfl := Option.some.inj hsome
      exact tiled.start_lt_stop_of_binding (mem_translatableTags.mp hmem).1 hattr
        (by rw [hbinding]; rfl)
    · cases hsome

theorem covers_of_mem_edits_resolve (hregion : Covers 0 source region chars)
    (hsite : site ∈ sites source region) {edit : Edit}
    (h : edit ∈ (resolve source names translate site).edits) :
    (∃ old, Covers 0 source edit.span old) ∧ edit.span.start < edit.span.stop := by
  have hplaced := placed_of_mem_sites hregion hsite
  rcases span_of_mem_edits_resolve h with hwhole | ⟨call, hcall, hspan⟩
  · rw [hwhole]
    obtain ⟨whole, _, hcovers, _⟩ := hplaced.covers
    exact ⟨⟨whole, hcovers⟩, start_lt_stop_of_mem_sites hregion hsite⟩
  · rw [hspan]
    have hcovers := (hplaced.covers_call hcall).1
    have hpositive := byteLength_pos (Call.content_ne_nil_of_mem_candidates hcall)
    have hstop := hcovers.stop_eq
    exact ⟨⟨_, hcovers⟩, by omega⟩

theorem mem_sites_of_mem_tagSites {tag : StartTag}
    (htag : tag ∈ (scan source region).translatableTags) (h : site ∈ tagSites tag) :
    site ∈ sites source region :=
  List.mem_append_right _ (List.mem_flatMap.mpr ⟨tag, htag, h⟩)

variable (names translate) in
theorem rewritten_tag (hregion : Covers 0 source region chars) {tag : StartTag}
    (htag : tag ∈ (scan source region).translatableTags)
    (hchars : Covers 0 source tag.span tokenChars) :
    Rewritten tag.span.start tokenChars (tagEdits source names translate tag)
      (Edit.splice tag.span.start tokenChars (tagEdits source names translate tag)) := by
  refine rewritten_splice_of_ascending ?_ (List.pairwise_flatMap.mpr ⟨fun site _ =>
    edits_resolve_ascending, (tagSites_ascending hregion htag).imp_of_mem ?_⟩)
  · intro edit hedit
    obtain ⟨site, hsite, hmem⟩ := List.mem_flatMap.mp hedit
    obtain ⟨hplaced, hwithin⟩ := placed_of_mem_tagSites hregion htag hsite
    obtain ⟨⟨old, hold⟩, _⟩ :=
      covers_of_mem_edits_resolve hregion (mem_sites_of_mem_tagSites htag hsite) hmem
    exact ⟨old, hchars.inside hold ((within_of_mem_edits_resolve hplaced hmem).trans hwithin)⟩
  · intro first second hfirst hsecond hle a ha b hb
    have hbefore := within_of_mem_edits_resolve (placed_of_mem_tagSites hregion htag hfirst).1 ha
    have hbehind := within_of_mem_edits_resolve (placed_of_mem_tagSites hregion htag hsecond).1 hb
    exact Nat.le_trans (Nat.le_trans hbefore.2 hle) hbehind.1

variable (names translate) in
theorem rewritten_token (hregion : Covers 0 source region chars)
    (htoken : token ∈ (scan source region).tokens)
    (hchars : Covers 0 source token.span tokenChars) :
    Rewritten token.span.start tokenChars (tokenEdits source names translate token)
      (rewrittenToken source names translate token) := by
  have hkept : tokenEdits source names translate token = [] →
      Rewritten token.span.start tokenChars (tokenEdits source names translate token)
        (Edit.applyAll ((tokenEdits source names translate token).map
          (Edit.movedBack token.span.start)) (token.span.slice source)) := by
    intro hnone
    rw [hnone, hchars.slice_eq, (Rewritten.kept token.span.start tokenChars).applyAll_movedBack]
    exact .kept _ _
  cases token with
  | text run translated =>
    cases translated with
    | false => exact hkept rfl
    | true =>
      obtain ⟨hrewritten, heq⟩ := rewrittenRun_eq names translate hchars
      rw [heq] at hrewritten
      simp only [rewrittenToken, Token.span] at hchars ⊢
      rw [hchars.slice_eq]
      exact hrewritten
  | startTag tag =>
    by_cases htranslated : isTranslated (.startTag tag) = true
    · have hrewritten := rewritten_tag names translate hregion
        (mem_translatableTags.mpr ⟨htoken, htranslated⟩) hchars
      have hedits : tokenEdits source names translate (.startTag tag) =
          tagEdits source names translate tag := if_pos htranslated
      have happlied := hrewritten.applyAll_movedBack
      simp only [rewrittenToken, Token.span] at hchars ⊢
      rw [hedits, hchars.slice_eq, happlied]
      exact hrewritten
    · exact hkept (if_neg htranslated)
  | comment span => exact hkept rfl
  | doctype span => exact hkept rfl
  | endTag span name => exact hkept rfl
  | rawText span => exact hkept rfl

theorem rewrittenToken_of_not_translated (hchars : Covers 0 source token.span tokenChars)
    (h : isTranslated token = false) : rewrittenToken source names translate token = tokenChars := by
  have hkept := (Rewritten.kept token.span.start tokenChars).applyAll_movedBack
  rw [← hchars.slice_eq] at hkept ⊢
  cases token with
  | text run translated =>
    obtain rfl : translated = false := h
    exact hkept
  | startTag tag =>
    simp only [rewrittenToken, tokenEdits, h]
    exact hkept
  | comment span => exact hkept
  | doctype span => exact hkept
  | endTag span name => exact hkept
  | rawText span => exact hkept

variable (names translate) in
theorem rewritten_tokens (tiled : Tiles position text tokens stop rest)
    (htext : Covers 0 source ⟨position, position + byteLength text⟩ text)
    (hregion : Covers 0 source region chars)
    (htokens : ∀ token ∈ tokens, token ∈ (scan source region).tokens) :
    Rewritten position text (tokens.flatMap (tokenEdits source names translate))
      (Renewal.chars (tokens.map fun token => (token, rewrittenToken source names translate token))
        ++ rest) := by
  induction tiled with
  | nil => exact .kept _ _
  | @cons position stop first text rest token tokens read tail ih =>
    obtain ⟨htoken, hlater⟩ := List.forall_mem_cons.mp htokens
    obtain ⟨hfirst, hrest⟩ := htext.split
    dsimp only at hfirst
    rw [← read.1] at hfirst
    have hrewritten := rewritten_token names translate hregion htoken hfirst
    rw [read.1] at hrewritten
    rw [List.flatMap_cons, List.map_cons, Renewal.chars_cons, List.append_assoc]
    exact hrewritten.append (ih hrest hlater)

variable (names translate) in
theorem renews_tokens (tiled : Tiles position text tokens stop rest)
    (htext : Covers 0 source ⟨position, position + byteLength text⟩ text) :
    Renews position text
      (tokens.map fun token => (token, rewrittenToken source names translate token)) rest := by
  induction tiled with
  | nil => exact .nil _ _
  | @cons position stop first text rest token tokens read tail ih =>
    obtain ⟨hfirst, hrest⟩ := htext.split
    dsimp only at hfirst
    rw [← read.1] at hfirst
    exact .cons read.1 (rewrittenToken_of_not_translated hfirst) (ih hrest)

/-- The sites of all text runs stand in front of those of all tags. Token by token the edits are the
same up to their order. -/
theorem edits_resolveRegion_perm :
    (resolveRegion source region names translate).edits.Perm
      ((scan source region).tokens.flatMap (tokenEdits source names translate)) := by
  rw [edits_resolveRegion, sites, List.flatMap_append, List.flatMap_assoc, List.flatMap_assoc]
  unfold Scan.translatableText Scan.translatableTags
  induction (scan source region).tokens with
  | nil => exact List.Perm.refl _
  | cons token tokens ih =>
    rw [List.flatMap_cons, List.filterMap_cons, List.filterMap_cons]
    cases token with
    | text run translated =>
      cases translated with
      | false => exact ih
      | true =>
        rw [List.flatMap_cons, List.append_assoc]
        exact ih.append_left _
    | startTag tag =>
      by_cases htranslated : isTranslated (.startTag tag) = true
      · have hflag : (tag.translate && !tag.root) = true := htranslated
        have hedits : tokenEdits source names translate (.startTag tag) =
            tagEdits source names translate tag := if_pos htranslated
        simp only [hflag, if_true]
        rw [hedits, List.flatMap_cons]
        refine List.Perm.trans ?_ (ih.append_left _)
        rw [← List.append_assoc, ← List.append_assoc]
        exact List.perm_append_comm.append_right _
      · have hflag : (tag.translate && !tag.root) = false := Bool.eq_false_iff.mpr htranslated
        have hedits : tokenEdits source names translate (.startTag tag) = [] :=
          if_neg htranslated
        simp only [hflag, Bool.false_eq_true, if_false]
        rw [hedits]
        exact ih
    | comment span => exact ih
    | doctype span => exact ih
    | endTag span name => exact ih
    | rawText span => exact ih

theorem unscanned_eq (hregion : Covers 0 source region chars)
    (tiled : Tiles region.start chars tokens (scan source region).stop rest) :
    unscanned source region = rest := by
  have hrest := tiled.covers_rest
  rw [← hregion.stop_eq] at hrest
  exact (hregion.trans hrest).slice_eq

variable (names translate) in
theorem renews_renewalOf (hregion : Covers 0 source region chars) :
    Renews region.start chars (renewalOf source names translate region)
      (unscanned source region) := by
  obtain ⟨rest, tiled⟩ := scan_tiled hregion
  have htext := hregion
  rw [show region = ⟨region.start, region.start + byteLength chars⟩ by
    rw [← hregion.stop_eq]] at htext
  rw [unscanned_eq hregion tiled]
  exact renews_tokens names translate tiled htext

variable (names translate) in
theorem exists_applyAll_resolveRegion (hregion : Covers 0 source region chars) :
    ∃ front back, source = front ++ chars ++ back ∧ byteLength front = region.start ∧
      Edit.applyAll (resolveRegion source region names translate).edits source =
        front ++ ((renewalOf source names translate region).chars ++ unscanned source region) ++
          back := by
  obtain ⟨rest, tiled⟩ := scan_tiled hregion
  have hrest := unscanned_eq hregion tiled
  -- edits that replace something are sorted by their places, so they are the ones token by token
  have hpositive : ∀ edit ∈ (scan source region).tokens.flatMap (tokenEdits source names translate),
      edit.span.start < edit.span.stop := by
    intro edit hedit
    have hmem := edits_resolveRegion_perm.symm.subset hedit
    rw [edits_resolveRegion] at hmem
    obtain ⟨site, hsite, hfound⟩ := List.mem_flatMap.mp hmem
    exact (covers_of_mem_edits_resolve hregion hsite hfound).2
  have htext := hregion
  obtain ⟨front, back, rfl, rfl⟩ := hregion
  refine ⟨front, back, rfl, (Nat.zero_add _).symm, ?_⟩
  have hrewritten := (rewritten_tokens names translate tiled htext htext fun _ hmem => hmem).append
    (.kept _ back)
  rw [List.append_nil] at hrewritten
  have hwhole := hrewritten.behind front
  rw [← List.append_assoc] at hwhole
  rw [hwhole.applyAll_of_perm edits_resolveRegion_perm hpositive, hrest, renewalOf,
    ← List.append_assoc]

end TemplateMessages.Template
