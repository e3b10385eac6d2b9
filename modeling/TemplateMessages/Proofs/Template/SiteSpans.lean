import TemplateMessages.Proofs.Template.Replaceable

set_option autoImplicit false

/-!
# The sites of a template are apart

No two sites of a template share a character, and the calls of a site stand in its expression.
-/

namespace TemplateMessages.Template

open TemplateMessages.Call (Candidate FunctionNames)
open TemplateMessages.Markup
open TemplateMessages.Text

variable {source chars : List Char} {region : Span} {names : FunctionNames} {site : Site}

/-- The site stands in a translated token, and its expression in the site. -/
structure Site.Placed (source : List Char) (scanned : Scan) (site : Site) : Prop where
  token : ∃ token ∈ scanned.tokens, isTranslated token = true ∧ site.whole.Within token.span
  covers : ∃ whole inner, Covers 0 source site.whole whole ∧
    Covers site.whole.start whole site.inner inner

theorem placed_of_mem_textSites (hregion : Covers 0 source region chars) {text : Span}
    (htext : text ∈ (scan source region).translatableText) (h : site ∈ textSites source text) :
    site.Placed source (scan source region) ∧ site.whole.Within text := by
  obtain ⟨rest, tiled⟩ := scan_tiled hregion
  have htoken := mem_translatableText.mp htext
  obtain ⟨expression, hexpression, rfl⟩ := List.mem_map.mp h
  obtain ⟨textChars, htextChars, _⟩ := tiled.covers htoken
  have hsource : Covers 0 source text textChars := hregion.trans htextChars
  rw [hsource.slice_eq] at hexpression
  obtain ⟨inner, houter, hinner⟩ := covers_of_mem_interpolationsFrom hexpression
  have hwithin := hsource.within_of_covers houter
  exact ⟨⟨⟨_, htoken, rfl, hwithin⟩, _, inner, hsource.trans houter, hinner⟩, hwithin⟩

theorem placed_of_mem_tagSites (hregion : Covers 0 source region chars) {tag : StartTag}
    (htag : tag ∈ (scan source region).translatableTags) (h : site ∈ tagSites tag) :
    site.Placed source (scan source region) ∧ site.whole.Within tag.span := by
  obtain ⟨rest, tiled⟩ := scan_tiled hregion
  obtain ⟨htoken, htranslated⟩ := mem_translatableTags.mp htag
  obtain ⟨attr, hattr, hsome⟩ := List.mem_filterMap.mp h
  split at hsome
  · rename_i binding value hbinding hvalue
    obtain rfl := Option.some.inj hsome
    obtain ⟨tagChars, body, htagChars, hbody, hvalues⟩ := tiled.covers_attribute htoken hattr
    obtain ⟨valueChars, hvalueChars⟩ := hvalues value hvalue
    have hwithin := tiled.attribute_within htoken hattr
    exact ⟨⟨⟨_, htoken, htranslated, hwithin⟩, body, valueChars,
      (hregion.trans htagChars).trans hbody, hvalueChars⟩, hwithin⟩
  · cases hsome

theorem placed_of_mem_sites (hregion : Covers 0 source region chars)
    (h : site ∈ sites source region) : site.Placed source (scan source region) := by
  rcases List.mem_append.mp h with htext | htag
  · obtain ⟨text, hmem, hfound⟩ := List.mem_flatMap.mp htext
    exact (placed_of_mem_textSites hregion hmem hfound).1
  · obtain ⟨tag, hmem, hfound⟩ := List.mem_flatMap.mp htag
    exact (placed_of_mem_tagSites hregion hmem hfound).1

namespace Site.Placed

/-- A call of a site covers its content, and stands in the site. -/
theorem covers_call (h : site.Placed source (scan source region)) {call : Candidate}
    (hcall : call ∈ Call.candidates names (site.inner.slice source) site.inner.start site.place) :
    Covers 0 source call.span call.content.toList ∧ call.span.Within site.whole := by
  obtain ⟨whole, inner, hwhole, hinner⟩ := h.covers
  have hexpression := hwhole.trans hinner
  rw [hexpression.slice_eq] at hcall
  have hcontent := Call.covers_of_mem_candidates hcall
  exact ⟨hexpression.trans hcontent,
    (hexpression.within_of_covers hcontent).trans (hwhole.within_of_covers hinner)⟩

theorem within_region (h : site.Placed source (scan source region))
    (hregion : Covers 0 source region chars) : site.whole.Within region := by
  obtain ⟨rest, tiled⟩ := scan_tiled hregion
  obtain ⟨token, hmem, _, hwithin⟩ := h.token
  obtain ⟨tokenChars, htoken, _⟩ := tiled.covers hmem
  exact hwithin.trans (hregion.within_of_covers htoken)

end Site.Placed

theorem ascending_filterMap {α β : Type} {items : List α} {f : α → Option β} {span : α → Span}
    (place : β → Span) (h : items.Pairwise fun a b => (span a).stop ≤ (span b).start)
    (hf : ∀ item found, f item = some found → span item = place found) :
    (items.filterMap f).Pairwise fun a b => (place a).stop ≤ (place b).start := by
  refine h.filterMap _ ?_
  intro first second hle a ha b hb
  rwa [← hf first a ha, ← hf second b hb]

theorem textSites_apart (text : Span) :
    (textSites source text).Pairwise fun a b => a.whole.Apart b.whole := by
  unfold textSites
  rw [List.pairwise_map]
  exact (interpolationsFrom_ascending _ _).imp fun hle => Or.inl hle

theorem tagSites_ascending (hregion : Covers 0 source region chars) {tag : StartTag}
    (htag : tag ∈ (scan source region).translatableTags) :
    (tagSites tag).Pairwise fun a b => a.whole.stop ≤ b.whole.start := by
  obtain ⟨rest, tiled⟩ := scan_tiled hregion
  refine ascending_filterMap Site.whole
    (tiled.attributes_ascending (mem_translatableTags.mp htag).1) ?_
  intro attr site hsite
  split at hsite
  · rw [← Option.some.inj hsite]
    rfl
  · cases hsite

theorem tagSites_apart (hregion : Covers 0 source region chars) {tag : StartTag}
    (htag : tag ∈ (scan source region).translatableTags) :
    (tagSites tag).Pairwise fun a b => a.whole.Apart b.whole :=
  (tagSites_ascending hregion htag).imp fun hle => Or.inl hle

theorem translatableText_ascending (hregion : Covers 0 source region chars) :
    (scan source region).translatableText.Pairwise fun a b => a.stop ≤ b.start := by
  obtain ⟨rest, tiled⟩ := scan_tiled hregion
  refine ascending_filterMap id tiled.ascending ?_
  intro token text htoken
  split at htoken
  · exact Option.some.inj htoken
  · cases htoken

theorem translatableTags_ascending (hregion : Covers 0 source region chars) :
    (scan source region).translatableTags.Pairwise fun a b => a.span.stop ≤ b.span.start := by
  obtain ⟨rest, tiled⟩ := scan_tiled hregion
  refine ascending_filterMap StartTag.span tiled.ascending ?_
  intro token tag htoken
  split at htoken
  · split at htoken
    · rw [← Option.some.inj htoken]
      rfl
    · cases htoken
  · cases htoken

theorem sites_apart (hregion : Covers 0 source region chars) :
    (sites source region).Pairwise fun a b => a.whole.Apart b.whole := by
  obtain ⟨rest, tiled⟩ := scan_tiled hregion
  refine List.pairwise_append.mpr ⟨?_, ?_, ?_⟩
  · refine List.pairwise_flatMap.mpr ⟨fun text _ => textSites_apart text, ?_⟩
    refine (translatableText_ascending hregion).imp_of_mem ?_
    intro first second hfirst hsecond hle a ha b hb
    have hwithin := (placed_of_mem_textSites hregion hfirst ha).2
    have hwithin' := (placed_of_mem_textSites hregion hsecond hb).2
    exact Span.Apart.of_within (Or.inl hle) hwithin hwithin'
  · refine List.pairwise_flatMap.mpr ⟨fun tag htag => tagSites_apart hregion htag, ?_⟩
    refine (translatableTags_ascending hregion).imp_of_mem ?_
    intro first second hfirst hsecond hle a ha b hb
    have hwithin := (placed_of_mem_tagSites hregion hfirst ha).2
    have hwithin' := (placed_of_mem_tagSites hregion hsecond hb).2
    exact Span.Apart.of_within (Or.inl hle) hwithin hwithin'
  · intro a ha b hb
    obtain ⟨text, htext, hfirst⟩ := List.mem_flatMap.mp ha
    obtain ⟨tag, htag, hsecond⟩ := List.mem_flatMap.mp hb
    have hapart := tiled.apart (mem_translatableText.mp htext) (mem_translatableTags.mp htag).1
      (by simp)
    exact Span.Apart.of_within hapart (placed_of_mem_textSites hregion htext hfirst).2
      (placed_of_mem_tagSites hregion htag hsecond).2

end TemplateMessages.Template
