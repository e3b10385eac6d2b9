import TemplateMessages.Proofs.Component.Frame
import TemplateMessages.Proofs.Template.ValidSpans

set_option autoImplicit false

/-!
# The spans of a component are valid

`Computes` names the spans that are computed while a component is transformed: those of its blocks,
of all tags that the search for blocks reads, of its template and of the removals. All of them are
valid, whatever the source is, and the content of a block lies in the block.
-/

namespace TemplateMessages.Component

open TemplateMessages.Markup
open TemplateMessages.Template (Options)
open TemplateMessages.Text
open TemplateMessages.Translation

/-- The search for blocks comes to this block, whether or not it fails later on. -/
def Found (source : List Char) (block : Block) : Prop :=
  ∃ position next text rest, Reached source position text ∧
    blockStep position text = .go (some block) next rest

inductive Searched (source : List Char) : (position : Nat) → (text : List Char) → Prop
  | content {position : Nat} {text rest : List Char} {tag : TagText}
      (reached : Reached source position text) (read : readTag? text = some (tag, rest)) :
      Searched source (position + byteLength tag.chars) rest
  | nested {position limit : Nat} {text front rest : List Char} {tag : TagText}
      (searched : Searched source position text)
      (found : nestedTemplate? limit text = some (front, tag, rest)) :
      Searched source (position + byteLength (front ++ tag.chars)) rest
  | closed {position : Nat} {text before chars rest : List Char}
      (searched : Searched source position text)
      (found : findEndTag? templateName text = some (before, chars, rest)) :
      Searched source (position + byteLength (before ++ chars)) rest

inductive Locates (source : List Char) (options : Options) (translator : Translator) :
    (position : Nat) → Prop
  | unterminated {position : Nat} (failed : blocksFrom 0 source = .error position) :
      Locates source options translator position
  | block {block : Block} (found : Found source block) :
      Locates source options translator block.span.start
  | skipped {layout : Layout} {template : Block} {position : Nat}
      (located : locateBlocks source = .ok layout) (first : layout.template? = some template)
      (skipped : Template.Locates source template.span translator.functions
        (translator.translate (contextOf source options layout)) position) :
      Locates source options translator position

/-- A span of a text that is computed while a component is transformed. -/
inductive Computes (source : List Char) (options : Options) (translator : Translator) :
    (text : List Char) → Span → Prop
  | rest {position : Nat} {text : List Char} (reached : Reached source position text) :
      Computes source options translator source ⟨position, byteLength source⟩
  | block {block : Block} (found : Found source block) :
      Computes source options translator source block.span
  | content {block : Block} (found : Found source block) :
      Computes source options translator source block.content
  | tagAttribute {position : Nat} {text rest : List Char} {tag : TagText} {attr : Attribute}
      {span : Span} (reached : Reached source position text)
      (read : readTag? text = some (tag, rest)) (member : attr ∈ tag.locate position)
      (part : span ∈ attr.spans) : Computes source options translator source span
  | nestedAttribute {position : Nat} {front text rest : List Char} {tag : TagText}
      {attr : Attribute} {span : Span} (searched : Searched source position (front ++ text))
      (read : readTag? text = some (tag, rest))
      (member : attr ∈ tag.locate (position + byteLength front)) (part : span ∈ attr.spans) :
      Computes source options translator source span
  | endTag {position : Nat} {name text before chars rest : List Char}
      (searched : Searched source position text)
      (found : findEndTag? name text = some (before, chars, rest)) :
      Computes source options translator source
        ⟨position + byteLength before, position + byteLength before + byteLength chars⟩
  | removal {block : Block} (found : Found source block) :
      Computes source options translator source (throughLineBreak source block.span)
  | template {layout : Layout} {template : Block} {text : List Char} {span : Span}
      (located : locateBlocks source = .ok layout) (first : layout.template? = some template)
      (computed : Template.Computes source template.span translator.functions
        (translator.translate (contextOf source options layout))
        (removals source options layout (Template.resolveRegion source template.span
          translator.functions (translator.translate (contextOf source options layout))).recognized)
        text span) : Computes source options translator text span
  | column {position : Nat} (located : Locates source options translator position) :
      Computes source options translator source ((LineIndex.ofText source).columnSpan position)
  | line {line : Nat} {span : Span}
      (found : (LineIndex.ofText source).lineSpan? (byteLength source) line = some span) :
      Computes source options translator source span

variable {source : List Char} {options : Options} {translator : Translator} {block : Block}

theorem readTag?_of_blockStep {position next : Nat} {text rest : List Char}
    (h : blockStep position text = .go (some block) next rest) :
    ∃ tag after, readTag? text = some (tag, after) ∧
      tagStep position tag after = .go (some block) next rest := by
  cases text with
  | nil => cases h
  | cons c cs =>
    cases htag : readTag? (c :: cs) with
    | none =>
      simp only [blockStep, htag] at h
      split at h <;> cases h
    | some found =>
      rw [blockStep_of_readTag? position htag] at h
      exact ⟨found.1, found.2, rfl, h⟩

theorem content_of_tagStep {position next : Nat} {tag : TagText} {after rest : List Char}
    (h : tagStep position tag after = .go (some block) next rest) :
    (∃ inside, Covers (position + byteLength tag.chars) after block.content inside) ∧
      block.content.stop ≤ next := by
  unfold tagStep at h
  cases hclose : tag.close with
  | missing =>
    simp only [hclose] at h
    split at h <;> cases h
  | selfClosing =>
    simp only [hclose] at h
    cases h
    exact ⟨⟨[], Covers.head _ [] after⟩, Nat.le_refl _⟩
  | plain =>
    simp only [hclose] at h
    cases hend : blockClose? tag.name after with
    | none =>
      simp only [hend] at h
      split at h
      · cases h
      · cases h
        exact ⟨⟨after, Covers.whole _ after⟩, Nat.le_refl _⟩
    | some parts =>
      obtain ⟨before, chars, last⟩ := parts
      simp only [hend] at h
      cases h
      refine ⟨⟨before, ?_⟩, Nat.le_add_right _ _⟩
      rw [← append_of_blockClose? hend, List.append_assoc]
      exact Covers.head _ before (chars ++ rest)

theorem Found.covers (h : Found source block) : ∃ chars inside,
    Covers 0 source block.span chars ∧ Covers block.span.start chars block.content inside := by
  obtain ⟨position, next, text, rest, hreached, hstep⟩ := h
  obtain ⟨front, hfront, _, hnext, hspan⟩ := append_of_blockStep hstep
  obtain ⟨tag, after, htag, htagStep⟩ := readTag?_of_blockStep hstep
  obtain ⟨⟨inside, hinside⟩, hstop⟩ := content_of_tagStep htagStep
  have hblock : Covers position text block.span front := by
    rw [hspan block rfl, hnext, ← hfront]
    exact Covers.head position front rest
  have hcontent : Covers position text block.content inside := by
    rw [← append_of_readTag? htag]
    exact hinside.behind
  have hwithin : block.content.Within block.span := by
    rw [hspan block rfl]
    exact ⟨hcontent.within.1, hstop⟩
  exact ⟨front, inside, hreached.covers.trans hblock, hblock.inside hcontent hwithin⟩

theorem found_of_mem_layout {layout : Layout} (h : locateBlocks source = .ok layout)
    (hmem : block ∈ layout.blocks) : Found source block := by
  refine blocksFrom_induction (motive := fun position text blocks =>
    Reached source position text → ∀ block ∈ blocks, Found source block) ?_ ?_
      (locateBlocks_eq_ok_iff.mp h) .start block hmem
  · intro position text _ block hmem
    cases hmem
  · intro position front found rest later _ hstep _ ih hreached block hmem
    rcases List.mem_append.mp hmem with hhere | hthere
    · obtain rfl := Option.mem_toList.mp hhere
      exact ⟨position, _, _, rest, hreached, hstep⟩
    · exact ih (hreached.step hstep) block hthere

theorem Found.removal_valid (h : Found source block) :
    (throughLineBreak source block.span).Valid source := by
  obtain ⟨chars, _, hblock, _⟩ := h.covers
  obtain ⟨_, _, hbreak⟩ := covers_throughLineBreak hblock
  exact hbreak.valid

theorem Reached.of_error {position stop : Nat} {text : List Char}
    (h : Reached source position text) (herror : blocksFrom position text = .error stop) :
    ∃ rest, Reached source stop rest ∧ blockStep stop rest = .fail := by
  induction hlength : text.length using Nat.strongRecOn generalizing position text with
  | ind length ih =>
    rw [blocksFrom_eq] at herror
    split at herror
    · cases herror
    · rename_i hstep
      obtain rfl := Except.error.inj herror
      exact ⟨text, h, hstep⟩
    · rename_i found next rest hstep
      obtain ⟨front, rfl, hne, rfl, _⟩ := append_of_blockStep hstep
      have hshorter : rest.length < length := by
        have := List.length_pos_iff.mpr hne
        rw [← hlength, List.length_append]
        omega
      exact ih rest.length hshorter (h.step hstep) (error_of_map_append herror) rfl

theorem Searched.covers {position : Nat} {text : List Char} (h : Searched source position text) :
    Covers 0 source ⟨position, byteLength source⟩ text := by
  induction h with
  | content reached read =>
    have hplace := reached.covers
    rw [← append_of_readTag? read] at hplace
    exact hplace.tail
  | nested _ found ih =>
    rw [← append_of_nestedTemplate? found] at ih
    exact ih.tail
  | closed _ found ih =>
    rw [← (append_of_findEndTag? found).1] at ih
    exact ih.tail

theorem removals_valid {layout : Layout} (h : locateBlocks source = .ok layout) {recognized : Nat} :
    ∀ edit ∈ removals source options layout recognized, edit.span.Valid source := by
  intro edit hedit
  obtain ⟨_, _, block, hmem, _, rfl⟩ := mem_removals hedit
  exact (found_of_mem_layout h hmem).removal_valid

theorem Locates.isBoundary {position : Nat} (h : Locates source options translator position) :
    IsBoundary source position := by
  cases h with
  | unterminated failed =>
    obtain ⟨rest, hreached, -⟩ := Reached.start.of_error failed
    exact hreached.covers.valid.start
  | block found =>
    obtain ⟨_, _, hblock, _⟩ := found.covers
    exact hblock.valid.start
  | skipped located first skipped =>
    obtain ⟨_, hregion⟩ := covers_template located first
    exact skipped.isBoundary hregion

theorem Computes.valid {text : List Char} {span : Span}
    (h : Computes source options translator text span) : span.Valid text := by
  cases h with
  | rest reached => exact reached.covers.valid
  | block found =>
    obtain ⟨_, _, hblock, _⟩ := found.covers
    exact hblock.valid
  | content found =>
    obtain ⟨_, _, hblock, hcontent⟩ := found.covers
    exact (hblock.trans hcontent).valid
  | tagAttribute reached read member part =>
    obtain ⟨_, hinside⟩ := covers_of_readTag? read member part
    exact (reached.covers.trans hinside).valid
  | nestedAttribute searched read member part =>
    obtain ⟨_, hinside⟩ := covers_of_readTag? read member part
    exact (searched.covers.tail.trans hinside).valid
  | endTag searched found =>
    have hplace := searched.covers
    rw [← (append_of_findEndTag? found).1, List.append_assoc] at hplace
    exact hplace.tail.split.1.valid
  | removal found => exact found.removal_valid
  | template located first computed =>
    obtain ⟨_, hregion⟩ := covers_template located first
    exact computed.valid hregion (removals_valid located)
  | column located => exact LineIndex.columnSpan_valid located.isBoundary
  | line found => exact LineIndex.lineSpan_valid found

/-- Every span of a component, and of markup on its own, is valid for its text and covers its slice,
every position that is located is a boundary, and the content of a block lies in the block. -/
theorem spans_valid (source : List Char) (options : Options) (translator : Translator) :
    (∀ text span, Computes source options translator text span →
      span.Valid text ∧ Covers 0 text span (span.slice text)) ∧
      (∀ position, Locates source options translator position → IsBoundary source position) ∧
      (∀ block, Found source block → block.content.Within block.span) ∧
      (∀ text span, Template.Computes source ⟨0, byteLength source⟩ translator.functions
        (translator.translate ⟨options.locale, options.fallback, []⟩) [] text span →
        span.Valid text ∧ Covers 0 text span (span.slice text)) ∧
      (∀ position, Template.Locates source ⟨0, byteLength source⟩ translator.functions
        (translator.translate ⟨options.locale, options.fallback, []⟩) position →
        IsBoundary source position) := by
  have hwhole : Covers 0 source ⟨0, byteLength source⟩ source := by
    simpa using Covers.whole 0 source
  refine ⟨fun _ _ hspan => ⟨hspan.valid, hspan.valid.covers_slice⟩,
    fun _ hposition => hposition.isBoundary, ?_, ?_, ?_⟩
  · intro block hfound
    obtain ⟨_, _, hblock, hcontent⟩ := hfound.covers
    exact hblock.within_of_covers hcontent
  · intro text span hspan
    have hvalid := hspan.valid hwhole fun _ hedit => absurd hedit List.not_mem_nil
    exact ⟨hvalid, hvalid.covers_slice⟩
  · intro position hposition
    exact hposition.isBoundary hwhole

def accented : List Char :=
  "<template title=\"é\">ü\x7b\x7b t('a') \x7d\x7d</template>".toList

theorem spans_valid_accented :
    (⟨17, 19⟩ : Span).Valid accented ∧ ¬IsBoundary accented 18 ∧
      (⟨26, 32⟩ : Span).Valid accented := by
  have hvalid := (spans_valid accented ⟨"en", "", "i18n", true, .skip, "a.vue"⟩
    ⟨.catalog [("en", [("a", "x")])], [("t", .translate)]⟩).1
  refine ⟨?_, by decide, ?_⟩
  · have hread : readTag? accented = some (⟨"template".toList,
        [⟨[' '], "title".toList, some ⟨['='], some .double, ['é']⟩, false⟩], .plain, ['>']⟩,
        "ü\x7b\x7b t('a') \x7d\x7d</template>".toList) := by
      decide +kernel
    exact (hvalid _ _ (.tagAttribute .start hread List.mem_cons_self (by decide))).1
  · have hspan : (locateBlocks accented).toOption.map (fun layout =>
        layout.template?.map Block.span) = some (some ⟨0, 46⟩) := by
      decide +kernel
    have hcall : ⟨⟨26, 32⟩, "t('a')", "t", .translate, .text, true⟩ ∈
        Template.callsOf accented ⟨0, 46⟩ [("t", .translate)] := by
      decide +kernel
    cases hlayout : locateBlocks accented with
    | error location =>
      rw [hlayout] at hspan
      cases hspan
    | ok layout =>
      rw [hlayout] at hspan
      obtain ⟨template, hfirst, hregion⟩ := Option.map_eq_some_iff.mp (Option.some.inj hspan)
      rw [← hregion] at hcall
      exact (hvalid _ _ (.template hlayout hfirst (.candidate hcall))).1

end TemplateMessages.Component
