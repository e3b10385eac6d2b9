import TemplateMessages.Proofs.Markup.References
import TemplateMessages.Proofs.Template.Extent
import TemplateMessages.Proofs.Template.Renewal

set_option autoImplicit false

/-!
# Constant texts in a template

An expression that is constant becomes text of the template, with its quotes escaped and all else as
it is in the message. The text is plain, and is read back as the message, just when the message has
no expression and no reference of its own and nothing that is written disturbs the scan.
-/

namespace TemplateMessages.Template

open TemplateMessages.Call (Candidate FunctionNames)
open TemplateMessages.Markup
open TemplateMessages.Text
open TemplateMessages.Translation

section
variable {text front rest : List Char} {position : Nat}

theorem prefix_pair_iff {c d : Char} : [d, d] <+: c :: text ↔ d = c ∧ text.head? = some d := by
  rw [List.cons_prefix_cons, List.head?_eq_some_iff]
  refine and_congr_right fun _ => ⟨?_, ?_⟩
  · rintro ⟨tail, rfl⟩
    exact ⟨tail, rfl⟩
  · rintro ⟨tail, rfl⟩
    exact ⟨tail, rfl⟩

theorem contains_pair_append {d : Char} (h : d ∉ front) :
    contains [d, d] (front ++ rest) = contains [d, d] rest := by
  induction front with
  | nil => rfl
  | cons c front ih =>
    rw [List.mem_cons, not_or] at h
    rw [← ih h.2, List.cons_append, Bool.eq_iff_iff, contains_cons, prefix_pair_iff]
    exact or_iff_right fun hpair => h.1 hpair.1

theorem brace_notMem_escapeQuoteChar {c brace : Char} (hquote : c = '\x22' ∨ c = '\x27')
    (hbrace : brace = '{' ∨ brace = '}') : brace ∉ escapeQuoteChar c := by
  rcases hquote with rfl | rfl <;> rcases hbrace with rfl | rfl <;> decide

@[simp] theorem contains_closing_escape (text : List Char) :
    contains ['}', '}'] (text.flatMap escapeQuoteChar) = contains ['}', '}'] text := by
  induction text with
  | nil => rfl
  | cons c cs ih =>
    rw [List.flatMap_cons]
    rcases escapeQuoteChar_cases c with ⟨hself, -, -⟩ | ⟨hquote, -⟩
    · rw [hself, List.singleton_append, Bool.eq_iff_iff, contains_cons, contains_cons, ih,
        prefix_pair_iff, prefix_pair_iff, head?_escape rfl (by decide)]
    · rw [contains_pair_append (brace_notMem_escapeQuoteChar hquote (.inr rfl)), ih]
      have hc : '}' ∉ [c] := by
        rcases hquote with rfl | rfl <;> decide
      have hskip : contains ['}', '}'] ([c] ++ cs) = contains ['}', '}'] cs :=
        contains_pair_append hc
      exact hskip.symm

theorem isSome_readInterpolation?_iff :
    (readInterpolation? text).isSome = true ↔
      ∃ c cs, text = '{' :: '{' :: c :: cs ∧ contains ['}', '}'] cs = true := by
  constructor
  · intro h
    unfold readInterpolation? at h
    split at h
    · rename_i c cs
      exact ⟨c, cs, rfl, by rwa [Option.isSome_map] at h⟩
    · cases h
  · rintro ⟨c, cs, rfl, h⟩
    rwa [readInterpolation?, Option.isSome_map]

theorem exists_escape_cons (c : Char) (cs : List Char) :
    ∃ d ds, (c :: cs).flatMap escapeQuoteChar = d :: ds ∧
      contains ['}', '}'] ds = contains ['}', '}'] cs := by
  rw [List.flatMap_cons]
  rcases escapeQuoteChar_cases c with ⟨hself, -, -⟩ | ⟨hquote, more, hstart⟩
  · exact ⟨c, _, by rw [hself, List.singleton_append], contains_closing_escape cs⟩
  · refine ⟨'&', more ++ cs.flatMap escapeQuoteChar, by rw [hstart, List.cons_append], ?_⟩
    have hbrace := brace_notMem_escapeQuoteChar hquote (.inr rfl)
    rw [hstart, List.mem_cons, not_or] at hbrace
    simp [contains_pair_append hbrace.2]

@[simp] theorem readInterpolation?_escape (text : List Char) :
    (readInterpolation? (text.flatMap escapeQuoteChar)).isSome = (readInterpolation? text).isSome := by
  have hopen {rest : List Char} (h : rest.head? = some '{') :
      ∃ tail, rest = '{' :: tail ∧
        rest.flatMap escapeQuoteChar = '{' :: tail.flatMap escapeQuoteChar := by
    obtain ⟨tail, rfl⟩ := List.head?_eq_some_iff.mp h
    exact ⟨tail, rfl, rfl⟩
  rw [Bool.eq_iff_iff, isSome_readInterpolation?_iff, isSome_readInterpolation?_iff]
  constructor
  · rintro ⟨c, cs, hchars, hclose⟩
    have hfirst : text.head? = some '{' := (head?_escape rfl (by decide) text).mp (by rw [hchars]; rfl)
    obtain ⟨tail, rfl, htail⟩ := hopen hfirst
    rw [htail, List.cons.injEq] at hchars
    have hsecond : tail.head? = some '{' :=
      (head?_escape rfl (by decide) tail).mp (by rw [hchars.2]; rfl)
    obtain ⟨last, rfl, hlast⟩ := hopen hsecond
    rw [hlast, List.cons.injEq] at hchars
    cases last with
    | nil => cases hchars.2.2
    | cons d ds =>
      obtain ⟨e, es, hescape, hcontains⟩ := exists_escape_cons d ds
      rw [hescape, List.cons.injEq] at hchars
      rw [← hchars.2.2.2, hcontains] at hclose
      exact ⟨d, ds, rfl, hclose⟩
  · rintro ⟨c, cs, rfl, hclose⟩
    obtain ⟨d, ds, hescape, hcontains⟩ := exists_escape_cons c cs
    exact ⟨d, ds, congrArg (fun tail => '{' :: '{' :: tail) hescape, by rw [hcontains, hclose]⟩

theorem interpolationsFrom_eq_nil_iff (text : List Char) (position position' : Nat) :
    interpolationsFrom position text = [] ↔ interpolationsFrom position' text = [] := by
  rw [interpolationsFrom_eq, interpolationsFrom_eq, List.map_eq_nil_iff, List.map_eq_nil_iff,
    located_eq_nil_iff position position']

theorem interpolationsFrom_cons_eq_nil_iff {c : Char} {cs : List Char} :
    interpolationsFrom position (c :: cs) = [] ↔
      (readInterpolation? (c :: cs)).isSome = false ∧ interpolationsFrom position cs = [] := by
  rw [interpolationsFrom_eq_nil_iff cs position (position + c.utf8Size),
    interpolationsFrom]
  split
  · rename_i hread
    simp [hread]
  · rename_i hread
    simp [hread]

theorem interpolationsFrom_append_eq_nil_iff (h : '{' ∉ front) :
    interpolationsFrom position (front ++ rest) = [] ↔ interpolationsFrom position rest = [] := by
  induction front with
  | nil => exact Iff.rfl
  | cons c front ih =>
    rw [List.mem_cons, not_or] at h
    have hnone : readInterpolation? (c :: (front ++ rest)) = none :=
      readInterpolation?_eq_none fun hopens => h.1 (prefix_pair_iff.mp hopens).1
    rw [List.cons_append, interpolationsFrom_cons_eq_nil_iff, hnone, ih h.2]
    exact and_iff_right rfl

theorem interpolationsFrom_escape_eq_nil_iff (text : List Char) :
    interpolationsFrom position (text.flatMap escapeQuoteChar) = [] ↔
      interpolationsFrom position text = [] := by
  induction text with
  | nil => exact Iff.rfl
  | cons c cs ih =>
    have hread := readInterpolation?_escape (c :: cs)
    rw [List.flatMap_cons] at hread ⊢
    rcases escapeQuoteChar_cases c with ⟨hself, -, -⟩ | ⟨hquote, -⟩
    · rw [hself, List.singleton_append] at hread ⊢
      rw [interpolationsFrom_cons_eq_nil_iff, interpolationsFrom_cons_eq_nil_iff, hread, ih]
    · have hc : '{' ∉ [c] := by
        rcases hquote with rfl | rfl <;> decide
      rw [interpolationsFrom_append_eq_nil_iff (brace_notMem_escapeQuoteChar hquote (.inl rfl)), ih]
      have hskip : interpolationsFrom position ([c] ++ cs) = [] ↔ interpolationsFrom position cs = [] :=
        interpolationsFrom_append_eq_nil_iff hc
      exact hskip.symm

end

section
variable (source : List Char) (names : FunctionNames)
  (translate : Candidate → Except TranslationError Replacement)

/-- The constant texts of the parts at `position` of the source, each with its place when the parts
are written from `place` on. -/
def partTexts (position place : Nat) : List Part → List (String × Span)
  | [] => []
  | part :: parts =>
    let written := (part.rewritten source names translate position).chars
    let next := place + byteLength written
    let later := partTexts (position + byteLength part.chars) next parts
    match part with
    | .text _ => later
    | .expression inner =>
      match collapsed? source names translate (expressionSite position inner) with
      | some text => (text, ⟨place, next⟩) :: later
      | none => later

/-- The constant texts of a region, each with its place when the tokens are written from `place`
on. -/
def splicedTexts (place : Nat) : Renewal → List (String × Span)
  | [] => []
  | (token, written) :: renewal =>
    let later := splicedTexts (place + byteLength written) renewal
    match token with
    | .text run true =>
      partTexts source names translate run.start place (partsOf (run.slice source)) ++ later
    | _ => later

/-- The source with the edits of a region carried out. -/
def transformed (region : Span) : List Char :=
  Edit.applyAll (resolveRegion source region names translate).edits source

def rescan (region : Span) : Scan :=
  let written := (renewalOf source names translate region).chars ++ unscanned source region
  scan (transformed source names translate region)
    ⟨region.start, region.start + byteLength written⟩

/-- The expressions of a region that became text are plain text of the result. -/
structure Inert (table : ReferenceTable) (region : Span) : Prop where
  rescanned : marksOf (rescan source names translate region) =
    (renewalOf source names translate region).marks region.start
  inText : ∀ spliced ∈ splicedTexts source names translate region.start
      (renewalOf source names translate region), spliced.1 ≠ "" →
    ∃ run, (Mark.text, run) ∈ marksOf (rescan source names translate region) ∧
      spliced.2.Within run
  uninterpolated : ∀ spliced ∈ splicedTexts source names translate region.start
      (renewalOf source names translate region),
    interpolationsFrom 0 (spliced.2.slice (transformed source names translate region)) = []
  decoded : ∀ spliced ∈ splicedTexts source names translate region.start
      (renewalOf source names translate region),
    table.decode (spliced.2.slice (transformed source names translate region)) =
      spliced.1.toList

end

variable {source chars : List Char} {region : Span} {names : FunctionNames}
  {translate : Candidate → Except TranslationError Replacement} {table : ReferenceTable}
  {position place : Nat} {parts : List Part}

theorem map_partTexts :
    (partTexts source names translate position place parts).map (·.1) =
      (located position parts).filterMap fun found =>
        collapsed? source names translate (.interpolation found.1) := by
  induction parts generalizing position place with
  | nil => rfl
  | cons part parts ih =>
    cases part with
    | text chars => exact ih
    | expression inner =>
      have hnext : position + byteLength (Part.expression inner).chars =
          position + 2 + byteLength inner + 2 := by
        simp
        omega
      rw [partTexts, located, List.filterMap_cons]
      dsimp only
      rw [hnext]
      cases hcollapsed : collapsed? source names translate (expressionSite position inner) with
      | some text =>
        rw [expressionSite] at hcollapsed
        dsimp only at hcollapsed ⊢
        rw [hcollapsed]
        exact congrArg _ ih
      | none =>
        rw [expressionSite] at hcollapsed
        dsimp only at hcollapsed ⊢
        rw [hcollapsed]
        exact ih

theorem covers_of_mem_partTexts {spliced : String × Span}
    (h : spliced ∈ partTexts source names translate position place parts) :
    Covers place (partChars (rewrittenParts source names translate position parts)) spliced.2
      (escapeQuotes spliced.1).toList := by
  induction parts generalizing position place with
  | nil => cases h
  | cons part parts ih =>
    rw [rewrittenParts, partChars_cons]
    cases part with
    | text chars => exact (ih h).behind
    | expression inner =>
      rw [partTexts] at h
      split at h
      · rename_i text hcollapsed
        rcases List.mem_cons.mp h with rfl | hlater
        · have hwritten : ((Part.expression inner).rewritten source names translate position).chars =
              (escapeQuotes text).toList := by
            rw [Part.rewritten, hcollapsed]
            rfl
          rw [hwritten]
          exact Covers.head _ _ _
        · exact (ih hlater).behind
      · exact (ih h).behind

theorem map_splicedTexts :
    (splicedTexts source names translate place (renewalOf source names translate region)).map
        (·.1) =
      ((scan source region).translatableText.flatMap (textSites source)).filterMap
        (collapsed? source names translate) := by
  unfold renewalOf Scan.translatableText
  induction (scan source region).tokens generalizing place with
  | nil => rfl
  | cons token tokens ih =>
    rw [List.map_cons, List.filterMap_cons]
    cases token with
    | text run translated =>
      cases translated with
      | false => exact ih
      | true =>
        rw [splicedTexts, List.map_append, List.flatMap_cons, List.filterMap_append, ih,
          map_partTexts, textSites, interpolationsFrom_eq, List.map_map, List.filterMap_map]
        rfl
    | startTag tag => exact ih
    | comment span => exact ih
    | doctype span => exact ih
    | endTag span name => exact ih
    | rawText span => exact ih

theorem exists_run_of_mem_splicedTexts {renewal : Renewal} {spliced : String × Span}
    (hwritten : ∀ entry ∈ renewal, entry.2 = rewrittenToken source names translate entry.1)
    (h : spliced ∈ splicedTexts source names translate place renewal) :
    ∃ before run written behind, renewal = before ++ (.text run true, written) :: behind ∧
      Covers (place + byteLength (Renewal.chars before)) written spliced.2
        (escapeQuotes spliced.1).toList := by
  induction renewal generalizing place with
  | nil => cases h
  | cons entry renewal ih =>
    obtain ⟨token, written⟩ := entry
    obtain ⟨hfirst, hrest⟩ := List.forall_mem_cons.mp hwritten
    have hlater : spliced ∈ splicedTexts source names translate (place + byteLength written)
        renewal → ∃ before run more behind,
          (token, written) :: renewal = before ++ (.text run true, more) :: behind ∧
          Covers (place + byteLength (Renewal.chars before)) more spliced.2
            (escapeQuotes spliced.1).toList := by
      intro hmem
      obtain ⟨before, run, more, behind, rfl, hcovers⟩ := ih hrest hmem
      refine ⟨(token, written) :: before, run, more, behind, rfl, ?_⟩
      rwa [Renewal.chars_cons, add_byteLength_append]
    cases token with
    | text run translated =>
      cases translated with
      | false => exact hlater h
      | true =>
        rcases List.mem_append.mp h with hpart | hmem
        · refine ⟨[], run, written, renewal, rfl, ?_⟩
          dsimp only at hfirst
          rw [hfirst]
          exact covers_of_mem_partTexts hpart
        · exact hlater hmem
    | startTag tag => exact hlater h
    | comment span => exact hlater h
    | doctype span => exact hlater h
    | endTag span name => exact hlater h
    | rawText span => exact hlater h

theorem mem_marks (place : Nat) (before behind : Renewal) (run : Span) {written : List Char}
    (hne : written ≠ []) :
    (Mark.text, ⟨place + byteLength (Renewal.chars before),
        place + byteLength (Renewal.chars before) + byteLength written⟩) ∈
      Renewal.marks place (before ++ (.text run true, written) :: behind) := by
  induction before generalizing place with
  | nil =>
    rw [List.nil_append, Renewal.marks, if_neg fun hboth => hne hboth.2]
    exact List.mem_cons_self
  | cons entry before ih =>
    obtain ⟨token, chars⟩ := entry
    have hlater := ih (place + byteLength chars)
    rw [List.cons_append, Renewal.marks, Renewal.chars_cons, add_byteLength_append]
    split
    · rename_i hnone
      obtain ⟨-, rfl⟩ := hnone
      exact hlater
    · exact List.mem_cons_of_mem _ hlater

theorem written_of_mem_renewalOf {entry : Token × List Char}
    (h : entry ∈ renewalOf source names translate region) :
    entry.2 = rewrittenToken source names translate entry.1 := by
  obtain ⟨token, _, rfl⟩ := List.mem_map.mp h
  rfl

@[simp] theorem escapeQuotes_eq_nil_iff {text : String} :
    (escapeQuotes text).toList = [] ↔ text = "" := by
  rw [toList_escapeQuotes, List.flatMap_eq_nil_iff, ← String.toList_eq_nil_iff]
  refine ⟨fun h => List.eq_nil_iff_forall_not_mem.mpr fun c hc => ?_, fun h => ?_⟩
  · exact escapeQuoteChar_ne_nil c (h c hc)
  · rw [h]
    exact fun c hc => nomatch hc

theorem covers_of_mem_splicedTexts (hregion : Covers 0 source region chars)
    {spliced : String × Span}
    (h : spliced ∈ splicedTexts source names translate region.start
      (renewalOf source names translate region)) :
    Covers 0 (transformed source names translate region) spliced.2
      (escapeQuotes spliced.1).toList := by
  obtain ⟨front, back, _, hstart, heq⟩ :=
    exists_applyAll_resolveRegion names translate hregion
  obtain ⟨before, run, written, behind, hrenewal, hcovers⟩ :=
    exists_run_of_mem_splicedTexts (fun _ => written_of_mem_renewalOf) h
  have hchars : (renewalOf source names translate region).chars =
      before.chars ++ (written ++ Renewal.chars behind) := by
    rw [hrenewal, Renewal.chars, List.flatMap_append, List.flatMap_cons]
    rfl
  have hplace : Covers (0 + byteLength front) (before.chars ++ (written ++ Renewal.chars behind))
      spliced.2 (escapeQuotes spliced.1).toList := by
    rw [Nat.zero_add, hstart]
    exact hcovers.before.behind
  rw [transformed, heq, hchars]
  exact hplace.before.behind.before

theorem marksOf_rescan_iff (hregion : Covers 0 source region chars) :
    marksOf (rescan source names translate region) =
        (renewalOf source names translate region).marks region.start ↔
      Undisturbed (unscanned source region) (renewalOf source names translate region) := by
  obtain ⟨front, back, _, hstart, heq⟩ :=
    exists_applyAll_resolveRegion names translate hregion
  have hrenews := renews_renewalOf names translate hregion
  have htokens : (renewalOf source names translate region).map (·.1) =
      (scanFrom region.start [] chars).tokens := by
    rw [renewalOf, List.map_map, scan, hregion.slice_eq]
    exact List.map_id _
  have hwritten : Covers 0 (transformed source names translate region)
      ⟨region.start, region.start + byteLength
        ((renewalOf source names translate region).chars ++ unscanned source region)⟩
      ((renewalOf source names translate region).chars ++ unscanned source region) :=
    ⟨front, back, heq.symm, by rw [Nat.zero_add, hstart]⟩
  rw [rescan, scan, hwritten.slice_eq]
  exact rescans chars hrenews htokens rfl

/-- The texts are those of all expressions that become text. They are inert just when nothing that is
written disturbs the scan and no message among them has an expression or a reference of its own. -/
theorem inert_iff (hregion : Covers 0 source region chars) :
    let spliced := splicedTexts source names translate region.start
      (renewalOf source names translate region)
    spliced.map (·.1) =
        ((scan source region).translatableText.flatMap (textSites source)).filterMap
          (collapsed? source names translate) ∧
      (Inert source names translate table region ↔
        Undisturbed (unscanned source region) (renewalOf source names translate region) ∧
          ∀ text ∈ spliced.map (·.1),
            interpolationsFrom 0 text.toList = [] ∧ table.NoReference text.toList) := by
  intro spliced
  have hslice : ∀ found ∈ spliced,
      found.2.slice (transformed source names translate region) = (escapeQuotes found.1).toList :=
    fun found hfound => (covers_of_mem_splicedTexts hregion hfound).slice_eq
  refine ⟨map_splicedTexts, ?_, ?_⟩
  · intro h
    refine ⟨(marksOf_rescan_iff hregion).mp h.rescanned, List.forall_mem_map.mpr ?_⟩
    intro found hfound
    have hplain := h.uninterpolated found hfound
    have hdecoded := h.decoded found hfound
    rw [hslice found hfound] at hplain hdecoded
    rw [toList_escapeQuotes, interpolationsFrom_escape_eq_nil_iff] at hplain
    exact ⟨hplain, (ReferenceTable.decode_escapeQuotes_iff _).mp hdecoded⟩
  · rintro ⟨hundisturbed, hmessages⟩
    have hrescanned := (marksOf_rescan_iff hregion).mpr hundisturbed
    rw [List.forall_mem_map] at hmessages
    refine ⟨hrescanned, fun found hfound hne => ?_, fun found hfound => ?_, fun found hfound => ?_⟩
    · obtain ⟨before, run, written, behind, hrenewal, hcovers⟩ :=
        exists_run_of_mem_splicedTexts (fun _ => written_of_mem_renewalOf) hfound
      have hwritten : written ≠ [] := hcovers.ne_nil (mt escapeQuotes_eq_nil_iff.mp hne)
      have hmark := mem_marks region.start before behind run hwritten
      rw [← hrenewal, ← hrescanned] at hmark
      exact ⟨_, hmark, hcovers.within⟩
    · rw [hslice found hfound, toList_escapeQuotes, interpolationsFrom_escape_eq_nil_iff]
      exact (hmessages found hfound).1
    · rw [hslice found hfound]
      exact (ReferenceTable.decode_escapeQuotes_iff _).mpr (hmessages found hfound).2

def markedMessage : Translator :=
  ⟨.catalog [("en", [("k", "a <b> c")])], [("t", .translate)]⟩

def markedTemplate : List Char :=
  "<p>\x7b\x7b t('k') \x7d\x7d</p>".toList

theorem inert_iff_markedMessage :
    let translate := markedMessage.translate ⟨"en", "en", []⟩
    Covers 0 markedTemplate ⟨0, 19⟩ markedTemplate ∧
      transformed markedTemplate markedMessage.functions translate ⟨0, 19⟩ =
        "<p>a <b> c</p>".toList ∧
      ¬Inert markedTemplate markedMessage.functions translate .predefined ⟨0, 19⟩ := by
  have hlength : byteLength markedTemplate = 19 := by decide
  have hcovers : Covers 0 markedTemplate ⟨0, 19⟩ markedTemplate := by
    have hwhole := Covers.whole 0 markedTemplate
    rwa [Nat.zero_add, hlength] at hwhole
  refine ⟨hcovers, by decide +kernel, fun h => ?_⟩
  have hundisturbed := (inert_iff hcovers).2.mp h |>.1
  have hrenewal : renewalOf markedTemplate markedMessage.functions
      (markedMessage.translate ⟨"en", "en", []⟩) ⟨0, 19⟩ =
        [(.startTag ⟨⟨0, 3⟩, "p", [], false, true, false⟩, "<p>".toList),
          (.text ⟨3, 15⟩ true, "a <b> c".toList), (.endTag ⟨15, 19⟩ "p", "</p>".toList)] := by
    decide +kernel
  rw [hrenewal] at hundisturbed
  rcases hundisturbed.2.1 with hnil | ⟨-, hinside⟩ | ⟨tag, hread, -⟩
  · exact absurd hnil (by decide)
  · have hmarkup := hinside "a ".toList "<b> c".toList rfl (by decide) (by decide)
    exact absurd hmarkup (by decide +kernel)
  · exact absurd (startsMarkup_of_readTag? hread) (by decide +kernel)

end TemplateMessages.Template
