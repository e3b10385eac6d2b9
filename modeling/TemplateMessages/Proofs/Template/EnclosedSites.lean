import TemplateMessages.Proofs.Markup.EnclosedScan
import TemplateMessages.Proofs.Template.Extent

set_option autoImplicit false

/-!
# The sites of a template and of its content

A template and its content on its own have the same sites, with few exceptions. The content takes an
outermost template for the root: its attributes are left alone and say nothing about what is in it,
and the scan ends with it. And what the content does not finish takes in the end tag of the template,
where the content on its own has text.
-/

namespace TemplateMessages.Template

open TemplateMessages.Markup
open TemplateMessages.Text

def tokenSites (source : List Char) : Token → List Site
  | .text span true => textSites source span
  | .startTag tag => if isTranslated (.startTag tag) then tagSites tag else []
  | _ => []

/-- The site is in one of the tokens. -/
def Found (source : List Char) (tokens : List Token) (site : Site) : Prop :=
  ∃ token ∈ tokens, site ∈ tokenSites source token

def HasRoot (kind : StartTag → Prop) (tokens : List Token) : Prop :=
  ∃ tag, .startTag tag ∈ tokens ∧ tag.root = true ∧ kind tag

/-- The site is an attribute of an outermost template. -/
def InRootTag (tokens : List Token) (site : Site) : Prop :=
  HasRoot (site ∈ tagSites ·) tokens

/-- The site is behind the start tag of an outermost template that asks for no translation. -/
def BehindPlainRoot (tokens : List Token) (site : Site) : Prop :=
  HasRoot (fun tag => ownFlag true tag.attributes = false ∧ tag.span.stop ≤ site.whole.start) tokens

/-- The site reaches into an end tag or a doctype that the content does not finish. -/
def IntoUnfinished (content : List Char) (site : Site) : Prop :=
  ∃ front tail, front ++ tail = content ∧ Unfinished tail ∧ byteLength front < site.whole.stop

variable {source content front text chars rest : List Char} {tokens tokens' : List Token}
  {site : Site} {position : Nat} {dark : Prop} {frames inside : List Frame} {region span : Span}

@[simp] theorem found_append : Found source (tokens ++ tokens') site ↔
    Found source tokens site ∨ Found source tokens' site := by
  unfold Found
  simp only [List.mem_append, or_and_right, exists_or]

@[simp] theorem found_singleton {token : Token} :
    Found source [token] site ↔ site ∈ tokenSites source token := by
  simp [Found]

@[simp] theorem not_found_nil : ¬Found source [] site := by
  simp [Found]

@[simp] theorem found_cons {token : Token} :
    Found source (token :: tokens) site ↔
      site ∈ tokenSites source token ∨ Found source tokens site := by
  simp [Found]

theorem mem_sites_iff :
    site ∈ sites source region ↔ Found source (scan source region).tokens site := by
  unfold sites
  dsimp only
  rw [List.mem_append, List.mem_flatMap, List.mem_flatMap]
  constructor
  · rintro (⟨run, hrun, hsite⟩ | ⟨tag, htag, hsite⟩)
    · exact ⟨_, mem_translatableText.mp hrun, hsite⟩
    · obtain ⟨htoken, htranslated⟩ := mem_translatableTags.mp htag
      refine ⟨_, htoken, ?_⟩
      rw [tokenSites, if_pos htranslated]
      exact hsite
  · rintro ⟨token, htoken, hsite⟩
    unfold tokenSites at hsite
    split at hsite
    · exact .inl ⟨_, mem_translatableText.mpr htoken, hsite⟩
    · split at hsite
      · rename_i htranslated
        exact .inr ⟨_, mem_translatableTags.mpr ⟨htoken, htranslated⟩, hsite⟩
      · cases hsite
    · cases hsite

theorem le_start_of_mem_interpolationsFrom {expression : Interpolation}
    (h : expression ∈ interpolationsFrom position text) :
    position ≤ expression.whole.start ∧ expression.whole.start < expression.whole.stop := by
  obtain ⟨inner, hwhole, -⟩ := covers_of_mem_interpolationsFrom h
  have hpositive : 0 < byteLength ('{' :: '{' :: inner ++ ['}', '}']) := byteLength_pos (by simp)
  have hfirst := hwhole.within.1
  have hstop := hwhole.stop_eq
  dsimp only at hfirst
  omega

theorem le_start_of_found (h : Found source (scanFrom position frames text).tokens site) :
    position ≤ site.whole.start ∧ site.whole.start < site.whole.stop := by
  obtain ⟨token, htoken, hsite⟩ := h
  obtain ⟨behind, tiled⟩ := scanFrom_tiled position frames text
  have hstart := (tiled.within htoken).1
  dsimp only at hstart
  unfold tokenSites at hsite
  split at hsite
  · obtain ⟨expression, hexpression, rfl⟩ := List.mem_map.mp hsite
    obtain ⟨hle, hlt⟩ := le_start_of_mem_interpolationsFrom hexpression
    exact ⟨Nat.le_trans hstart hle, hlt⟩
  · split at hsite
    · obtain ⟨attr, hattr, hsome⟩ := List.mem_filterMap.mp hsite
      split at hsome
      · rename_i binding value hbinding hvalue
        obtain rfl := Option.some.inj hsome
        exact ⟨Nat.le_trans hstart (tiled.attribute_within htoken hattr).1,
          tiled.start_lt_stop_of_binding htoken hattr (by rw [hbinding]; rfl)⟩
      · cases hsome
    · cases hsite
  · cases hsite

theorem readInterpolation?_append {inner : List Char}
    (h : readInterpolation? text = some (inner, rest)) (more : List Char) :
    readInterpolation? (text ++ more) = some (inner, rest ++ more) := by
  have hwhole : (Part.expression inner).chars ++ rest = text := by
    rw [← append_of_readInterpolation? h]
    simp [Part.chars]
  rw [← hwhole] at h ⊢
  rw [List.append_assoc]
  exact (readInterpolation?_expression_iff _ _).mpr ((readInterpolation?_expression_iff _ _).mp h)

theorem interpolationsFrom_eq_nil_of_open {c : Char} {cs : List Char}
    (hopen : ['{', '{'] <+: c :: cs) (h : readInterpolation? (c :: cs) = none) :
    interpolationsFrom position cs = [] := by
  refine List.eq_nil_iff_forall_not_mem.mpr fun expression hmem => ?_
  obtain ⟨inner, ⟨before, behind, hcs, -⟩, -⟩ := covers_of_mem_interpolationsFrom hmem
  have hclose : ['}', '}'] <:+: (c :: cs).drop 3 := by
    refine ⟨(before ++ ['{', '{']).drop 2 ++ inner, behind, ?_⟩
    rw [List.drop_succ_cons, ← hcs]
    have hsplit : before ++ ('{' :: '{' :: inner ++ ['}', '}']) ++ behind =
        (before ++ ['{', '{']) ++ (inner ++ ['}', '}'] ++ behind) := by simp
    have hlength : 2 ≤ (before ++ ['{', '{']).length := by simp
    rw [hsplit, List.drop_append_of_le_length hlength, ← List.append_assoc, ← List.append_assoc]
  obtain ⟨_, _, hread⟩ := exists_readInterpolation? hopen hclose
  rw [h] at hread
  cases hread

theorem prefix_of_readInterpolation? {inner : List Char}
    (h : readInterpolation? text = some (inner, rest)) : ['{', '{'] <+: text := by
  rw [← append_of_readInterpolation? h]
  exact ⟨inner ++ '}' :: '}' :: rest, rfl⟩

theorem interpolationsFrom_of_some {inner : List Char}
    (h : readInterpolation? text = some (inner, rest)) :
    interpolationsFrom position text =
      ⟨⟨position, position + 2 + byteLength inner + 2⟩,
        ⟨position + 2, position + 2 + byteLength inner⟩⟩ ::
        interpolationsFrom (position + 2 + byteLength inner + 2) rest := by
  rw [interpolationsFrom_eq, partsOf_expression h, interpolationsFrom_eq]
  rfl

theorem interpolationsFrom_of_none {c : Char} {cs : List Char}
    (h : readInterpolation? (c :: cs) = none) :
    interpolationsFrom position (c :: cs) = interpolationsFrom (position + c.utf8Size) cs := by
  rw [interpolationsFrom_eq, partsOf_cons h, interpolationsFrom_eq]
  rfl

theorem byteLength_lt_of_readInterpolation?_append {inner more : List Char}
    (h : readInterpolation? text = none)
    (hread : readInterpolation? (text ++ more) = some (inner, rest)) :
    byteLength text < byteLength (Part.expression inner).chars := by
  have hwhole : (Part.expression inner).chars ++ rest = text ++ more := by
    rw [← append_of_readInterpolation? hread]
    simp [Part.chars]
  have hcloses : closes inner = true := by
    rw [← hwhole] at hread
    exact (readInterpolation?_expression_iff inner rest).mp hread
  -- The expression would be read in the text on its own if it ended there.
  have hlonger (gap : List Char) : (Part.expression inner).chars ++ gap ≠ text := by
    intro heq
    rw [← heq, (readInterpolation?_expression_iff inner gap).mpr hcloses] at h
    cases h
  rcases List.append_eq_append_iff.mp hwhole with ⟨gap, htext, -⟩ | ⟨gap, hchars, -⟩
  · exact absurd htext.symm (hlonger gap)
  · have hgap : gap ≠ [] := by
      rintro rfl
      exact hlonger [] (by rw [hchars, List.append_nil, List.append_nil])
    have hpositive := byteLength_pos hgap
    rw [hchars, byteLength_append]
    omega

theorem mem_interpolationsFrom_append {expression : Interpolation} (more : List Char) :
    (expression ∈ interpolationsFrom position text →
      expression ∈ interpolationsFrom position (text ++ more)) ∧
    (expression ∈ interpolationsFrom position (text ++ more) →
      expression ∈ interpolationsFrom position text ∨
        position + byteLength text < expression.whole.stop) := by
  fun_induction interpolationsFrom position text with
  | case1 position text inner rest h _ start stop ih =>
    have hlength := byteLength_expression inner
    have hwhole : (Part.expression inner).chars ++ rest = text := by
      rw [← append_of_readInterpolation? h]
      simp [Part.chars]
    rw [interpolationsFrom_of_some (readInterpolation?_append h more), List.mem_cons, List.mem_cons,
      ← hwhole, byteLength_append, hlength]
    refine ⟨Or.imp_right ih.1, ?_⟩
    rintro (heq | hlater)
    · exact .inl (.inl heq)
    · rcases ih.2 hlater with hinside | hbeyond
      · exact .inl (.inr hinside)
      · refine .inr ?_
        omega
  | case2 position h =>
    refine ⟨by simp, fun hmem => .inr ?_⟩
    have hle := le_start_of_mem_interpolationsFrom hmem
    rw [byteLength]
    omega
  | case3 position c cs h ih =>
    cases hread : readInterpolation? (c :: cs ++ more) with
    | none =>
      rw [List.cons_append] at hread
      rw [List.cons_append, interpolationsFrom_of_none hread]
      exact ⟨ih.1, fun hmem => (ih.2 hmem).imp_right fun hlt => by
        rw [byteLength]
        omega⟩
    | some found =>
      obtain ⟨inner, after⟩ := found
      -- The longer text has an expression here that goes on behind the shorter one.
      have hnone : interpolationsFrom (position + c.utf8Size) cs = [] := by
        rcases cs with _ | ⟨d, ds⟩
        · rw [interpolationsFrom_eq, partsOf_nil]
          rfl
        · exact interpolationsFrom_eq_nil_of_open (List.prefix_of_prefix_length_le
            (prefix_of_readInterpolation? hread) (List.prefix_append _ _) (by simp)) h
      refine ⟨fun hmem => ?_, fun hmem => .inr ?_⟩
      · rw [hnone] at hmem
        cases hmem
      have hbeyond := byteLength_lt_of_readInterpolation?_append h hread
      rw [byteLength_expression] at hbeyond
      rw [interpolationsFrom_of_some hread, List.mem_cons] at hmem
      rcases hmem with rfl | hlater
      · dsimp only
        omega
      · have hle := le_start_of_mem_interpolationsFrom hlater
        omega

/-- What the scan of the content on its own finds, and what is found inside the template. Sites that
are not translated there are behind a root that says so; if it is in front of this part of the text,
`dark` holds. -/
structure Compared (content : List Char) (dark : Prop) (own inner : Scan) : Prop where
  gains : ∀ site, Found (content ++ templateEnd) inner.tokens site →
    Found content own.tokens site ∨ InRootTag own.tokens site ∨ own.stop ≤ site.whole.start
  keeps : ∀ site, Found content own.tokens site →
    Found (content ++ templateEnd) inner.tokens site ∨ dark ∨ BehindPlainRoot own.tokens site ∨
      IntoUnfinished content site

structure InStep (content : List Char) (dark : Prop) (own inner : List Token) : Prop where
  gains : ∀ site, Found (content ++ templateEnd) inner site →
    Found content own site ∨ InRootTag own site
  keeps : ∀ site, Found content own site →
    Found (content ++ templateEnd) inner site ∨ dark ∨ IntoUnfinished content site

theorem HasRoot.append_left {kind : StartTag → Prop} (h : HasRoot kind tokens)
    (tokens' : List Token) : HasRoot kind (tokens ++ tokens') := by
  obtain ⟨tag, htag, hroot⟩ := h
  exact ⟨tag, List.mem_append_left _ htag, hroot⟩

theorem HasRoot.append_right {kind : StartTag → Prop} (h : HasRoot kind tokens)
    (tokens' : List Token) : HasRoot kind (tokens' ++ tokens) := by
  obtain ⟨tag, htag, hroot⟩ := h
  exact ⟨tag, List.mem_append_right _ htag, hroot⟩

theorem Compared.behind {darker : Prop} {own inner : Scan}
    (hstep : InStep content dark tokens tokens') (hrest : Compared content (dark ∨ darker) own inner)
    (hdarker : ∀ site, darker → Found content own.tokens site → BehindPlainRoot tokens site) :
    Compared content dark (own.behind tokens) (inner.behind tokens') where
  gains := by
    intro site hsite
    rcases found_append.mp hsite with hfirst | hlater
    · rcases hstep.gains site hfirst with hown | hroot
      · exact .inl (found_append.mpr (.inl hown))
      · exact .inr (.inl (HasRoot.append_left hroot _))
    · rcases hrest.gains site hlater with hown | hroot | hstop
      · exact .inl (found_append.mpr (.inr hown))
      · exact .inr (.inl (HasRoot.append_right hroot _))
      · exact .inr (.inr hstop)
  keeps := by
    intro site hsite
    rcases found_append.mp hsite with hfirst | hlater
    · rcases hstep.keeps site hfirst with hinner | hdark | hinto
      · exact .inl (found_append.mpr (.inl hinner))
      · exact .inr (.inl hdark)
      · exact .inr (.inr (.inr hinto))
    · rcases hrest.keeps site hlater with hinner | (hdark | hdark) | hroot | hinto
      · exact .inl (found_append.mpr (.inr hinner))
      · exact .inr (.inl hdark)
      · exact .inr (.inr (.inl (HasRoot.append_left (hdarker site hdark hlater) _)))
      · exact .inr (.inr (.inl (HasRoot.append_right hroot _)))
      · exact .inr (.inr (.inr hinto))

theorem Compared.behind_inside {own inner : Scan} (hstep : InStep content dark tokens tokens')
    (hrest : Compared content dark own inner) :
    Compared content dark (own.behind tokens) (inner.behind tokens') := by
  have hdark : Compared content (dark ∨ False) own inner := by rwa [or_false]
  exact .behind hstep hdark fun _ hfalse => hfalse.elim

/-- Nothing is found inside of the template, and all that the content on its own has reaches into
what it does not finish. -/
theorem compared_of_into {own inner : Scan}
    (hinner : ∀ site, ¬Found (content ++ templateEnd) inner.tokens site)
    (hown : ∀ site, Found content own.tokens site → IntoUnfinished content site) :
    Compared content dark own inner where
  gains site hsite := (hinner site hsite).elim
  keeps site hsite := .inr (.inr (.inr (hown site hsite)))

theorem inStep_of_silent (hown : ∀ source site, ¬Found source tokens site)
    (hinner : ∀ source site, ¬Found source tokens' site) : InStep content dark tokens tokens' where
  gains site hsite := (hinner _ site hsite).elim
  keeps site hsite := (hown _ site hsite).elim

theorem textSites_eq (h : Covers 0 source span chars) :
    textSites source span = (interpolationsFrom span.start chars).map .interpolation := by
  rw [textSites, h.slice_eq]

@[simp] theorem found_text {translate : Bool} : Found source [.text span translate] site ↔
    translate = true ∧ site ∈ textSites source span := by
  rw [found_singleton]
  cases translate <;> simp [tokenSites]

theorem inStep_text {own inner : Bool} (h : Covers 0 content span chars)
    (flags : Dims dark own inner) :
    InStep content dark [.text span own] [.text span inner] := by
  have hsites : textSites (content ++ templateEnd) span = textSites content span := by
    rw [textSites_eq h, textSites_eq h.before]
  refine ⟨fun site hsite => ?_, fun site hsite => ?_⟩
  · obtain ⟨hinner, hmem⟩ := found_text.mp hsite
    exact .inl (found_text.mpr ⟨flags.1 hinner, hsites ▸ hmem⟩)
  · obtain ⟨hown, hmem⟩ := found_text.mp hsite
    rw [← hsites] at hmem
    exact (flags.2 hown).elim (fun hinner => .inl (found_text.mpr ⟨hinner, hmem⟩))
      fun hdark => .inr (.inl hdark)

theorem inStep_cut {own inner : Bool} {run more tail : List Char}
    (whole : front ++ run ++ tail = content) (hinitial : run ++ more <+: run ++ tail)
    (hunfinished : Unfinished tail) (flags : Dims dark own inner) :
    InStep content dark [.text ⟨byteLength front, byteLength front + byteLength (run ++ more)⟩ own]
      [.text ⟨byteLength front, byteLength front + byteLength run⟩ inner] := by
  obtain ⟨behind, hbehind⟩ := hinitial
  have hcut : Covers 0 content ⟨byteLength front, byteLength front + byteLength run⟩ run :=
    ⟨front, tail, whole, by rw [Nat.zero_add]⟩
  have hlong : Covers 0 content ⟨byteLength front, byteLength front + byteLength (run ++ more)⟩
      (run ++ more) :=
    ⟨front, behind, by rw [List.append_assoc, hbehind, ← List.append_assoc, whole],
      by rw [Nat.zero_add]⟩
  refine ⟨fun site hsite => ?_, fun site hsite => ?_⟩
  · obtain ⟨hinner, hmem⟩ := found_text.mp hsite
    rw [textSites_eq hcut.before] at hmem
    obtain ⟨expression, hexpression, rfl⟩ := List.mem_map.mp hmem
    refine .inl (found_text.mpr ⟨flags.1 hinner, ?_⟩)
    rw [textSites_eq hlong]
    exact List.mem_map_of_mem ((mem_interpolationsFrom_append more).1 hexpression)
  · obtain ⟨hown, hmem⟩ := found_text.mp hsite
    rw [textSites_eq hlong] at hmem
    obtain ⟨expression, hexpression, rfl⟩ := List.mem_map.mp hmem
    rcases (mem_interpolationsFrom_append more).2 hexpression with hinside | hbeyond
    · refine (flags.2 hown).elim (fun hinner => .inl (found_text.mpr ⟨hinner, ?_⟩))
        fun hdark => .inr (.inl hdark)
      rw [textSites_eq hcut.before]
      exact List.mem_map_of_mem hinside
    · exact .inr (.inr ⟨front ++ run, tail, whole, hunfinished, by rwa [byteLength_append]⟩)

@[simp] theorem found_startTag {tag : StartTag} : Found source [.startTag tag] site ↔
    tag.translate = true ∧ tag.root = false ∧ site ∈ tagSites tag := by
  rw [found_singleton, tokenSites, isTranslated]
  cases tag.translate <;> cases tag.root <;> simp

theorem inStep_startTag (h : Under dark frames inside) (tag : TagText) (position : Nat) :
    InStep content dark [.startTag (tag.token position frames)]
      [.startTag (tag.token position inside)] := by
  obtain ⟨hroot, hflags⟩ := h.token tag position
  refine ⟨fun site hsite => ?_, fun site hsite => ?_⟩
  · obtain ⟨hinner, -, hmem⟩ := found_startTag.mp hsite
    cases hown : (tag.token position frames).root with
    | true => exact .inr ⟨_, List.mem_singleton_self _, hown, hmem⟩
    | false => exact .inl (found_startTag.mpr ⟨hflags.1 hinner, hown, hmem⟩)
  · obtain ⟨htranslate, hown, hmem⟩ := found_startTag.mp hsite
    rcases hflags.2 htranslate with hinner | hdark | ⟨htrue, -⟩
    · exact .inl (found_startTag.mpr ⟨hinner, hroot, hmem⟩)
    · exact .inr (.inl hdark)
    · rw [hown] at htrue
      cases htrue

theorem not_found_endTag {name : List Char} (h : readEndTag? text = some (name, chars, [])) :
    ¬Found source (scanFrom position frames text).tokens site := by
  have hsilent (span : Span) (label : String) : ¬Found source [.endTag span label] site := by
    rw [found_singleton]
    exact List.not_mem_nil
  have hread := readConstruct?_of_readEndTag? h
  cases hclosed : closeElement? (String.ofList name) frames with
  | none =>
    rw [scanFrom_strayEndTag hread hclosed]
    exact not_found_nil
  | some outer =>
    by_cases hroot : outer.isEmpty = true ∧ String.ofList name = "template"
    · obtain ⟨hempty, hname⟩ := hroot
      rw [List.isEmpty_iff.mp hempty] at hclosed
      rw [hname] at hread hclosed
      rw [scanFrom_rootEndTag hread hclosed]
      exact hsilent _ _
    · rw [scanFrom_endTag hread hclosed hroot, scanFrom_nil]
      exact hsilent _ _

theorem not_found_doctype (h : readDoctype? text = some (chars, [])) :
    ¬Found source (scanFrom position frames text).tokens site := by
  rw [scanFrom_doctype (readConstruct?_of_readDoctype? h), scanFrom_nil]
  exact fun hsite => List.not_mem_nil (found_singleton.mp hsite)

@[simp] theorem readEndTag?_templateEnd_self :
    readEndTag? templateEnd = some ("template".toList, templateEnd, []) := by
  decide

theorem not_found_strayEndTag {name : List Char} (hunder : Under dark frames inside)
    (h : readEndTag? text = some (name, chars, rest))
    (hclosed : closeElement? (String.ofList name) frames = none) :
    ¬Found source (scanFrom position inside (text ++ templateEnd)).tokens site := by
  have hread := readConstruct?_of_readEndTag? (readEndTag?_templateEnd_of_some h)
  have houter := hunder.closeElement?_of_none hclosed
  by_cases hname : String.ofList name = "template"
  · rw [hname, if_pos rfl] at houter
    rw [hname] at hread
    rw [scanFrom_rootEndTag hread houter, found_singleton]
    exact List.not_mem_nil
  · rw [if_neg hname] at houter
    rw [scanFrom_strayEndTag hread houter]
    exact not_found_nil

theorem IntoUnfinished.of_le {tail : List Char} (whole : front ++ tail = content)
    (h : Unfinished tail) (hstart : byteLength front ≤ position)
    (hsite : Found source (scanFrom position frames text).tokens site) :
    IntoUnfinished content site := by
  obtain ⟨hle, hlt⟩ := le_start_of_found hsite
  exact ⟨front, tail, whole, h, by omega⟩

theorem compared_textRun {c : Char} {cs run : List Char} (hunder : Under dark frames inside)
    (whole : front ++ c :: cs = content) (plain : readConstruct? (c :: cs) = none)
    (found : textRun cs = (run, rest))
    (hrest : Compared content dark (scanFrom (byteLength front + byteLength (c :: run)) frames rest)
      (scanFrom (byteLength front + byteLength (c :: run)) inside (rest ++ templateEnd))) :
    Compared content dark (scanFrom (byteLength front) frames (c :: cs))
      (scanFrom (byteLength front) inside (c :: cs ++ templateEnd)) := by
  have hrun : c :: run ++ rest = c :: cs := by
    have hsplit := cons_textRun_append c cs
    rwa [found] at hsplit
  rcases readConstruct?_templateEnd_of_none (List.cons_ne_nil c cs) plain with
    hplain | ⟨hunfinished, hthrough⟩
  · rw [List.cons_append] at hplain ⊢
    rw [scanFrom_textRun plain, scanFrom_textRun hplain, found]
    rcases textRun_templateEnd cs with
      hsame | ⟨before, tail, hsplit, ⟨more, hmore⟩, hunfinished, hcut, name, chars, hend⟩
    · rw [hsame, found]
      refine .behind_inside (inStep_text ⟨front, rest, ?_, by rw [Nat.zero_add]⟩ hunder.inherited)
        hrest
      rw [List.append_assoc, hrun, whole]
    · rw [found] at hmore
      dsimp only at hmore
      subst hmore
      have hfront : front ++ c :: before ++ tail = content := by
        rw [List.append_assoc, List.cons_append, hsplit, whole]
      have hinitial : c :: before ++ more <+: c :: before ++ tail :=
        ⟨rest, by rw [List.cons_append, hrun, List.cons_append, hsplit]⟩
      rw [hcut]
      refine .behind_inside (inStep_cut hfront hinitial hunfinished hunder.inherited)
        (compared_of_into (fun _ => not_found_endTag hend) fun site hsite =>
          .of_le hfront hunfinished ?_ hsite)
      rw [byteLength_append, ← List.cons_append, byteLength_append]
      omega
  · refine compared_of_into (fun site => ?_) fun site hsite =>
      .of_le whole hunfinished (Nat.le_refl _) hsite
    rcases hthrough with ⟨chars, hread⟩ | ⟨name, chars, hread⟩
    · exact not_found_doctype hread
    · exact not_found_endTag hread

theorem compared_comment (found : readConstruct? text = some (.comment, chars, rest))
    (hrest : Compared content dark (scanFrom (position + byteLength chars) frames rest)
      (scanFrom (position + byteLength chars) inside (rest ++ templateEnd))) :
    Compared content dark
      (.behind [.comment ⟨position, position + byteLength chars⟩]
        (scanFrom (position + byteLength chars) frames rest))
      (scanFrom position inside (text ++ templateEnd)) := by
  rcases readConstruct?_comment_templateEnd found with hread | ⟨rfl, hread⟩
  · rw [scanFrom_comment hread]
    exact .behind_inside (inStep_of_silent (by simp [tokenSites]) (by simp [tokenSites])) hrest
  · rw [scanFrom_comment hread, scanFrom_nil, scanFrom_nil]
    exact compared_of_into (by simp [Scan.behind, tokenSites]) (by simp [Scan.behind, tokenSites])

theorem exists_scanFrom_endTag {name : List Char} {outer : List Frame}
    (hunder : Under dark frames inside) (found : readEndTag? text = some (name, chars, rest))
    (closed : closeElement? (String.ofList name) frames = some outer) :
    ∃ around, Under dark outer around ∧ scanFrom position inside (text ++ templateEnd) =
      .behind [.endTag ⟨position, position + byteLength chars⟩ (String.ofList name)]
        (scanFrom (position + byteLength chars) around (rest ++ templateEnd)) := by
  obtain ⟨around, hclosed, houter⟩ := hunder.closeElement? closed
  refine ⟨around, houter, scanFrom_endTag
    (readConstruct?_of_readEndTag? (readEndTag?_templateEnd_of_some found)) hclosed ?_⟩
  exact fun hboth => houter.ne_nil (List.isEmpty_iff.mp hboth.1)

theorem compared_rootEndTag {name : List Char} (hunder : Under dark frames inside)
    (found : readEndTag? text = some (name, chars, rest))
    (closed : closeElement? (String.ofList name) frames = some []) :
    Compared content dark
      ⟨[.endTag ⟨position, position + byteLength chars⟩ (String.ofList name)],
        position + byteLength chars⟩
      (scanFrom position inside (text ++ templateEnd)) := by
  obtain ⟨around, -, hinner⟩ := exists_scanFrom_endTag hunder found closed
  rw [hinner]
  -- The content on its own ends here; what is found later is behind its end.
  refine ⟨fun site hsite => ?_, by simp [tokenSites]⟩
  rcases found_append.mp hsite with hfirst | hlater
  · simp [tokenSites] at hfirst
  · exact .inr (.inr (le_start_of_found hlater).1)

theorem compared_rawText {raw last after : List Char} {tag : TagText}
    (hunder : Under dark frames inside) (found : readTag? text = some (tag, rest))
    (close : tag.close = .plain) (notVoid : voidElements.contains (String.ofList tag.name) = false)
    (isRaw : rawTextElements.contains (String.ofList tag.name) = true)
    (ended : findEndTag? tag.name rest = some (raw, last, after))
    (hrest : let next := position + byteLength tag.chars + byteLength raw + byteLength last
      Compared content dark (scanFrom next frames after)
        (scanFrom next inside (after ++ templateEnd))) :
    Compared content dark (scanFrom position frames text)
      (scanFrom position inside (text ++ templateEnd)) := by
  have hended := findEndTag?_rest ended (after ++ templateEnd)
  rw [← List.append_assoc _ after, (append_of_findEndTag? ended).1] at hended
  rw [scanFrom_rawText found close notVoid isRaw ended,
    scanFrom_rawText (readTag?_templateEnd_of_some found) close notVoid isRaw hended]
  have hsilent (source : List Char) (site : Site) (span span' : Span) :
      ¬Found source [.rawText span, .endTag span' (String.ofList tag.name)] site := by
    simp [tokenSites]
  exact @Compared.behind_inside _ [_] [_] _ _ _ (inStep_startTag hunder tag _)
    (.behind_inside (inStep_of_silent (hsilent · · _ _) (hsilent · · _ _)) hrest)

theorem compared_openRawText {tag : TagText} (hunder : Under dark frames inside)
    (found : readTag? text = some (tag, rest)) (close : tag.close = .plain)
    (notVoid : voidElements.contains (String.ofList tag.name) = false)
    (isRaw : rawTextElements.contains (String.ofList tag.name) = true)
    (ended : findEndTag? tag.name rest = none) :
    Compared content dark (scanFrom position frames text)
      (scanFrom position inside (text ++ templateEnd)) := by
  have hread := readTag?_templateEnd_of_some found
  rw [scanFrom_openRawText found close notVoid isRaw ended]
  rcases findEndTag?_templateEnd ended with hnone | ⟨raw, last, hended⟩
  · rw [scanFrom_openRawText hread close notVoid isRaw hnone]
    exact @Compared.behind_inside _ [_] [_] _ ⟨[_], _⟩ ⟨[_], _⟩ (inStep_startTag hunder tag _)
      (compared_of_into (by simp [tokenSites]) (by simp [tokenSites]))
  · rw [scanFrom_rawText hread close notVoid isRaw hended]
    dsimp only
    rw [scanFrom_nil]
    exact @Compared.behind_inside _ [_] [_] _ ⟨[_], _⟩ ⟨[_, _], _⟩ (inStep_startTag hunder tag _)
      (compared_of_into (by simp [tokenSites]) (by simp [tokenSites]))

theorem compared_scanFrom (hunder : Under dark frames inside) (whole : front ++ text = content) :
    Compared content dark (scanFrom (byteLength front) frames text)
      (scanFrom (byteLength front) inside (text ++ templateEnd)) := by
  -- On the length of the text; the stacks of open elements differ at the bottom only.
  induction hlength : text.length using Nat.strong_induction_on
    generalizing dark front frames inside text with
  | _ n ih =>
    have hgo {dark : Prop} {chars rest : List Char} {frames inside : List Frame}
        (hunder : Under dark frames inside) (hsplit : chars ++ rest = text) (hne : chars ≠ []) :
        Compared content dark (scanFrom (byteLength front + byteLength chars) frames rest)
          (scanFrom (byteLength front + byteLength chars) inside (rest ++ templateEnd)) := by
      rw [← byteLength_append]
      exact ih _ (hlength ▸ length_lt_of_append ⟨hsplit, hne⟩) hunder
        (by rw [List.append_assoc, hsplit, whole]) rfl
    have hchars (tag : TagText) : tag.chars ≠ [] := by simp [TagText.chars]
    have hreads := reads_scanFrom (byteLength front) frames text
    generalize hscan : scanFrom (byteLength front) frames text = scanned at hreads
    cases hreads with
    | nothing =>
      exact compared_of_into (fun _ => not_found_endTag readEndTag?_templateEnd_self)
        fun _ hsite => (not_found_nil hsite).elim
    | @textRun c cs run rest plain found =>
      have hsplit := cons_textRun_append c cs
      rw [found] at hsplit
      rw [← hscan]
      exact compared_textRun hunder whole plain found (hgo hunder hsplit (List.cons_ne_nil _ _))
    | comment found =>
      have hsplit := append_of_readConstruct? found
      exact compared_comment found (hgo hunder hsplit.1 hsplit.2)
    | doctype found =>
      have hsplit := append_of_readDoctype? found
      rw [scanFrom_doctype (readConstruct?_of_readDoctype? (readDoctype?_templateEnd_of_some found))]
      exact .behind_inside (inStep_of_silent (by simp [tokenSites]) (by simp [tokenSites]))
        (hgo hunder hsplit.1 hsplit.2)
    | strayEndTag found closed =>
      exact compared_of_into (fun _ => not_found_strayEndTag hunder found closed)
        fun _ hsite => (not_found_nil hsite).elim
    | rootEndTag found root closed => exact compared_rootEndTag hunder found closed
    | endTag found closed inner =>
      have hsplit := append_of_readEndTag? found
      obtain ⟨around, houter, hinner⟩ := exists_scanFrom_endTag hunder found closed
      rw [hinner]
      exact .behind_inside (inStep_of_silent (by simp [tokenSites]) (by simp [tokenSites]))
        (hgo houter hsplit.1 hsplit.2)
    | @unclosedTag _ rest tag found close =>
      rw [scanFrom_unclosedTag (readTag?_templateEnd_of_some found) close]
      exact .behind_inside (inStep_of_silent (by simp [tokenSites]) (by simp [tokenSites]))
        (hgo hunder (append_of_readTag? found) (hchars tag))
    | @leaf _ rest tag found close empty =>
      rw [scanFrom_leaf (readTag?_templateEnd_of_some found) close empty]
      exact .behind_inside (inStep_startTag hunder tag _)
        (hgo hunder (append_of_readTag? found) (hchars tag))
    | @rawText _ rest raw last after tag found close notVoid isRaw ended =>
      have hsplit : tag.chars ++ (raw ++ last) ++ after = text := by
        rw [← append_of_readTag? found, ← (append_of_findEndTag? ended).1]
        simp
      rw [← hscan]
      refine compared_rawText hunder found close notVoid isRaw ended ?_
      rw [← add_byteLength_append, ← add_byteLength_append]
      exact hgo hunder hsplit (by simp [TagText.chars])
    | openRawText found close notVoid isRaw ended =>
      rw [← hscan]
      exact compared_openRawText hunder found close notVoid isRaw ended
    | @element _ rest tag found close notVoid notRaw =>
      rw [scanFrom_element (readTag?_templateEnd_of_some found) close notVoid notRaw]
      have hdark := (hunder.token tag (byteLength front)).2
      refine .behind (inStep_startTag hunder tag _)
        (hgo (.element _ hdark (hunder.imp .inl)) (append_of_readTag? found) (hchars tag)) ?_
      rintro site ⟨hroot, hflag⟩ hsite
      exact ⟨_, List.mem_singleton_self _, hroot, hflag, (le_start_of_found hsite).1⟩

end TemplateMessages.Template
