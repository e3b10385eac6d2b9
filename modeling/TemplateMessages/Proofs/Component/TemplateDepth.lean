import TemplateMessages.Proofs.Component.TemplateTags
import TemplateMessages.Proofs.Markup.EndTags
import TemplateMessages.Proofs.Markup.TagReading

set_option autoImplicit false

/-!
# The depth of templates

`templateTags` reads a text once, from left to right. Counting the templates that are open behind
each tag, from the one around the text, gives the end tag that the search for the end of a template
finds: the first one behind which none is open. The search comes back several times to a text in
front of the next end tag, and still finds the same.
-/

namespace TemplateMessages.Component

open TemplateMessages.Markup
open TemplateMessages.Text

def TagKind.change : TagKind → Int
  | opening => 1
  | selfClosing => 0
  | closing => -1

def depthBehind (depth : Int) (tags : List TemplateTag) : Int :=
  tags.foldl (fun depth tag => depth + tag.kind.change) depth

/-- The depth stays above zero, in front of the tags and behind each of them. -/
def StaysOpen (depth : Int) (tags : List TemplateTag) : Prop :=
  ∀ front, front <+: tags → 0 < depthBehind depth front

/-- Behind `last`, and behind no tag in front of it, the depth is zero. -/
def ReachesZero (depth : Int) (tags : List TemplateTag) (last : TemplateTag) : Prop :=
  ∃ before after, tags = before ++ last :: after ∧ StaysOpen depth before ∧
    depthBehind depth (before ++ [last]) = 0

/-- Where the end tag of the template stands whose content is the text at a position. -/
def templateCloseSpan? (position : Nat) (text : List Char) : Option Span :=
  (templateClose? 0 text).map fun (before, chars, _) =>
    ⟨position + byteLength before, position + byteLength before + byteLength chars⟩

section

variable {depth : Int} {tag last : TemplateTag} {tags : List TemplateTag}

@[simp] theorem staysOpen_nil : StaysOpen depth [] ↔ 0 < depth := by
  simp [StaysOpen, depthBehind]

@[simp] theorem staysOpen_cons :
    StaysOpen depth (tag :: tags) ↔ 0 < depth ∧ StaysOpen (depth + tag.kind.change) tags := by
  constructor
  · intro h
    exact ⟨h [] List.nil_prefix, fun front hfront => h (tag :: front)
      (List.cons_prefix_cons.mpr ⟨rfl, hfront⟩)⟩
  · rintro ⟨hdepth, h⟩ front hfront
    rcases List.prefix_cons_iff.mp hfront with rfl | ⟨later, rfl, hlater⟩
    · exact hdepth
    · exact h later hlater

theorem StaysOpen.pos (h : StaysOpen depth tags) : 0 < depth :=
  h [] List.nil_prefix

@[simp] theorem not_reachesZero_nil : ¬ReachesZero depth [] last := by
  rintro ⟨before, after, heq, -⟩
  exact List.append_ne_nil_of_right_ne_nil _ (List.cons_ne_nil _ _) heq.symm

theorem ReachesZero.pos (h : ReachesZero depth tags last) : 0 < depth := by
  obtain ⟨before, after, -, hopen, -⟩ := h
  exact hopen.pos

theorem reachesZero_cons (hdepth : 0 < depth) :
    ReachesZero depth (tag :: tags) last ↔
      (tag = last ∧ depth + tag.kind.change = 0) ∨
        ReachesZero (depth + tag.kind.change) tags last := by
  constructor
  · rintro ⟨before, after, heq, hopen, hzero⟩
    cases before with
    | nil =>
      obtain ⟨rfl, rfl⟩ := List.cons.inj heq
      exact .inl ⟨rfl, hzero⟩
    | cons first before =>
      obtain ⟨rfl, rfl⟩ := List.cons.inj heq
      exact .inr ⟨before, after, rfl, (staysOpen_cons.mp hopen).2, hzero⟩
  · rintro (⟨rfl, hzero⟩ | ⟨before, after, rfl, hopen, hzero⟩)
    · exact ⟨[], tags, rfl, staysOpen_nil.mpr hdepth, hzero⟩
    · exact ⟨tag :: before, after, rfl, staysOpen_cons.mpr ⟨hdepth, hopen⟩, hzero⟩

end

section

variable {depth next : Nat} {tag last : TemplateTag} {tags : List TemplateTag} {span : Span}

theorem reachesZero_cons_of_open (h : (depth : Int) + 1 + tag.kind.change = next + 1) :
    ReachesZero (depth + 1) (tag :: tags) last ↔ ReachesZero (next + 1) tags last := by
  rw [reachesZero_cons (by omega), h]
  exact or_iff_right fun hzero => absurd hzero.2 (by omega)

theorem staysOpen_cons_of_open (h : (depth : Int) + 1 + tag.kind.change = next + 1) :
    StaysOpen (depth + 1) (tag :: tags) ↔ StaysOpen (next + 1) tags := by
  rw [staysOpen_cons, h]
  exact and_iff_right (by omega)

theorem add_change_opening (h : tag.kind = .opening) :
    (depth : Int) + 1 + tag.kind.change = (depth + 1 : Nat) + 1 := by
  rw [h]
  rfl

theorem add_change_selfClosing (h : tag.kind = .selfClosing) :
    (depth : Int) + 1 + tag.kind.change = depth + 1 := by
  rw [h]
  exact Int.add_zero _

theorem add_change_closing (h : tag.kind = .closing) :
    (depth : Int) + 1 + tag.kind.change = depth := by
  rw [h]
  exact Int.add_neg_cancel_right _ _

theorem exists_reachesZero_iff :
    (∃ last, ReachesZero (depth + 1) tags last ∧ last.span = span) ↔
      firstUnmatched depth tags = some span := by
  induction tags generalizing depth with
  | nil => simp [firstUnmatched]
  | cons tag tags ih =>
    cases hkind : tag.kind with
    | opening =>
      rw [firstUnmatched_opening hkind, ← ih]
      simp only [reachesZero_cons_of_open (add_change_opening hkind)]
    | selfClosing =>
      rw [firstUnmatched_selfClosing hkind, ← ih]
      simp only [reachesZero_cons_of_open (add_change_selfClosing hkind)]
    | closing =>
      cases depth with
      | zero =>
        have hlast (last : TemplateTag) : ReachesZero ((0 : Nat) + 1) (tag :: tags) last ↔
            tag = last := by
          rw [reachesZero_cons (by decide), add_change_closing hkind]
          exact ⟨fun h => (h.resolve_right fun h => absurd h.pos (Int.lt_irrefl 0)).1,
            fun h => .inl ⟨h, rfl⟩⟩
        rw [firstUnmatched_zero hkind, Option.some_inj]
        simp only [hlast, exists_eq_left']
      | succ outer =>
        rw [firstUnmatched_closing hkind, ← ih]
        simp only [reachesZero_cons_of_open (add_change_closing hkind)]

theorem staysOpen_iff : StaysOpen (depth + 1) tags ↔ firstUnmatched depth tags = none := by
  induction tags generalizing depth with
  | nil =>
    rw [staysOpen_nil]
    exact iff_of_true (by omega) rfl
  | cons tag tags ih =>
    cases hkind : tag.kind with
    | opening =>
      rw [firstUnmatched_opening hkind, ← ih]
      exact staysOpen_cons_of_open (add_change_opening hkind)
    | selfClosing =>
      rw [firstUnmatched_selfClosing hkind, ← ih]
      exact staysOpen_cons_of_open (add_change_selfClosing hkind)
    | closing =>
      cases depth with
      | zero =>
        rw [firstUnmatched_zero hkind, staysOpen_cons, add_change_closing hkind]
        exact iff_of_false (fun h => absurd h.2.pos (Int.lt_irrefl 0)) (Option.some_ne_none _)
      | succ outer =>
        rw [firstUnmatched_closing hkind, ← ih]
        exact staysOpen_cons_of_open (add_change_closing hkind)

end

theorem templateCloseSpan?_eq (position : Nat) (text : List Char) :
    templateCloseSpan? position text = firstUnmatched 0 (templateTags position text) :=
  templateClose?_span 0 position text

theorem templateClose?_eq_none_iff {position : Nat} {text : List Char} :
    templateClose? 0 text = none ↔ StaysOpen 1 (templateTags position text) := by
  have hspan := templateCloseSpan?_eq position text
  rw [← Option.map_eq_none_iff]
  change templateCloseSpan? position text = none ↔ _
  rw [hspan]
  exact staysOpen_iff.symm

theorem isEndTag_of_templateCloseSpan? {position : Nat} {text : List Char} {span : Span}
    (h : templateCloseSpan? position text = some span) :
    ∃ chars, Covers position text span chars ∧ IsEndTag templateName chars := by
  obtain ⟨⟨before, chars, rest⟩, hclose, rfl⟩ := Option.map_eq_some_iff.mp h
  obtain ⟨_, _, hfind⟩ := exists_findEndTag?_of_templateClose? hclose
  exact ⟨chars, ⟨before, rest, append_of_templateClose? hclose, rfl⟩, isEndTag_of_findEndTag? hfind⟩

theorem templateTag?_of_isNameChar {c : Char} (hname : isNameChar c = true) (rest : List Char) :
    templateTag? ('<' :: templateName ++ c :: rest) = none := by
  have hstart : ∀ tag after, readTag? ('<' :: templateName ++ c :: rest) = some (tag, after) →
      tag.name ≠ templateName := by
    intro tag after htag heq
    have hread := (standsBefore_of_readTag? htag).name
    have hwhole := append_of_readTag? htag
    rw [tag.chars_append, heq] at hwhole
    rw [heq, List.append_cancel_left (List.cons.inj hwhole).2] at hread
    rw [head_of_readQualifiedName? hread c rfl] at hname
    cases hname
  have hletter (more : List Char) : readEndTagOf? templateName ('<' :: 't' :: more) = none := by
    simp [readEndTagOf?, List.isPrefixOf]
  have hend : readEndTagOf? templateName ('<' :: templateName ++ c :: rest) = none := hletter _
  rw [templateTag?, hend]
  cases htag : readTag? ('<' :: templateName ++ c :: rest) with
  | none => rfl
  | some found => exact if_neg fun h => hstart found.1 found.2 htag h.1

theorem templateTag?_of_not_isBlank {c : Char} (hclose : c ≠ '>') (hblank : isBlank c = false)
    (rest : List Char) : templateTag? ('<' :: '/' :: templateName ++ c :: rest) = none := by
  have hend : readEndTagOf? templateName ('<' :: '/' :: templateName ++ c :: rest) = none := by
    rw [Option.eq_none_iff_forall_ne_some]
    rintro ⟨chars, after⟩ hread
    obtain ⟨⟨inside, rfl, -, hinside⟩, hwhole⟩ := readEndTagOf?_eq_some_iff.mp hread
    rw [List.append_assoc, List.append_assoc] at hwhole
    have hbehind := List.append_cancel_left hwhole
    cases inside with
    | nil => exact hclose (List.cons.inj hbehind).1.symm
    | cons d inside =>
      obtain rfl : d = c := (List.cons.inj hbehind).1
      rw [hinside d rfl] at hblank
      cases hblank
  have hslash (more : List Char) : readTag? ('<' :: '/' :: more) = none := by
    simp [readTag?, readTagOpen?, readQualifiedName?, readName?, isNameStart]
  have hstart : readTag? ('<' :: '/' :: templateName ++ c :: rest) = none := hslash _
  rw [templateTag?, hend, hstart]

/-- The end of a template is found by counting: it is the first end tag behind which no template is
open any more, among the tags that one reading of the text from left to right meets. Nothing is
found when the templates that are open never come to none. A tag with a longer name does not
count. -/
theorem templateClose?_counts (position : Nat) (text : List Char) :
    (∀ span, templateCloseSpan? position text = some span ↔
      ∃ last, ReachesZero 1 (templateTags position text) last ∧ last.span = span) ∧
    (templateCloseSpan? position text = none ↔ StaysOpen 1 (templateTags position text)) ∧
    (∀ span, templateCloseSpan? position text = some span →
      ∃ chars, Covers position text span chars ∧ IsEndTag templateName chars) ∧
    (∀ c rest, isNameChar c = true →
      templateTag? ('<' :: templateName ++ c :: rest) = none) ∧
    ∀ c rest, c ≠ '>' → isBlank c = false →
      templateTag? ('<' :: '/' :: templateName ++ c :: rest) = none := by
  refine ⟨fun span => ?_, ?_, fun span => isEndTag_of_templateCloseSpan?,
    fun c rest hname => templateTag?_of_isNameChar hname rest,
    fun c rest hclose hblank => templateTag?_of_not_isBlank hclose hblank rest⟩
  · rw [templateCloseSpan?_eq]
    exact exists_reachesZero_iff.symm
  · rw [templateCloseSpan?_eq]
    exact staysOpen_iff.symm

example : templateCloseSpan? 0 "<template a='</template>'></template></template>".toList =
    some ⟨37, 48⟩ := by
  decide +kernel

end TemplateMessages.Component
