import TemplateMessages.Proofs.Markup.AttributeNames
import TemplateMessages.Proofs.Markup.EndTags

set_option autoImplicit false

/-!
# Reading in front of the end of a template

What starts in the content of a template is read there as in the content on its own, but for an end
tag and a doctype that the content does not finish. These go on to the next `>`, which is that of the
end tag of the template, so that nothing is left behind them.
-/

namespace TemplateMessages.Markup

open TemplateMessages.Text

def templateStart : List Char :=
  "<template>".toList

def templateEnd : List Char :=
  '<' :: "/template>".toList

/-- A template without attributes and with this content. -/
def inTemplate (content : List Char) : List Char :=
  templateStart ++ content ++ templateEnd

/-- An end tag or a doctype starts here: what goes on to the next `>`, whatever stands in between. -/
def startsThroughBracket : List Char → Bool
  | '<' :: '/' :: c :: _ => isNameStart c
  | text => (text.take 10).map Char.toLower == "<!doctype ".toList

def Unfinished (text : List Char) : Prop :=
  startsThroughBracket text = true ∧ '>' ∉ text

variable {text name chars rest : List Char}

theorem append_templateEnd_cases {front : List Char} (h : chars ++ rest = text ++ templateEnd)
    (hlast : chars = front ++ ['>']) :
    (∃ after, chars ++ after = text ∧ rest = after ++ templateEnd) ∨ rest = [] ∧ text <+: front := by
  rcases List.append_eq_append_iff.mp h with ⟨after, htext, hrest⟩ | ⟨inside, hchars, hend⟩
  · exact .inl ⟨after, htext.symm, hrest⟩
  rcases List.eq_nil_or_concat inside with rfl | ⟨more, last, rfl⟩
  · exact .inl ⟨[], by rw [hchars, List.append_nil, List.append_nil], hend.symm⟩
  rw [List.concat_eq_append] at hchars hend
  rw [hlast, ← List.append_assoc] at hchars
  obtain ⟨hfront, hbracket⟩ := List.append_inj' hchars rfl
  rw [← hbracket] at hend
  refine .inr ⟨?_, more, hfront.symm⟩
  -- the only bracket of the end tag is its last character
  rcases List.eq_nil_or_concat rest with hnil | ⟨behind, other, hconcat⟩
  · exact hnil
  · rw [List.concat_eq_append] at hconcat
    have hsplit : "</template".toList ++ ['>'] = (more ++ ['>'] ++ behind) ++ [other] := by
      rw [List.append_assoc _ behind, ← hconcat, ← hend]
      rfl
    have hnone : '>' ∉ "</template".toList := by decide
    rw [(List.append_inj' hsplit rfl).1] at hnone
    exact absurd (by simp) hnone

@[simp] theorem readQualifiedName?_templateEnd (text : List Char) :
    readQualifiedName? (text ++ templateEnd) =
      (readQualifiedName? text).map fun (name, rest) => (name, rest ++ templateEnd) :=
  readQualifiedName?_append_stop (by decide) (by decide) (by decide) text _

@[simp] theorem skipBlanks_templateEnd (text : List Char) :
    skipBlanks (text ++ templateEnd) = skipBlanks text ++ templateEnd :=
  dropWhile_append_stop (by decide) text _

@[simp] theorem takeWhile_isBlank_templateEnd (text : List Char) :
    (text ++ templateEnd).takeWhile isBlank = text.takeWhile isBlank :=
  takeWhile_append_stop (by decide) text _

theorem readQuoted?_eq_none {quote : Char} (h : quote ∉ text) : readQuoted? quote text = none := by
  induction text with
  | nil => rfl
  | cons c cs ih =>
    have hne : c ≠ quote := fun heq => h (heq ▸ List.mem_cons_self)
    rw [readQuoted?, if_neg hne, ih fun hmem => h (List.mem_cons_of_mem _ hmem)]
    rfl

theorem readQuoted?_append_of_not_mem {quote : Char} (h : quote ∉ rest) (text : List Char) :
    readQuoted? quote (text ++ rest) =
      (readQuoted? quote text).map fun (value, after) => (value, after ++ rest) := by
  induction text with
  | nil => exact readQuoted?_eq_none h
  | cons c cs ih =>
    rw [List.cons_append, readQuoted?, readQuoted?]
    split
    · rfl
    · rw [ih]
      cases readQuoted? quote cs <;> rfl

@[simp] theorem readBareValue?_templateEnd (text : List Char) :
    readBareValue? (text ++ templateEnd) =
      (readBareValue? text).map fun (quote, value, rest) => (quote, value, rest ++ templateEnd) := by
  have hbare : isBareValueChar '<' = false := by decide
  cases text with
  | nil => rfl
  | cons c cs =>
    rw [List.cons_append, readBareValue?, readBareValue?]
    split
    · rename_i hquote
      rw [readQuoted?_append_of_not_mem (by rw [hquote]; decide)]
      cases readQuoted? c cs <;> rfl
    split
    · rename_i hquote
      rw [readQuoted?_append_of_not_mem (by rw [hquote]; decide)]
      cases readQuoted? c cs <;> rfl
    split
    · rw [templateEnd, takeWhile_append_stop hbare, dropWhile_append_stop hbare]
      rfl
    · rfl

@[simp] theorem readValue?_templateEnd (text : List Char) :
    readValue? (text ++ templateEnd) =
      (readValue? text).map fun (value, rest) => (value, rest ++ templateEnd) := by
  unfold readValue?
  rw [skipBlanks_templateEnd, takeWhile_isBlank_templateEnd]
  cases skipBlanks text with
  | nil => rfl
  | cons c after =>
    by_cases hequals : c = '='
    · subst hequals
      simp only [List.cons_append, skipBlanks_templateEnd, takeWhile_isBlank_templateEnd,
        readBareValue?_templateEnd]
      cases readBareValue? (skipBlanks after) <;> rfl
    · simp only [List.cons_append]
      split
      · rename_i heq
        exact absurd (List.cons.inj heq).1 hequals
      · split
        · rename_i heq
          exact absurd (List.cons.inj heq).1 hequals
        · rfl

theorem endsNames_templateEnd : EndsNames templateEnd := by
  refine ⟨fun c hc => ?_, by decide⟩
  obtain rfl : '<' = c := Option.some.inj hc
  decide

@[simp] theorem readAttribute?_templateEnd (text : List Char) :
    readAttribute? (text ++ templateEnd) =
      (readAttribute? text).map fun (attr, rest) => (attr, rest ++ templateEnd) := by
  unfold readAttribute?
  rw [skipBlanks_templateEnd, readAttributeName?_append endsNames_templateEnd,
    takeWhile_isBlank_templateEnd]
  cases readAttributeName? (skipBlanks text) with
  | none => rfl
  | some read =>
    obtain ⟨name, dynamic, rest⟩ := read
    simp only [Option.map_some, readValue?_templateEnd]
    cases readValue? rest <;> rfl

@[simp] theorem readAttributes_templateEnd (text : List Char) :
    readAttributes (text ++ templateEnd) =
      ((readAttributes text).1, (readAttributes text).2 ++ templateEnd) := by
  fun_induction readAttributes text with
  | case1 text h =>
    rw [readAttributes]
    split
    · rfl
    · rename_i hread
      rw [readAttribute?_templateEnd, h] at hread
      cases hread
  | case2 text attr rest h _ attrs after heq ih =>
    rw [readAttributes]
    split
    · rename_i hread
      rw [readAttribute?_templateEnd, h] at hread
      cases hread
    · rename_i found more hread
      rw [readAttribute?_templateEnd, h] at hread
      cases hread
      rw [ih, heq]

@[simp] theorem readClose_templateEnd (text : List Char) :
    readClose (text ++ templateEnd) =
      ((readClose text).1, (readClose text).2.1, (readClose text).2.2 ++ templateEnd) := by
  unfold readClose
  rw [skipBlanks_templateEnd, takeWhile_isBlank_templateEnd]
  rcases skipBlanks text with _ | ⟨c, rest⟩
  · rfl
  by_cases hplain : c = '>'
  · subst hplain
    rfl
  by_cases hslash : c = '/'
  · subst hslash
    rcases rest with _ | ⟨d, rest⟩
    · rfl
    · by_cases hd : d = '>'
      · subst hd
        rfl
      · simp [hd]
  · simp [hplain, hslash]

@[simp] theorem readTagOpen?_templateEnd (text : List Char) :
    readTagOpen? (text ++ templateEnd) =
      (readTagOpen? text).map fun (name, rest) => (name, rest ++ templateEnd) := by
  cases text with
  | nil => rfl
  | cons c cs =>
    by_cases hc : c = '<'
    · subst hc
      exact readQualifiedName?_templateEnd cs
    · simp [readTagOpen?, hc]

@[simp] theorem readTag?_templateEnd (text : List Char) :
    readTag? (text ++ templateEnd) =
      (readTag? text).map fun (tag, rest) => (tag, rest ++ templateEnd) := by
  unfold readTag?
  rw [readTagOpen?_templateEnd]
  cases readTagOpen? text with
  | none => rfl
  | some read =>
    obtain ⟨name, rest⟩ := read
    simp only [Option.map_some]
    rw [readAttributes_templateEnd]
    dsimp only
    simp

theorem readTag?_templateEnd_of_some {tag : TagText} (h : readTag? text = some (tag, rest)) :
    readTag? (text ++ templateEnd) = some (tag, rest ++ templateEnd) := by
  simp [h]

theorem readEndTag?_templateEnd_of_some (h : readEndTag? text = some (name, chars, rest)) :
    readEndTag? (text ++ templateEnd) = some (name, chars, rest ++ templateEnd) := by
  rw [← (append_of_readEndTag? h).1, List.append_assoc]
  exact readEndTag?_rest h _

theorem not_mem_of_readQualifiedName? (h : readQualifiedName? text = some (name, rest)) :
    '>' ∉ name := by
  intro hmem
  obtain ⟨front, behind, hname⟩ := List.append_of_mem hmem
  have hwhole := (append_of_readQualifiedName? h).1
  rw [← hwhole, hname, List.append_assoc, List.cons_append, readQualifiedName?_append_bracket] at h
  obtain ⟨⟨short, after⟩, hread, heq⟩ := Option.map_eq_some_iff.mp h
  obtain ⟨rfl, -⟩ := Prod.mk.inj heq
  have hlength := congrArg List.length (append_of_readQualifiedName? hread).1
  simp only [List.length_append, List.length_cons] at hlength
  omega

theorem exists_of_readQualifiedName? (h : readQualifiedName? text = some (name, rest)) :
    ∃ c cs, name = c :: cs ∧ isNameStart c = true := by
  obtain ⟨whole, hne⟩ := append_of_readQualifiedName? h
  obtain ⟨c, cs, rfl⟩ := List.exists_cons_of_ne_nil hne
  refine ⟨c, cs, rfl, ?_⟩
  rw [← whole] at h
  cases hstart : isNameStart c with
  | true => rfl
  | false => simp [readQualifiedName?, readName?, hstart] at h

theorem exists_of_readEndTag? (h : readEndTag? text = some (name, chars, rest)) :
    ∃ c front, chars = '<' :: '/' :: c :: front ++ ['>'] ∧ isNameStart c = true ∧
      '>' ∉ c :: front := by
  unfold readEndTag? at h
  split at h
  · split at h
    · cases h
    · rename_i read after hname
      split at h
      · obtain ⟨rfl, rfl, rfl⟩ := by simpa only [Option.some.injEq, Prod.mk.injEq] using h
        have hread := not_mem_of_readQualifiedName? hname
        obtain ⟨c, cs, rfl, hstart⟩ := exists_of_readQualifiedName? hname
        refine ⟨c, cs ++ after.takeWhile (· ≠ '>'), by simp, hstart, ?_⟩
        rw [← List.cons_append, List.mem_append, not_or]
        exact ⟨hread, not_mem_takeWhile_ne after⟩
      · cases h
  · cases h

/-- An end tag in front of the end tag is one of the content, or the content has an end tag that it
does not finish. -/
theorem readEndTag?_templateEnd_cases (hne : text ≠ [])
    (h : readEndTag? (text ++ templateEnd) = some (name, chars, rest)) :
    (∃ after, readEndTag? text = some (name, chars, after) ∧ rest = after ++ templateEnd) ∨
      rest = [] ∧ Unfinished text := by
  obtain ⟨c, front, hchars, hstart, hfront⟩ := exists_of_readEndTag? h
  have hwhole := (append_of_readEndTag? h).1
  rcases append_templateEnd_cases hwhole hchars with ⟨after, rfl, rfl⟩ | ⟨hrest, hinitial⟩
  · exact .inl ⟨after, readEndTag?_rest h after, rfl⟩
  refine .inr ⟨hrest, ?_, fun hmem => ?_⟩
  · -- the first character of the name is in the content, for the end tag starts with none
    rw [hchars] at hwhole
    rcases text with _ | ⟨a, _ | ⟨b, _ | ⟨d, text⟩⟩⟩
    · exact absurd rfl hne
    · cases (List.cons.inj (List.cons.inj hwhole).2).1
    · obtain rfl : c = '<' := (List.cons.inj (List.cons.inj (List.cons.inj hwhole).2).2).1
      cases (show isNameStart '<' = false by decide).symm.trans hstart
    · obtain ⟨after, heq⟩ := hinitial
      cases heq
      exact hstart
  · rcases List.mem_cons.mp (hinitial.subset hmem) with heq | hinside
    · cases heq
    rcases List.mem_cons.mp hinside with heq | hinside
    · cases heq
    exact hfront hinside

theorem length_le_of_keyword (hne : text ≠ [])
    (h : ((text ++ templateEnd).take 10).map Char.toLower = "<!doctype ".toList) :
    10 ≤ text.length := by
  by_contra hshort
  obtain ⟨c, cs, rfl⟩ := List.exists_cons_of_ne_nil hne
  obtain ⟨missing, hmissing⟩ : ∃ missing, 10 = (c :: cs).length + (missing + 1) :=
    ⟨10 - (c :: cs).length - 1, by omega⟩
  rw [hmissing, List.take_length_add_append] at h
  have hbracket : '<' ∈ "!doctype ".toList := by
    have htail := congrArg List.tail h
    rw [List.cons_append, List.map_cons, List.tail_cons] at htail
    have hlower : ('<' : Char).toLower = '<' := by decide
    rw [← show "<!doctype ".toList.tail = "!doctype ".toList from rfl, ← htail, templateEnd,
      List.take_succ_cons, ← hlower]
    exact List.mem_map_of_mem (by simp)
  revert hbracket
  decide

theorem readDoctype?_templateEnd_of_some (h : readDoctype? text = some (chars, rest)) :
    readDoctype? (text ++ templateEnd) = some (chars, rest ++ templateEnd) := by
  rw [← (append_of_readDoctype? h).1, List.append_assoc]
  exact readDoctype?_rest h

theorem exists_of_readDoctype? (h : readDoctype? text = some (chars, rest)) :
    ∃ front, chars = front ++ ['>'] ∧ '>' ∉ front ∧
      (text.take 10).map Char.toLower = "<!doctype ".toList := by
  unfold readDoctype? at h
  dsimp only at h
  split at h
  · rename_i hkeyword
    split at h
    · rename_i c cs after htake hdrop
      obtain ⟨rfl, rfl⟩ := Prod.mk.inj (Option.some.inj h)
      refine ⟨_, rfl, ?_, hkeyword⟩
      rw [List.mem_append, not_or, ← htake]
      refine ⟨fun hmem => ?_, not_mem_takeWhile_ne _⟩
      have hbracket : ('>' : Char).toLower = '>' := by decide
      have hlower := List.mem_map_of_mem (f := Char.toLower) hmem
      rw [hkeyword, hbracket] at hlower
      revert hlower
      decide
    · cases h
  · cases h

/-- A doctype in front of the end tag is one of the content, or the content has a doctype that it
does not finish. -/
theorem readDoctype?_templateEnd_cases (hne : text ≠ [])
    (h : readDoctype? (text ++ templateEnd) = some (chars, rest)) :
    (∃ after, readDoctype? text = some (chars, after) ∧ rest = after ++ templateEnd) ∨
      rest = [] ∧ Unfinished text := by
  obtain ⟨front, hchars, hfront, hkeyword⟩ := exists_of_readDoctype? h
  rcases append_templateEnd_cases (append_of_readDoctype? h).1 hchars with
    ⟨after, rfl, rfl⟩ | ⟨hrest, hinitial⟩
  · exact .inl ⟨after, readDoctype?_rest h, rfl⟩
  refine .inr ⟨hrest, ?_, fun hmem => hfront (hinitial.subset hmem)⟩
  rw [List.take_append_of_le_length (length_le_of_keyword hne hkeyword)] at hkeyword
  unfold startsThroughBracket
  split
  · cases hkeyword
  · exact beq_iff_eq.mpr hkeyword

theorem prefix_templateEnd_iff {phrase : List Char} (hphrase : '<' ∉ phrase) (hne : text ≠ []) :
    '<' :: phrase <+: text ++ templateEnd ↔ '<' :: phrase <+: text := by
  refine ⟨fun h => ?_, fun h => h.trans (List.prefix_append _ _)⟩
  obtain ⟨c, cs, rfl⟩ := List.exists_cons_of_ne_nil hne
  rw [List.cons_append, List.cons_prefix_cons] at h
  exact List.cons_prefix_cons.mpr ⟨h.1, prefix_of_not_mem hphrase h.2⟩

theorem isPrefixOf_templateEnd {phrase : List Char} (hphrase : '<' ∉ phrase) (hne : text ≠ []) :
    ('<' :: phrase).isPrefixOf (text ++ templateEnd) = ('<' :: phrase).isPrefixOf text := by
  rw [Bool.eq_iff_iff, List.isPrefixOf_iff_prefix, List.isPrefixOf_iff_prefix]
  exact prefix_templateEnd_iff hphrase hne

theorem isPrefixOf_comment_templateEnd (hne : text ≠ []) :
    "<!--".toList.isPrefixOf (text ++ templateEnd) = "<!--".toList.isPrefixOf text ∧
      "<![".toList.isPrefixOf (text ++ templateEnd) = "<![".toList.isPrefixOf text :=
  ⟨isPrefixOf_templateEnd (by decide) hne, isPrefixOf_templateEnd (by decide) hne⟩

theorem through_templateEnd (phrase : List Char) {c : Char} (hphrase : '<' ∉ phrase ++ [c])
    (hend : contains (phrase ++ [c]) "/template>".toList = false)
    (h : through (phrase ++ [c]) text = (chars, rest)) :
    through (phrase ++ [c]) (text ++ templateEnd) = (chars, rest ++ templateEnd) ∨
      rest = [] ∧ through (phrase ++ [c]) (text ++ templateEnd) = (text ++ templateEnd, []) := by
  unfold through at h ⊢
  cases hbreak : breakOn? (phrase ++ [c]) text with
  | some parts =>
    obtain ⟨before, after⟩ := parts
    rw [hbreak] at h
    obtain ⟨rfl, rfl⟩ := Prod.mk.inj h
    rw [← append_of_breakOn? hbreak, List.append_assoc _ after, breakOn?_append_rest hbreak]
    exact .inl rfl
  | none =>
    rw [hbreak] at h
    have hnone : breakOn? (phrase ++ [c]) (text ++ templateEnd) = none := by
      rw [← Option.not_isSome_iff_eq_none]
      intro hfound
      rcases contains_append_of_not_mem hphrase hfound with hfront | hback
      · rw [contains, hbreak] at hfront
        cases hfront
      · rw [hend] at hback
        cases hback
    rw [hnone]
    exact .inr ⟨(Prod.mk.inj h).2.symm, rfl⟩

theorem readConstruct?_comment_templateEnd
    (h : readConstruct? text = some (.comment, chars, rest)) :
    readConstruct? (text ++ templateEnd) = some (.comment, chars, rest ++ templateEnd) ∨
      rest = [] ∧
        readConstruct? (text ++ templateEnd) = some (.comment, text ++ templateEnd, []) := by
  rcases readConstruct?_cases h with ⟨hopen, hthrough⟩ | ⟨hopen, hthrough⟩
  · have hopens := hopen.trans (List.prefix_append text templateEnd)
    exact (through_templateEnd ['-', '-'] (by decide) (by decide) hthrough).imp
      (readConstruct?_comment hopens) (And.imp_right (readConstruct?_comment hopens))
  · have hopens := hopen.trans (List.prefix_append text templateEnd)
    exact (through_templateEnd [']'] (by decide) (by decide) hthrough).imp
      (readConstruct?_section hopens) (And.imp_right (readConstruct?_section hopens))

theorem findEndTag?_templateEnd (h : findEndTag? name text = none) :
    findEndTag? name (text ++ templateEnd) = none ∨
      ∃ inner last, findEndTag? name (text ++ templateEnd) = some (inner, last, []) := by
  cases hfound : findEndTag? name (text ++ templateEnd) with
  | none => exact .inl rfl
  | some found =>
    obtain ⟨inner, last, rest⟩ := found
    obtain ⟨front, hlast, -⟩ := exists_of_findEndTag? hfound
    have hwhole := (append_of_findEndTag? hfound).1
    refine .inr ⟨inner, last, ?_⟩
    have hends : inner ++ last = (inner ++ front) ++ ['>'] := by rw [hlast, List.append_assoc]
    rcases append_templateEnd_cases hwhole hends with ⟨after, rfl, -⟩ | ⟨rfl, -⟩
    · rw [findEndTag?_rest hfound after] at h
      cases h
    · rfl

/-- Markup starts where it does in the content on its own, unless an end tag starts there that the
content does not finish. -/
theorem startsMarkup_templateEnd (hne : text ≠ []) :
    startsMarkup (text ++ templateEnd) = startsMarkup text ∨
      Unfinished text ∧ ∃ name chars, readEndTag? (text ++ templateEnd) = some (name, chars, []) := by
  obtain ⟨hcomment, hsection⟩ := isPrefixOf_comment_templateEnd hne
  unfold startsMarkup
  rw [hcomment, hsection, readTagOpen?_templateEnd, Option.isSome_map]
  cases hread : readEndTag? text with
  | some found =>
    rw [readEndTag?_templateEnd_of_some hread]
    exact .inl rfl
  | none =>
    cases hinside : readEndTag? (text ++ templateEnd) with
    | none => exact .inl rfl
    | some found =>
      obtain ⟨name, chars, rest⟩ := found
      rcases readEndTag?_templateEnd_cases hne hinside with
        ⟨after, hafter, -⟩ | ⟨rfl, hunfinished⟩
      · rw [hread] at hafter
        cases hafter
      · exact .inr ⟨hunfinished, name, chars, rfl⟩

/-- A text run of the content ends where it does in the content on its own, or in front of an end tag
that the content does not finish. -/
theorem textRun_templateEnd (text : List Char) :
    textRun (text ++ templateEnd) = ((textRun text).1, (textRun text).2 ++ templateEnd) ∨
      ∃ front tail, front ++ tail = text ∧ front <+: (textRun text).1 ∧ Unfinished tail ∧
        textRun (text ++ templateEnd) = (front, tail ++ templateEnd) ∧
        ∃ name chars, readEndTag? (tail ++ templateEnd) = some (name, chars, []) := by
  induction text with
  | nil => exact .inl (by decide)
  | cons c cs ih =>
    rcases startsMarkup_templateEnd (List.cons_ne_nil c cs) with
      heq | ⟨hunfinished, name, chars, hend⟩
    · rw [List.cons_append] at heq ⊢
      rw [textRun, textRun, heq]
      split
      · exact .inl rfl
      · rcases ih with hsame | ⟨front, tail, hwhole, hinitial, hunfinished, hcut, hend⟩
        · rw [hsame]
          exact .inl rfl
        · rw [hcut]
          exact .inr ⟨c :: front, tail, by rw [List.cons_append, hwhole],
            List.cons_prefix_cons.mpr ⟨rfl, hinitial⟩, hunfinished, rfl, hend⟩
    · have hmarkup : startsMarkup (c :: cs ++ templateEnd) = true := by
        unfold startsMarkup
        rw [hend]
        simp
      refine .inr ⟨[], c :: cs, rfl, List.nil_prefix, hunfinished, ?_, name, chars, hend⟩
      rw [List.cons_append] at hmarkup ⊢
      rw [textRun, if_pos hmarkup]

theorem readConstruct?_templateEnd_of_none (hne : text ≠ []) (h : readConstruct? text = none) :
    readConstruct? (text ++ templateEnd) = none ∨
      Unfinished text ∧ ((∃ chars, readDoctype? (text ++ templateEnd) = some (chars, [])) ∨
        ∃ name chars, readEndTag? (text ++ templateEnd) = some (name, chars, [])) := by
  cases hinside : readConstruct? (text ++ templateEnd) with
  | none => exact .inl rfl
  | some found =>
    obtain ⟨construct, chars, rest⟩ := found
    have hcase := readConstruct?_cases hinside
    cases construct with
    | comment =>
      exfalso
      rcases hcase with ⟨hopen, -⟩ | ⟨hopen, -⟩
      · have halone := (prefix_templateEnd_iff (by decide) hne).mp hopen
        cases h.symm.trans (readConstruct?_comment halone rfl)
      · have halone := (prefix_templateEnd_iff (by decide) hne).mp hopen
        cases h.symm.trans (readConstruct?_section halone rfl)
    | doctype =>
      rcases readDoctype?_templateEnd_cases hne hcase with ⟨after, hafter, -⟩ | ⟨rfl, hunfinished⟩
      · cases h.symm.trans (readConstruct?_of_readDoctype? hafter)
      · exact .inr ⟨hunfinished, .inl ⟨chars, hcase⟩⟩
    | endTag label =>
      obtain ⟨name, hread, -⟩ := hcase
      rcases readEndTag?_templateEnd_cases hne hread with ⟨after, hafter, -⟩ | ⟨rfl, hunfinished⟩
      · cases h.symm.trans (readConstruct?_of_readEndTag? hafter)
      · exact .inr ⟨hunfinished, .inr ⟨name, chars, hread⟩⟩
    | startTag tag =>
      rw [readTag?_templateEnd] at hcase
      obtain ⟨⟨_, after⟩, hread, -⟩ := Option.map_eq_some_iff.mp hcase.1
      cases h.symm.trans (readConstruct?_of_readTag? hread)

end TemplateMessages.Markup
