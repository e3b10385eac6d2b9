import TemplateMessages.Call.Arguments
import TemplateMessages.Proofs.Expression.Splitting
import TemplateMessages.Proofs.Text.Characters

set_option autoImplicit false

/-!
# The parts of a call's arguments

The key is searched for from the front and the locale from behind, and neither search looks at
brackets. In balanced arguments they still find the parts between the commas outside brackets and
strings: a quote at the end closes the string that the quote of its kind in front of it opened.
-/

namespace TemplateMessages.Call

open TemplateMessages.Expression (Nesting Quote splitTopLevel splitTopLevel_of_passes
  splitTopLevel_append_of_passes passes_blanks)
open TemplateMessages.Text

def IsLiteral (part inside : List Char) : Prop :=
  ∃ quote : Quote, quote.toChar ∉ inside ∧ trim part = quote.toChar :: (inside ++ [quote.toChar])

def trimmed? (text : List Char) : Option String :=
  if trim text = [] then none else some (String.ofList (trim text))

def joined (parts : List (List Char)) : List Char :=
  [','].intercalate parts

/-- The key is the first part of the text between commas outside brackets and strings. A locale is
the last part, and the params are what is left between them. -/
structure Arguments.FromParts (arguments : Arguments) (text first : List Char)
    (later : List (List Char)) : Prop where
  split : splitTopLevel text ',' = some (first :: later)
  whole : joined (first :: later) = text
  key : IsLiteral first arguments.key.toList
  withLocale : ∀ locale, arguments.locale = some locale → ∃ middle last,
    later = middle ++ [last] ∧ IsLiteral last locale.toList ∧
      arguments.params = trimmed? (joined middle)
  withoutLocale : arguments.locale = none → arguments.params = trimmed? (joined later)

variable {text part inside rest later : List Char}

theorem isLiteral_of_quoted {quote : Quote} {before behind : List Char}
    (hmem : quote.toChar ∉ inside) (hbefore : ∀ c ∈ before, isBlank c = true)
    (hbehind : ∀ c ∈ behind, isBlank c = true) :
    IsLiteral (before ++ (quote.toChar :: (inside ++ [quote.toChar])) ++ behind) inside := by
  have hquote : isBlank quote.toChar = false := by cases quote <;> decide
  exact ⟨quote, hmem, trim_between_blanks inside (List.all_eq_true.mpr hbefore)
    (List.all_eq_true.mpr hbehind) hquote hquote⟩

theorem IsLiteral.passes (h : IsLiteral part inside) : Nesting.Passes ',' part := by
  obtain ⟨quote, hmem, htrim⟩ := h
  obtain ⟨front, back, heq, hfront, hback⟩ := eq_append_trim part
  rw [heq, htrim]
  exact (passes_blanks (by decide) hfront).append
    ((Nesting.passes_string (by decide) hmem).append (passes_blanks (by decide) hback))

theorem IsLiteral.eq_empty (h : IsLiteral part inside) {nesting : Nesting}
    (hend : nesting.feedAll? part = some .empty) : nesting = .empty := by
  obtain ⟨quote, hmem, htrim⟩ := h
  obtain ⟨front, back, heq, hfront, hback⟩ := eq_append_trim part
  rw [heq, htrim, Nesting.feedAll?_append, Nesting.feedAll?_blanks hfront, Option.bind_some,
    Nesting.feedAll?_append] at hend
  obtain ⟨behind, hliteral, hblanks⟩ := Option.bind_eq_some_iff.mp hend
  rw [Nesting.feedAll?_blanks hback] at hblanks
  rw [Option.some.inj hblanks] at hliteral
  exact Nesting.eq_empty_of_string hmem hliteral

theorem exists_blanks (text : List Char) :
    ∃ gap, (∀ c ∈ gap, isBlank c = true) ∧ gap ++ text.dropWhile isBlank = text :=
  ⟨_, fun _ hc => List.mem_takeWhile_imp hc, List.takeWhile_append_dropWhile⟩

theorem cut_of_dropWhile {c d : Char} {cs : List Char} (h : cs.dropWhile (· ≠ c) = d :: rest) :
    cs = cs.takeWhile (· ≠ c) ++ c :: rest ∧ c ∉ cs.takeWhile (· ≠ c) := by
  have hne : cs.dropWhile (· ≠ c) ≠ [] := by
    rw [h]
    exact List.cons_ne_nil _ _
  have hfound := List.head_dropWhile_not (fun e => decide (e ≠ c)) hne
  simp only [h, List.head_cons, decide_eq_false_iff_not, ne_eq, not_not] at hfound
  subst hfound
  refine ⟨?_, fun hmem => ?_⟩
  · rw [← h, List.takeWhile_append_dropWhile]
  · have hother := List.mem_takeWhile_imp hmem
    exact of_decide_eq_true hother rfl

theorem of_afterKey (h : afterKey text = .ok rest) :
    ∃ gap, (∀ c ∈ gap, isBlank c = true) ∧
      ((text = gap ∧ rest = []) ∨ ∃ later, text = gap ++ ',' :: later ∧ rest = trim later) := by
  obtain ⟨gap, hgap, hcut⟩ := exists_blanks text
  unfold afterKey trimStart at h
  split at h
  · rename_i hnil
    rw [hnil, List.append_nil] at hcut
    exact ⟨gap, hgap, .inl ⟨hcut.symm, (Except.ok.inj h).symm⟩⟩
  · rename_i later hcomma
    rw [hcomma] at hcut
    exact ⟨gap, hgap, .inr ⟨later, hcut.symm, (Except.ok.inj h).symm⟩⟩
  · cases h

theorem exists_first {quote : Quote} {front back key after found : List Char}
    (hcs : text = front ++ (quote.toChar :: (key ++ quote.toChar :: after) ++ back))
    (hmem : quote.toChar ∉ key) (hfront : ∀ c ∈ front, isBlank c = true)
    (hback : ∀ c ∈ back, isBlank c = true) (h : afterKey after = .ok found) :
    ∃ first, IsLiteral first key ∧ ((text = first ∧ found = []) ∨
      ∃ later, text = first ++ ',' :: later ∧ found = trim later) := by
  obtain ⟨gap, hgap, ⟨rfl, rfl⟩ | ⟨later, rfl, rfl⟩⟩ := of_afterKey h
  · refine ⟨text, ?_, .inl ⟨rfl, rfl⟩⟩
    have hblanks : ∀ c ∈ after ++ back, isBlank c = true := by
      intro c hc
      exact (List.mem_append.mp hc).elim (hgap c) (hback c)
    have hliteral := isLiteral_of_quoted hmem hfront hblanks
    rw [hcs]
    simpa only [List.append_assoc, List.cons_append, List.singleton_append,
      List.nil_append] using hliteral
  · refine ⟨_, isLiteral_of_quoted hmem hfront hgap, .inr ⟨later ++ back, ?_, ?_⟩⟩
    · rw [hcs]
      simp only [List.append_assoc, List.cons_append, List.nil_append]
    · exact (trim_append_blanks later hback).symm

theorem of_splitKey {key : String} (h : splitKey text = .ok (key, rest)) :
    ∃ first, IsLiteral first key.toList ∧
      ((text = first ∧ rest = []) ∨ ∃ later, text = first ++ ',' :: later ∧ rest = trim later) := by
  obtain ⟨front, back, heq, hfront, hback⟩ := eq_append_trim text
  unfold splitKey at h
  dsimp only at h
  split at h
  · cases h
  rename_i c cs htrim
  split at h
  · cases h
  split at h
  · cases h
  split at h
  · cases h
  rename_i quote hquote
  obtain rfl := Expression.Quote.ofChar?_eq_some_iff.mp hquote
  split at h
  · cases h
  rename_i d after hafter
  obtain ⟨hcs, hmem⟩ := cut_of_dropWhile hafter
  split at h
  · cases h
  cases hrest : afterKey after with
  | error => simp [hrest, Except.map] at h
  | ok found =>
    simp only [hrest, Except.map, Except.ok.injEq, Prod.mk.injEq] at h
    obtain ⟨rfl, rfl⟩ := h
    rw [htrim, hcs] at heq
    rw [String.toList_ofList]
    exact exists_first heq hmem hfront hback hrest

@[simp] theorem splitLocale_trim (text : List Char) :
    splitLocale (trim text) = splitLocale text := by
  unfold splitLocale
  simp

theorem trimmed?_blanks_append {before : List Char} (h : ∀ c ∈ before, isBlank c = true)
    (text : List Char) : trimmed? (before ++ text) = trimmed? text := by
  rw [trimmed?, trim_blanks_append _ h, trimmed?]

theorem of_splitLocale {params locale : Option String}
    (h : splitLocale text = .ok (params, locale)) :
    (locale = none ∧ params = trimmed? text) ∨ ∃ found last, locale = some found ∧
      IsLiteral last found.toList ∧ ((text = last ∧ params = none) ∨
        ∃ before, text = before ++ ',' :: last ∧ params = trimmed? before) := by
  obtain ⟨front, back, heq, hfront, hback⟩ := eq_append_trim text
  -- From the end: a quote, the literal up to the quote before it, then a comma or nothing.
  unfold splitLocale at h
  dsimp only at h
  split at h
  · rename_i hnil
    simp only [Except.ok.injEq, Prod.mk.injEq] at h
    obtain ⟨rfl, rfl⟩ := h
    exact .inl ⟨rfl, (if_pos (List.reverse_eq_nil_iff.mp hnil)).symm⟩
  rename_i last body hreverse
  have hparams : trimmed? text = some (String.ofList (trim text)) := by
    apply if_neg
    intro hnil
    rw [hnil] at hreverse
    cases hreverse
  rw [← hparams] at h
  split at h
  · simp only [Except.ok.injEq, Prod.mk.injEq] at h
    exact .inl ⟨h.2.symm, h.1.symm⟩
  rename_i quote hquote
  obtain rfl := Expression.Quote.ofChar?_eq_some_iff.mp hquote
  split at h
  · simp only [Except.ok.injEq, Prod.mk.injEq] at h
    exact .inl ⟨h.2.symm, h.1.symm⟩
  rename_i d ahead hahead
  obtain ⟨hbody, hmem⟩ := cut_of_dropWhile hahead
  generalize body.takeWhile (· ≠ quote.toChar) = found at hbody hmem h
  split at h
  · simp only [Except.ok.injEq, Prod.mk.injEq] at h
    exact .inl ⟨h.2.symm, h.1.symm⟩
  right
  have htrim : trim text = ahead.reverse ++
      (quote.toChar :: (found.reverse ++ [quote.toChar])) := by
    rw [← List.reverse_reverse (trim text), hreverse, hbody]
    simp
  obtain ⟨gap, hgap, hcut⟩ := exists_blanks ahead
  rw [← List.mem_reverse] at hmem
  split at h
  · rename_i hnil
    simp only [Except.ok.injEq, Prod.mk.injEq] at h
    obtain ⟨rfl, rfl⟩ := h
    refine ⟨_, text, rfl, ?_, .inl ⟨rfl, rfl⟩⟩
    rw [hnil, List.append_nil] at hcut
    subst hcut
    have hblanks : ∀ c ∈ front ++ gap.reverse, isBlank c = true := by
      intro c hc
      exact (List.mem_append.mp hc).elim (hfront c) fun hmem => hgap c (List.mem_reverse.mp hmem)
    have hliteral := isLiteral_of_quoted hmem hblanks hback
    rw [String.toList_ofList, heq, htrim]
    simpa only [List.append_assoc] using hliteral
  · rename_i before hcomma
    simp only [Except.ok.injEq, Prod.mk.injEq] at h
    obtain ⟨rfl, rfl⟩ := h
    rw [hcomma] at hcut
    have hliteral := isLiteral_of_quoted hmem
      (fun c hc => hgap c (List.mem_reverse.mp hc)) hback
    refine ⟨_, _, rfl, by rwa [String.toList_ofList], .inr ⟨front ++ before.reverse, ?_, ?_⟩⟩
    · rw [heq, htrim, ← hcut]
      simp
    · rw [trimmed?_blanks_append hfront, trimmed?]
      simp only [List.isEmpty_iff]
  · cases h

theorem later_parts {params locale : Option String}
    (hbalanced : Nesting.empty.feedAll? text = some .empty)
    (h : splitLocale text = .ok (params, locale)) :
    ∃ parts, splitTopLevel text ',' = some parts ∧ parts ≠ [] ∧ joined parts = text ∧
      (∀ found, locale = some found → ∃ middle last, parts = middle ++ [last] ∧
        IsLiteral last found.toList ∧ params = trimmed? (joined middle)) ∧
      (locale = none → params = trimmed? (joined parts)) := by
  have hcomma := Nesting.feed?_comma .empty
  obtain ⟨parts, hparts, hne, hjoined, -⟩ := Nesting.exists_splitFrom hcomma hbalanced
  refine ⟨parts, hparts, hne, hjoined, ?_, ?_⟩
  · intro found hfound
    obtain ⟨hnone, _⟩ | ⟨_, last, hlocale, hliteral, hplace⟩ := of_splitLocale h
    · rw [hnone] at hfound
      cases hfound
    obtain rfl := Option.some.inj (hlocale.symm.trans hfound)
    have hlast : splitTopLevel last ',' = some [last] := splitTopLevel_of_passes hliteral.passes
    obtain ⟨rfl, rfl⟩ | ⟨before, rfl, rfl⟩ := hplace
    · obtain rfl := Option.some.inj (hlast.symm.trans hparts)
      exact ⟨[], text, rfl, hliteral, rfl⟩
    · rw [Nesting.feedAll?_append] at hbalanced
      obtain ⟨behind, hbefore, hend⟩ := Option.bind_eq_some_iff.mp hbalanced
      rw [Nesting.feedAll?_cons, Nesting.feed?_comma, Option.bind_some] at hend
      obtain rfl := hliteral.eq_empty hend
      obtain ⟨middle, _, _, hmiddle, hsplit⟩ := Nesting.exists_splitFrom hcomma hbefore
      have hwhole : splitTopLevel (before ++ ',' :: last) ',' = some (middle ++ [last]) := by
        rw [splitTopLevel, hsplit]
        rw [splitTopLevel] at hlast
        rw [hlast]
        rfl
      obtain rfl := Option.some.inj (hwhole.symm.trans hparts)
      refine ⟨middle, last, rfl, hliteral, ?_⟩
      rw [joined, hmiddle]
  · intro hnone
    obtain ⟨_, hparams⟩ | ⟨_, _, hlocale, _⟩ := of_splitLocale h
    · rw [joined, hjoined, hparams]
    · rw [hnone] at hlocale
      cases hlocale

theorem of_parse {arguments : Arguments} (h : Arguments.parse text = .ok arguments) :
    ∃ key rest params locale, splitKey text = .ok (key, rest) ∧
      splitLocale rest = .ok (params, locale) ∧ arguments = ⟨key, params, locale⟩ := by
  unfold Arguments.parse at h
  cases hkey : splitKey text with
  | error => simp [hkey, bind, Except.bind] at h
  | ok found =>
    obtain ⟨key, rest⟩ := found
    cases hlocale : splitLocale rest with
    | error => simp [hkey, hlocale, bind, Except.bind] at h
    | ok found =>
      obtain ⟨params, locale⟩ := found
      simp only [hkey, hlocale, bind, Except.bind, pure, Except.pure, Except.ok.injEq] at h
      exact ⟨key, rest, params, locale, rfl, hlocale, h.symm⟩

theorem exists_quote_of_parse {arguments : Arguments} (h : Arguments.parse text = .ok arguments) :
    ∃ quote : Quote, quote.toChar ∈ text := by
  obtain ⟨key, rest, params, locale, hkey, -, -⟩ := of_parse h
  obtain ⟨first, ⟨quote, -, htrim⟩, hcases⟩ := of_splitKey hkey
  obtain ⟨front, back, hwhole, -, -⟩ := eq_append_trim first
  have hfirst : quote.toChar ∈ first := by
    rw [hwhole, htrim]
    exact List.mem_append_right _ List.mem_cons_self
  refine ⟨quote, ?_⟩
  obtain ⟨rfl, -⟩ | ⟨later, rfl, -⟩ := hcases
  · exact hfirst
  · exact List.mem_append_left _ hfirst

/-- Where balanced arguments, as those of every candidate are (`Candidate.CallIn.balanced`), have a
key, they are read off the parts between the commas outside brackets and strings. -/
theorem parse_fromParts {arguments : Arguments}
    (hbalanced : ∃ nesting, Nesting.empty.feedAll? text = some nesting ∧ nesting.isBalanced = true)
    (h : Arguments.parse text = .ok arguments) :
    ∃ first later, arguments.FromParts text first later := by
  obtain ⟨nesting, hfed, hclosed⟩ := hbalanced
  obtain rfl := Nesting.isBalanced_iff.mp hclosed
  obtain ⟨key, rest, params, locale, hkey, hlocale, rfl⟩ := of_parse h
  obtain ⟨first, hliteral, ⟨rfl, rfl⟩ | ⟨others, rfl, rfl⟩⟩ := of_splitKey hkey
  · obtain ⟨rfl, rfl⟩ := Prod.mk.inj (Except.ok.inj hlocale)
    exact ⟨text, [], splitTopLevel_of_passes hliteral.passes, List.intercalate_singleton, hliteral,
      nofun, fun _ => rfl⟩
  · have hfirst := Nesting.feedAll?_of_pass? (hliteral.passes [])
    rw [Nesting.feedAll?_append, Nesting.empty, hfirst, Option.bind_some, Nesting.feedAll?_cons,
      Nesting.feed?_comma, Option.bind_some] at hfed
    rw [splitLocale_trim] at hlocale
    obtain ⟨later, hlater, hne, hjoined, hwith, hwithout⟩ := later_parts hfed hlocale
    refine ⟨first, later, ?_, ?_, hliteral, hwith, hwithout⟩
    · rw [splitTopLevel_append_of_passes hliteral.passes, hlater, Option.map_some]
    · rw [joined, List.intercalate_cons_of_ne_nil hne]
      rw [joined] at hjoined
      rw [hjoined, List.append_assoc, List.singleton_append]

/-- Brackets and commas in strings, a key and a locale in different quotes. -/
def mixedArguments : List Char :=
  " 'a, (b' , \x7b n: f(1, \x22]\x22) \x7d , x , `de'` ".toList

theorem parse_fromParts_mixed :
    let arguments : Arguments := ⟨"a, (b", some "\x7b n: f(1, \x22]\x22) \x7d , x", some "de'"⟩
    (∃ nesting, Nesting.empty.feedAll? mixedArguments = some nesting ∧
      nesting.isBalanced = true) ∧
    Arguments.parse mixedArguments = .ok arguments ∧
    ∃ first later, arguments.FromParts mixedArguments first later := by
  intro arguments
  have hbalanced : ∃ nesting, Nesting.empty.feedAll? mixedArguments = some nesting ∧
      nesting.isBalanced = true := ⟨.empty, by decide +kernel, rfl⟩
  have hparse : Arguments.parse mixedArguments = .ok arguments := by decide +kernel
  exact ⟨hbalanced, hparse, parse_fromParts hbalanced hparse⟩

end TemplateMessages.Call
