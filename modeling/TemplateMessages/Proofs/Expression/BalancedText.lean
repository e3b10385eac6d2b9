import TemplateMessages.Proofs.Expression.Splitting

set_option autoImplicit false

/-!
# Balanced texts

`BalancedText` is the grammar of the texts that close every bracket and every string that they open.
A nesting is the same behind such a text as in front of it, and only such a text leaves an empty
nesting empty. A closing bracket is therefore found just when it stands behind a balanced text, and
there is no other place like that in the text.
-/

namespace TemplateMessages.Expression

open TemplateMessages.Text

namespace Bracket

def openChar : Bracket → Char
  | round => '('
  | square => '['
  | curly => '\x7b'

def closeChar : Bracket → Char
  | round => ')'
  | square => ']'
  | curly => '\x7d'

@[simp] theorem opening?_eq_some_iff {c : Char} {bracket : Bracket} :
    opening? c = some bracket ↔ c = bracket.openChar := by
  constructor
  · intro h
    unfold opening? at h
    split at h <;> cases h <;> rfl
  · rintro rfl
    cases bracket <;> rfl

@[simp] theorem closing?_eq_some_iff {c : Char} {bracket : Bracket} :
    closing? c = some bracket ↔ c = bracket.closeChar := by
  constructor
  · intro h
    unfold closing? at h
    split at h <;> cases h <;> rfl
  · rintro rfl
    cases bracket <;> rfl

end Bracket

structure IsPlain (c : Char) : Prop where
  quote : ∀ quote : Quote, c ≠ quote.toChar
  opening : ∀ bracket : Bracket, c ≠ bracket.openChar
  closing : ∀ bracket : Bracket, c ≠ bracket.closeChar

/-- Texts that close what they open. A string holds anything but its own quote. -/
inductive BalancedText : List Char → Prop
  | empty : BalancedText []
  | plain {c : Char} {tail : List Char} (char : IsPlain c) (rest : BalancedText tail) :
      BalancedText (c :: tail)
  | string {inside tail : List Char} (quote : Quote) (inner : quote.toChar ∉ inside)
      (rest : BalancedText tail) :
      BalancedText (quote.toChar :: (inside ++ quote.toChar :: tail))
  | group {inside tail : List Char} (bracket : Bracket) (inner : BalancedText inside)
      (rest : BalancedText tail) :
      BalancedText (bracket.openChar :: (inside ++ bracket.closeChar :: tail))

inductive ClosesAll : List Bracket → List Char → Prop
  | none {text : List Char} (rest : BalancedText text) : ClosesAll [] text
  | next {bracket : Bracket} {outer : List Bracket} {body tail : List Char}
      (inner : BalancedText body) (rest : ClosesAll outer tail) :
      ClosesAll (bracket :: outer) (body ++ bracket.closeChar :: tail)

section

variable {brackets : List Bracket} {bracket : Bracket} {quote : Quote} {c : Char}
  {text inside tail : List Char}

namespace Nesting

theorem feed?_plain (h : IsPlain c) (nesting : Nesting) : nesting.feed? c = some nesting := by
  refine feed?_of_other ?_ ?_ ?_ nesting
  · exact Option.eq_none_iff_forall_ne_some.mpr fun quote heq =>
      h.quote quote (Quote.ofChar?_eq_some_iff.mp heq)
  · exact Option.eq_none_iff_forall_ne_some.mpr fun bracket heq =>
      h.opening bracket (Bracket.opening?_eq_some_iff.mp heq)
  · exact Option.eq_none_iff_forall_ne_some.mpr fun bracket heq =>
      h.closing bracket (Bracket.closing?_eq_some_iff.mp heq)

@[simp] theorem feed?_openChar (brackets : List Bracket) (bracket : Bracket) :
    feed? ⟨brackets, none⟩ bracket.openChar = some ⟨bracket :: brackets, none⟩ := by
  cases bracket <;> rfl

theorem feed?_closeChar (brackets : List Bracket) (bracket : Bracket) :
    feed? ⟨brackets, none⟩ bracket.closeChar =
      match brackets with
      | [] => none
      | top :: outer => if top = bracket then some ⟨outer, none⟩ else none := by
  cases brackets with
  | nil => cases bracket <;> rfl
  | cons top outer => cases bracket <;> cases top <;> cases outer <;> rfl

theorem feedAll?_string (brackets : List Bracket) (h : quote.toChar ∉ inside) (tail : List Char) :
    feedAll? ⟨brackets, some quote⟩ (inside ++ quote.toChar :: tail) =
      feedAll? ⟨brackets, none⟩ tail := by
  induction inside with
  | nil => rw [List.nil_append, feedAll?_cons, feed?_string, if_pos rfl, Option.bind_some]
  | cons c cs ih =>
    rw [List.mem_cons, not_or] at h
    rw [List.cons_append, feedAll?_cons, feed?_string, if_neg (Ne.symm h.1), Option.bind_some,
      ih h.2]

theorem exists_of_feedAll?_string (h : feedAll? ⟨brackets, some quote⟩ text = some empty) :
    ∃ inside tail, text = inside ++ quote.toChar :: tail ∧ quote.toChar ∉ inside ∧
      feedAll? ⟨brackets, none⟩ tail = some empty := by
  induction text with
  | nil => cases h
  | cons c cs ih =>
    rw [feedAll?_cons, feed?_string, Option.bind_some] at h
    by_cases hc : c = quote.toChar
    · rw [if_pos hc] at h
      exact ⟨[], cs, by rw [hc, List.nil_append], List.not_mem_nil, h⟩
    · rw [if_neg hc] at h
      obtain ⟨inside, tail, rfl, hmem, htail⟩ := ih h
      exact ⟨c :: inside, tail, rfl, by simp [hmem, Ne.symm hc], htail⟩

end Nesting

theorem BalancedText.feedAll?_append (h : BalancedText text) (brackets : List Bracket)
    (more : List Char) :
    Nesting.feedAll? ⟨brackets, none⟩ (text ++ more) = Nesting.feedAll? ⟨brackets, none⟩ more := by
  induction h generalizing brackets more with
  | empty => rfl
  | plain char _ ih =>
    rw [List.cons_append, Nesting.feedAll?_cons, Nesting.feed?_plain char, Option.bind_some, ih]
  | string quote inner _ ih =>
    rw [List.cons_append, List.append_assoc, List.cons_append, Nesting.feedAll?_cons,
      Nesting.feed?_quote, Option.bind_some, Nesting.feedAll?_string brackets inner, ih]
  | group bracket _ _ ihInner ihRest =>
    rw [List.cons_append, List.append_assoc, List.cons_append, Nesting.feedAll?_cons,
      Nesting.feed?_openChar, Option.bind_some, ihInner, Nesting.feedAll?_cons,
      Nesting.feed?_closeChar]
    dsimp only
    rw [if_pos rfl, Option.bind_some, ihRest]

theorem ClosesAll.behind (h : ClosesAll brackets text) (piece : List Char)
    (hpiece : ∀ body, BalancedText body → BalancedText (piece ++ body)) :
    ClosesAll brackets (piece ++ text) := by
  cases h with
  | none rest => exact .none (hpiece _ rest)
  | next inner rest =>
    rw [← List.append_assoc]
    exact .next (hpiece _ inner) rest

theorem closesAll_of_feedAll? (h : Nesting.feedAll? ⟨brackets, none⟩ text = some .empty) :
    ClosesAll brackets text := by
  -- on the length, since a string is passed over as a whole
  induction hlength : text.length using Nat.strongRecOn generalizing text brackets with
  | ind length ih =>
    subst hlength
    cases text with
    | nil =>
      obtain rfl : brackets = [] := congrArg Nesting.brackets (Option.some.inj h)
      exact .none .empty
    | cons c cs =>
      have shorter : cs.length < (c :: cs).length := Nat.lt_succ_self _
      rw [Nesting.feedAll?_cons] at h
      by_cases hquote : ∃ quote : Quote, c = quote.toChar
      · obtain ⟨quote, rfl⟩ := hquote
        rw [Nesting.feed?_quote, Option.bind_some] at h
        obtain ⟨inside, tail, rfl, hmem, htail⟩ := Nesting.exists_of_feedAll?_string h
        have hclosed := ih tail.length
          (by simp only [List.length_cons, List.length_append]; omega) htail rfl
        have hwhole := hclosed.behind (quote.toChar :: (inside ++ [quote.toChar]))
          fun body hbody => by simpa using BalancedText.string quote hmem hbody
        simpa using hwhole
      by_cases hopening : ∃ bracket : Bracket, c = bracket.openChar
      · obtain ⟨bracket, rfl⟩ := hopening
        rw [Nesting.feed?_openChar, Option.bind_some] at h
        cases ih cs.length shorter h rfl with
        | @next _ _ body tail inner rest =>
          have hwhole := rest.behind (bracket.openChar :: (body ++ [bracket.closeChar]))
            fun after hafter => by simpa using BalancedText.group bracket inner hafter
          simpa using hwhole
      by_cases hclosing : ∃ bracket : Bracket, c = bracket.closeChar
      · obtain ⟨bracket, rfl⟩ := hclosing
        rw [Nesting.feed?_closeChar] at h
        cases brackets with
        | nil => cases h
        | cons top outer =>
          dsimp only at h
          by_cases htop : top = bracket
          · subst htop
            rw [if_pos rfl, Option.bind_some] at h
            exact ClosesAll.next .empty (ih cs.length shorter h rfl)
          · rw [if_neg htop] at h
            cases h
      · push Not at hquote hopening hclosing
        have hplain : IsPlain c := ⟨hquote, hopening, hclosing⟩
        rw [Nesting.feed?_plain hplain, Option.bind_some] at h
        exact (ih cs.length shorter h rfl).behind [c]
          fun body hbody => BalancedText.plain hplain hbody

theorem feedAll?_eq_empty_iff :
    Nesting.empty.feedAll? text = some .empty ↔ BalancedText text := by
  constructor
  · intro h
    cases closesAll_of_feedAll? h with
    | none rest => exact rest
  · intro h
    have hsame := h.feedAll?_append [] []
    rw [List.append_nil] at hsame
    exact hsame

/-- The bracket in front of the text is closed `length` bytes into the text, behind a balanced text
and its closer. -/
def ClosedAt (bracket : Bracket) (text : List Char) (length : Nat) : Prop :=
  ∃ body rest, text = body ++ bracket.closeChar :: rest ∧ BalancedText body ∧
    length = byteLength (body ++ [bracket.closeChar])

theorem Nesting.closingFrom_inside {nesting : Nesting} {body : List Char}
    (h : nesting.feedAll? body = some empty) (bracket : Bracket) (rest : List Char) :
    (nesting.inside bracket).closingFrom (body ++ bracket.closeChar :: rest) =
      some (byteLength (body ++ [bracket.closeChar])) := by
  induction body generalizing nesting with
  | nil =>
    obtain rfl := Option.some.inj h
    have hcloser : empty.feed? bracket.closeChar = none := feed?_closeChar [] bracket
    rw [List.nil_append, closingFrom, feed_inside, hcloser]
    dsimp only
    rw [if_pos ⟨rfl, Bracket.closing?_eq_some_iff.mpr rfl⟩]
    rfl
  | cons c cs ih =>
    rw [feedAll?_cons] at h
    obtain ⟨next, hnext, hcs⟩ := Option.bind_eq_some_iff.mp h
    rw [List.cons_append, closingFrom, feed_inside, hnext]
    dsimp only
    rw [ih hcs]
    rfl

theorem closedAt_iff {length : Nat} :
    ClosedAt bracket text length ↔ findClosing text bracket = some length := by
  constructor
  · rintro ⟨body, rest, rfl, hbody, rfl⟩
    exact Nesting.closingFrom_inside (feedAll?_eq_empty_iff.mpr hbody) bracket rest
  · intro h
    have hinside : (Nesting.empty.inside bracket).closingFrom text = some length := h
    obtain ⟨body, closer, rest, rfl, rfl, hbody, hcloser⟩ :=
      Nesting.balanced_of_closingFrom hinside
    obtain rfl := Bracket.closing?_eq_some_iff.mp hcloser
    exact ⟨body, rest, rfl, feedAll?_eq_empty_iff.mp hbody, rfl⟩

/-- The closer of the bracket in front of a text is found behind a balanced text, and only there. A
text starts with at most one balanced text that has the closer behind it, and nothing is found when
it starts with none. -/
theorem findClosing_balanced (text : List Char) (bracket : Bracket) :
    (∀ length, findClosing text bracket = some length ↔ ClosedAt bracket text length) ∧
      (∀ a b, ClosedAt bracket text a → ClosedAt bracket text b → a = b) ∧
      (findClosing text bracket = none ↔ ¬∃ length, ClosedAt bracket text length) := by
  refine ⟨fun length => closedAt_iff.symm, ?_, ?_⟩
  · intro a b ha hb
    exact Option.some.inj ((closedAt_iff.mp ha).symm.trans (closedAt_iff.mp hb))
  · rw [Option.eq_none_iff_forall_ne_some, not_exists]
    exact forall_congr' fun length => not_congr closedAt_iff.symm

example : findClosing "'say \"hi)' )".toList .round = some 12 := by decide

end

namespace Nesting

/-- The text is cut into these parts at separators outside brackets and strings. The nesting is the
one in front of the first part; nothing is open at the end of a part, so the next one starts like a
text of its own. -/
inductive Divides (separator : Char) : Nesting → List Char → List (List Char) → Prop
  | last {nesting : Nesting} {part : List Char}
      (passed : nesting.pass? separator part = some empty) :
      Divides separator nesting part [part]
  | next {nesting : Nesting} {part rest : List Char} {parts : List (List Char)}
      (passed : nesting.pass? separator part = some empty)
      (later : Divides separator empty rest parts) :
      Divides separator nesting (part ++ separator :: rest) (part :: parts)

variable {separator c : Char} {nesting next : Nesting} {text : List Char}
  {parts : List (List Char)}

theorem Divides.cons (hcut : ¬(c = separator ∧ nesting.isBalanced = true))
    (hfeed : nesting.feed? c = some next) (h : Divides separator next text parts) :
    Divides separator nesting (c :: text) (consFirst c parts) := by
  have hpass {part : List Char} (hpart : next.pass? separator part = some empty) :
      nesting.pass? separator (c :: part) = some empty := by
    rw [pass?_cons, if_neg hcut, hfeed, Option.bind_some, hpart]
  cases h with
  | last passed => exact .last (hpass passed)
  | next passed later => exact .next (hpass passed) later

theorem divides_of_splitFrom (h : nesting.splitFrom separator text = some parts) :
    Divides separator nesting text parts := by
  induction text generalizing nesting parts with
  | nil =>
    rw [splitFrom] at h
    split at h
    · rename_i hbalanced
      obtain rfl := isBalanced_iff.mp hbalanced
      obtain rfl := Option.some.inj h
      exact .last rfl
    · cases h
  | cons c cs ih =>
    rw [splitFrom_cons] at h
    by_cases hcut : c = separator ∧ nesting.isBalanced = true
    · rw [if_pos hcut] at h
      obtain ⟨later, hlater, rfl⟩ := Option.map_eq_some_iff.mp h
      obtain ⟨rfl, hbalanced⟩ := hcut
      obtain rfl := isBalanced_iff.mp hbalanced
      exact @Divides.next _ _ [] _ _ rfl (ih hlater)
    · rw [if_neg hcut] at h
      obtain ⟨next, hnext, hsplit⟩ := Option.bind_eq_some_iff.mp h
      obtain ⟨later, hlater, rfl⟩ := Option.map_eq_some_iff.mp hsplit
      exact (ih hlater).cons hcut hnext

namespace Divides

theorem ne_nil (h : Divides separator nesting text parts) : parts ≠ [] := by
  cases h <;> exact List.cons_ne_nil _ _

theorem feedAll?_eq (h : Divides separator nesting text parts)
    (hseparator : empty.feed? separator = some empty) : nesting.feedAll? text = some empty := by
  induction h with
  | last passed => exact feedAll?_of_pass? passed
  | next passed _ ih =>
    rw [feedAll?_append, feedAll?_of_pass? passed, Option.bind_some, feedAll?_cons, hseparator,
      Option.bind_some, ih]

theorem pass?_of_mem (h : Divides separator empty text parts) :
    ∀ part ∈ parts, empty.pass? separator part = some empty := by
  generalize hstart : empty = nesting at h
  induction h with
  | last passed =>
    subst hstart
    exact List.forall_mem_singleton.mpr passed
  | next passed _ ih =>
    subst hstart
    exact List.forall_mem_cons.mpr ⟨passed, ih rfl⟩

theorem findFrom_eq (h : Divides separator nesting text parts) :
    nesting.findFrom separator text =
      if 2 ≤ parts.length then parts.head?.map byteLength else none := by
  cases h with
  | last passed =>
    have hfound := findFrom_pass passed []
    rw [List.append_nil] at hfound
    rw [hfound]
    rfl
  | @next _ part rest parts passed later =>
    have hlength : 2 ≤ (part :: parts).length :=
      Nat.succ_le_succ (List.length_pos_iff.mpr later.ne_nil)
    rw [findFrom_pass passed, findFrom_cons, if_pos ⟨rfl, rfl⟩, if_pos hlength]
    rfl

end Divides

end Nesting

/-- A text is split at a separator just when it is balanced. The parts with the separator between
them are the text again, each of them is balanced and has no separator outside brackets and strings,
and the first separator of the text stands where the first part ends. -/
theorem splitTopLevel_lossless {separator : Char} (h : IsPlain separator) (text : List Char) :
    ((∃ parts, splitTopLevel text separator = some parts) ↔ BalancedText text) ∧
      ∀ parts, splitTopLevel text separator = some parts →
        parts ≠ [] ∧ [separator].intercalate parts = text ∧
          (∀ part ∈ parts, BalancedText part ∧ findTopLevel part separator = none) ∧
          findTopLevel text separator =
            if 2 ≤ parts.length then parts.head?.map byteLength else none := by
  have hseparator := Nesting.feed?_plain h .empty
  refine ⟨⟨?_, ?_⟩, ?_⟩
  · rintro ⟨parts, hparts⟩
    exact feedAll?_eq_empty_iff.mp ((Nesting.divides_of_splitFrom hparts).feedAll?_eq hseparator)
  · intro hbalanced
    obtain ⟨parts, hparts, -⟩ :=
      Nesting.exists_splitFrom hseparator (feedAll?_eq_empty_iff.mpr hbalanced)
    exact ⟨parts, hparts⟩
  · intro parts hparts
    have hdivides := Nesting.divides_of_splitFrom hparts
    obtain ⟨found, hfound, hne, hwhole, -⟩ :=
      Nesting.exists_splitFrom hseparator (hdivides.feedAll?_eq hseparator)
    obtain rfl := Option.some.inj (hparts.symm.trans hfound)
    refine ⟨hne, hwhole, fun part hmem => ?_, hdivides.findFrom_eq⟩
    have hpart := hdivides.pass?_of_mem part hmem
    exact ⟨feedAll?_eq_empty_iff.mp (Nesting.feedAll?_of_pass? hpart),
      (Nesting.Divides.last hpart).findFrom_eq⟩

def commaText : List Char :=
  "a: 1, b: f(1, 2), c: '3,4'".toList

theorem splitTopLevel_lossless_commas :
    IsPlain ',' ∧ BalancedText commaText ∧
      splitTopLevel commaText ',' =
        some ["a: 1".toList, " b: f(1, 2)".toList, " c: '3,4'".toList] ∧
      findTopLevel " b: f(1, 2)".toList ',' = none ∧ findTopLevel commaText ',' = some 4 := by
  have hplain : IsPlain ',' :=
    ⟨fun quote => by cases quote <;> decide, fun bracket => by cases bracket <;> decide,
      fun bracket => by cases bracket <;> decide⟩
  have hparts : splitTopLevel commaText ',' =
      some ["a: 1".toList, " b: f(1, 2)".toList, " c: '3,4'".toList] := by
    decide
  obtain ⟨hbalanced, hall⟩ := splitTopLevel_lossless hplain commaText
  obtain ⟨-, -, heach, hfirst⟩ := hall _ hparts
  exact ⟨hplain, hbalanced.mp ⟨_, hparts⟩, hparts,
    (heach _ (List.mem_cons_of_mem _ List.mem_cons_self)).2, hfirst⟩

end TemplateMessages.Expression
