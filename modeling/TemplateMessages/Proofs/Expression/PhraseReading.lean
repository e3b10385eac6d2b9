import TemplateMessages.Proofs.Expression.Phrase

set_option autoImplicit false

/-!
# Reading phrases

A text that spells a phrase with a value is read as that value, in front of whatever bounds it. One
rule for each production of the grammar.
-/

namespace TemplateMessages.Expression

open TemplateMessages.Number (Binary64)
open TemplateMessages.Text (isBlank skipBlanks)

section

variable {c expected : Char} {blanks : List Char}

theorem skipBlanks_append (hblanks : ∀ c ∈ blanks, isBlank c = true) (text : List Char) :
    skipBlanks (blanks ++ text) = skipBlanks text :=
  List.dropWhile_append_of_pos hblanks

theorem skipBlanks_cons (h : isBlank c = false) (cs : List Char) :
    skipBlanks (c :: cs) = c :: cs :=
  List.dropWhile_cons_of_neg (Bool.eq_false_iff.mp h)

theorem skipBlanks_of_blanks (hblanks : ∀ c ∈ blanks, isBlank c = true) : skipBlanks blanks = [] :=
  List.dropWhile_eq_nil_iff.mpr hblanks

theorem behind?_append (hblanks : ∀ c ∈ blanks, isBlank c = true) (text : List Char) :
    behind? expected (blanks ++ text) = behind? expected text := by
  rw [behind?, behind?, skipBlanks_append hblanks]

theorem behind?_cons_self (h : isBlank c = false) (cs : List Char) :
    behind? c (c :: cs) = some cs := by
  rw [behind?, skipBlanks_cons h]
  exact if_pos rfl

theorem behind?_cons_of_ne (h : isBlank c = false) (hne : c ≠ expected) (cs : List Char) :
    behind? expected (c :: cs) = none := by
  rw [behind?, skipBlanks_cons h]
  exact if_neg hne

theorem bounded_of_isBlank (h : isBlank c = true) (cs : List Char) : Bounded (c :: cs) := by
  refine bounded_cons ⟨?_, ?_⟩ cs
  · cases hword : isIdentifierChar c with
    | false => rfl
    | true => exact absurd h (Bool.eq_false_iff.mp (isBlank_of_isIdentifierChar hword))
  · rintro rfl
    cases h

/-- A character that ends what stands in front of it, if white space may be between them. -/
theorem bounded_append (hblanks : ∀ c ∈ blanks, isBlank c = true)
    (h : isIdentifierChar c = false ∧ c ≠ '.') (cs : List Char) :
    Bounded (blanks ++ c :: cs) := by
  cases blanks with
  | nil => exact bounded_cons h cs
  | cons b bs => exact bounded_of_isBlank (hblanks b List.mem_cons_self) _

end

section

variable {c : Char} {cs rest : List Char}

theorem readPrimary_string {quote : Char} {inside value : List Char}
    (hquote : quote = '\x27' ∨ quote = '\x22' ∨ quote = '\x60')
    (h : insideValue? quote inside = some value) (rest : List Char) :
    outcome? (readPrimary quote (inside ++ quote :: rest)) =
      some (.string (String.ofList value), rest) := by
  rw [outcome?_readPrimary, if_pos hquote, readString_inside h]
  rfl

theorem readPrimary_number {value : Binary64} (h : numberValue? (c :: cs) = some value)
    (hrest : Bounded rest) : outcome? (readPrimary c (cs ++ rest)) = some (.number value, rest) := by
  obtain ⟨d, ds, heq, hdigit⟩ := numberValue?_cons h
  cases heq
  have hquotes : ¬(c = '\x27' ∨ c = '\x22' ∨ c = '\x60') := by
    rintro (rfl | rfl | rfl) <;> exact absurd hdigit (by decide)
  rw [outcome?_readPrimary, if_neg hquotes, if_pos hdigit, readNumber_of_bounded h hrest]
  rfl

theorem readPrimary_word {value : Literal} (hname : isIdentifier (c :: cs) = true)
    (h : constant? (c :: cs) = some value) (hrest : Bounded rest) :
    outcome? (readPrimary c (cs ++ rest)) = some (value, rest) := by
  obtain ⟨d, ds, heq, hstart, hcs⟩ := isIdentifier_cons hname
  cases heq
  have hquotes : ¬(c = '\x27' ∨ c = '\x22' ∨ c = '\x60') := by
    rintro (rfl | rfl | rfl) <;> revert hstart <;> decide
  have hnumber : ¬(c.isDigit = true ∨ c = '.') := by
    rw [isDigit_eq_false_of_isIdentifierStart hstart]
    rintro (h | rfl)
    · cases h
    · revert hstart
      decide
  obtain ⟨htake, hdrop⟩ := takeWhile_of_bounded hcs hrest
  rw [outcome?_readPrimary, if_neg hquotes, if_neg hnumber,
    if_neg (ne_of_isIdentifierStart hstart (by decide)),
    if_neg (ne_of_isIdentifierStart hstart (by decide)),
    if_neg (ne_of_isIdentifierStart hstart (by decide)), if_pos hstart, htake, hdrop, h]
  rfl

/-- An operand without a sign is read behind white space. -/
theorem readTerm_primary {blanks : List Char} (hblanks : ∀ c ∈ blanks, isBlank c = true)
    (hfirst : IsFirst c) (cs : List Char) :
    outcome? (readTerm (blanks ++ c :: cs)) = outcome? (readPrimary c cs) := by
  have hsign : ¬(c = '-' ∨ c = '+') := by
    rintro (h | h)
    · exact hfirst.ne (by decide) h
    · exact hfirst.ne (by decide) h
  rw [outcome?_readTerm, skipBlanks_append hblanks, skipBlanks_cons hfirst.isBlank_eq]
  exact if_neg hsign

end

/-- A text that spells the part is read as its value. -/
def Part.IsRead : Part → List Char → Prop
  | primary phrase, text =>
    ∀ value, phrase.value? = some value → ∀ c cs, text = c :: cs → ∀ rest, Bounded rest →
      outcome? (readPrimary c (cs ++ rest)) = some (value, rest)
  | term phrase, text =>
    ∀ value, phrase.value? = some value → ∀ rest, Bounded rest →
      outcome? (readTerm (text ++ rest)) = some (value, rest)
  | sum phrase, text =>
    ∀ value, phrase.value? = some value → ∀ rest, Bounded rest →
      outcome? (readSum (text ++ rest)) = outcome? (readSumFrom value rest)
  | items phrases, text =>
    ∀ values, Phrase.values? phrases = some values → ∀ before rest,
      outcome? (readItems before (text ++ rest)) = some (before ++ values, rest)
  | entries phrases, text =>
    ∀ values, Phrase.entryValues? phrases = some values → ∀ before rest,
      outcome? (readEntries before (text ++ rest)) = some (Table.putAll before values, rest)

section

variable {c : Char} {blanks text more rest : List Char} {value : Literal}

theorem readSumFrom_end (hblanks : ∀ c ∈ blanks, isBlank c = true) (hc : isBlank c = false)
    (hplus : c ≠ '+') (cs : List Char) :
    outcome? (readSumFrom value (blanks ++ c :: cs)) = some (value, c :: cs) := by
  rw [outcome?_readSumFrom, skipBlanks_append hblanks, skipBlanks_cons hc]
  exact if_neg fun h => hplus h.1

theorem isRead_parentheses {inner : Phrase} (ih : Part.IsRead (.sum inner) text)
    (hblanks : ∀ c ∈ blanks, isBlank c = true) :
    Part.IsRead (.primary (.parentheses inner)) ('(' :: (text ++ (blanks ++ [')']))) := by
  rintro value hvalue _ _ ⟨⟩ rest -
  have hclose : isBlank ')' = false := rfl
  rw [outcome?_readPrimary, if_neg (by decide), if_neg (by decide), if_pos rfl,
    List.append_assoc, List.append_assoc, List.singleton_append,
    ih value hvalue _ (bounded_append hblanks (by decide) rest),
    readSumFrom_end hblanks hclose (by decide), Option.bind_some]
  dsimp only
  rw [behind?_cons_self hclose]
  rfl

theorem isRead_array {items : List Phrase} (ih : Part.IsRead (.items items) text) :
    Part.IsRead (.primary (.array items)) ('[' :: text) := by
  rintro value hvalue _ _ ⟨⟩ rest -
  rw [Phrase.value?] at hvalue
  obtain ⟨values, hvalues, rfl⟩ := Option.map_eq_some_iff.mp hvalue
  rw [outcome?_readPrimary, if_neg (by decide), if_neg (by decide), if_neg (by decide), if_pos rfl,
    ih values hvalues]
  rfl

theorem isRead_object {entries : List (Key × Phrase)} (ih : Part.IsRead (.entries entries) text) :
    Part.IsRead (.primary (.object entries)) ('{' :: text) := by
  rintro value hvalue _ _ ⟨⟩ rest -
  rw [Phrase.value?] at hvalue
  obtain ⟨values, hvalues, rfl⟩ := Option.map_eq_some_iff.mp hvalue
  rw [outcome?_readPrimary, if_neg (by decide), if_neg (by decide), if_neg (by decide),
    if_neg (by decide), if_pos rfl, ih values hvalues]
  rfl

theorem isRead_signed {sign : Char} {operand : Phrase} (hsign : sign = '-' ∨ sign = '+')
    (ih : Part.IsRead (.term operand) text) (hblanks : ∀ c ∈ blanks, isBlank c = true) :
    Part.IsRead (.term (.signed sign operand)) (blanks ++ sign :: text) := by
  intro value hvalue rest hrest
  have hblank : isBlank sign = false := by
    rcases hsign with rfl | rfl <;> rfl
  rw [Phrase.value?] at hvalue
  obtain ⟨number, hnumber, rfl⟩ := Option.map_eq_some_iff.mp hvalue
  obtain ⟨inner, hinner, hoperand⟩ := Option.bind_eq_some_iff.mp hnumber
  rw [List.append_assoc, List.cons_append, outcome?_readTerm, skipBlanks_append hblanks,
    skipBlanks_cons hblank]
  dsimp only
  rw [if_pos hsign, ih inner hinner rest hrest, Option.bind_some, hoperand]
  rfl

theorem isRead_sum {left right : Phrase} (hleft : Part.IsRead (.sum left) text)
    (hblanks : ∀ c ∈ blanks, isBlank c = true) (hright : Part.IsRead (.term right) more)
    (hplus : more.head? ≠ some '+' ∧ more.head? ≠ some '=') (hmore : more ≠ []) :
    Part.IsRead (.sum (.sum left right)) (text ++ (blanks ++ '+' :: more)) := by
  intro value hvalue rest hrest
  have hhead : (more ++ rest).head? = more.head? := by
    obtain ⟨c, cs, rfl⟩ := List.exists_cons_of_ne_nil hmore
    rfl
  rw [Phrase.value?] at hvalue
  obtain ⟨first, hfirst, hvalue⟩ := Option.bind_eq_some_iff.mp hvalue
  obtain ⟨second, hsecond, hadd⟩ := Option.bind_eq_some_iff.mp hvalue
  rw [List.append_assoc, List.append_assoc, List.cons_append,
    hleft first hfirst _ (bounded_append hblanks (by decide) _), outcome?_readSumFrom,
    skipBlanks_append hblanks, skipBlanks_cons (by rfl)]
  dsimp only
  rw [hhead, if_pos ⟨rfl, hplus⟩, hright second hsecond rest hrest, Option.bind_some, hadd,
    Option.bind_some]

/-- What an item or a value starts with is no bracket that closes. -/
theorem behind?_of_spells {phrase : Phrase} {expected : Char}
    (h : Spells isBlank (.sum phrase) text) (hexpected : expected ∈ [']', '}'])
    (rest : List Char) : behind? expected (text ++ rest) = none := by
  obtain ⟨blanks, c, cs, rfl, hblanks, hfirst⟩ := h.first_sum
  rw [List.append_assoc, behind?_append hblanks]
  rcases hfirst with hfirst | hsign
  · refine behind?_cons_of_ne hfirst.isBlank_eq (hfirst.ne ?_) _
    revert hexpected expected
    decide
  · have hblank : isBlank c = false := by
      rcases hsign with rfl | rfl <;> rfl
    refine behind?_cons_of_ne hblank ?_ _
    rintro rfl
    rcases hsign with rfl | rfl <;> exact absurd hexpected (by decide)

/-- A value ends at what ends an item or an entry. -/
theorem readSum_end {phrase : Phrase} (ih : Part.IsRead (.sum phrase) text)
    (hvalue : phrase.value? = some value) (hblanks : ∀ c ∈ blanks, isBlank c = true)
    (hc : c ∈ [',', ']', '}']) (cs : List Char) :
    outcome? (readSum (text ++ (blanks ++ c :: cs))) = some (value, c :: cs) := by
  have hword : isIdentifierChar c = false ∧ c ≠ '.' := by
    revert hc c
    decide
  have hblank : isBlank c = false := by
    revert hc c
    decide
  have hplus : c ≠ '+' := by
    revert hc c
    decide
  rw [ih value hvalue _ (bounded_append hblanks hword cs), readSumFrom_end hblanks hblank hplus]

theorem isRead_noItems (hblanks : ∀ c ∈ blanks, isBlank c = true) :
    Part.IsRead (.items []) (blanks ++ [']']) := by
  rintro values ⟨⟩ before rest
  rw [outcome?_readItems, List.append_assoc, List.singleton_append, behind?_append hblanks,
    behind?_cons_self (by rfl), List.append_nil]

theorem isRead_lastItem {item : Phrase} (h : Spells isBlank (.sum item) text)
    (ih : Part.IsRead (.sum item) text) (hblanks : ∀ c ∈ blanks, isBlank c = true) :
    Part.IsRead (.items [item]) (text ++ (blanks ++ [']'])) := by
  intro values hvalues before rest
  rw [Phrase.values?, Phrase.values?] at hvalues
  obtain ⟨value, hvalue, hvalues⟩ := Option.bind_eq_some_iff.mp hvalues
  cases hvalues
  rw [outcome?_readItems, List.append_assoc, List.append_assoc, List.singleton_append,
    behind?_of_spells h (by decide)]
  dsimp only
  rw [readSum_end ih hvalue hblanks (by decide), Option.bind_some]
  dsimp only
  rw [behind?_cons_of_ne (by rfl) (by decide), behind?_cons_self (by rfl)]
  rfl

theorem isRead_item {item : Phrase} {items : List Phrase} (h : Spells isBlank (.sum item) text)
    (ih : Part.IsRead (.sum item) text) (hblanks : ∀ c ∈ blanks, isBlank c = true)
    (ihItems : Part.IsRead (.items items) more) :
    Part.IsRead (.items (item :: items)) (text ++ (blanks ++ ',' :: more)) := by
  intro values hvalues before rest
  rw [Phrase.values?] at hvalues
  obtain ⟨value, hvalue, hvalues⟩ := Option.bind_eq_some_iff.mp hvalues
  obtain ⟨others, hothers, hvalues⟩ := Option.bind_eq_some_iff.mp hvalues
  cases hvalues
  rw [outcome?_readItems, List.append_assoc, List.append_assoc, List.cons_append,
    behind?_of_spells h (by decide)]
  dsimp only
  rw [readSum_end ih hvalue hblanks (by decide), Option.bind_some]
  dsimp only
  rw [behind?_cons_self (by rfl)]
  dsimp only
  rw [ihItems others hothers, List.append_assoc, List.singleton_append]

theorem readKey_code {key : Key} {name : String} (hkey : key.IsValid) (h : key.text? = some name)
    (hrest : Bounded rest) : outcome? (readKey (key.code ++ rest)) = some (name, rest) := by
  rw [outcome?_readKey]
  cases key with
  | word chars =>
    obtain ⟨c, cs, rfl, hstart, hcs⟩ := isIdentifier_cons hkey
    cases h
    obtain ⟨htake, hdrop⟩ := takeWhile_of_bounded hcs hrest
    rw [Key.code, List.cons_append]
    dsimp only
    rw [if_pos hstart, htake, hdrop]
  | string quote inside =>
    obtain ⟨value, hvalue, rfl⟩ := Option.map_eq_some_iff.mp h
    have hquote : quote = '\x27' ∨ quote = '\x22' := hkey
    have hstart : ¬isIdentifierStart quote = true := by
      rcases hquote with rfl | rfl <;> decide
    rw [Key.code, List.cons_append, List.append_assoc, List.singleton_append]
    dsimp only
    rw [if_neg hstart, if_pos hquote, readString_inside hvalue]
    rfl
  | number digits =>
    obtain ⟨value, hvalue, rfl⟩ := Option.map_eq_some_iff.mp h
    obtain ⟨⟨c, hc, hdigit⟩, -⟩ := hkey
    obtain ⟨d, ds, rfl, -⟩ := numberValue?_cons hvalue
    cases hc
    have hstart : ¬isIdentifierStart c = true := by
      intro hstart
      rw [isDigit_eq_false_of_isIdentifierStart hstart] at hdigit
      cases hdigit
    have hquote : ¬(c = '\x27' ∨ c = '\x22') := by
      rintro (rfl | rfl) <;> cases hdigit
    rw [Key.code, List.cons_append]
    dsimp only
    rw [if_neg hstart, if_neg hquote, if_pos hdigit, readNumber_of_bounded hvalue hrest]
    rfl

theorem Key.IsValid.first {key : Key} (h : key.IsValid) :
    ∃ c cs, key.code = c :: cs ∧ IsFirst c := by
  have hfirst {phrase : Phrase} (hspells : Spells isBlank (.primary phrase) key.code) :
      ∃ c cs, key.code = c :: cs ∧ IsFirst c := hspells.first_primary
  cases key with
  | word name => exact hfirst (.word h)
  | string quote inside => exact hfirst (.string inside (h.imp id Or.inl))
  | number digits =>
    obtain ⟨value, hvalue⟩ := Option.isSome_iff_exists.mp h.2
    exact hfirst (.number hvalue)

theorem outcome?_readEntries_value {key : Key} {name : String} {before between : List Char}
    (hbefore : ∀ c ∈ before, isBlank c = true) (hkey : key.IsValid) (hname : key.text? = some name)
    (hbetween : ∀ c ∈ between, isBlank c = true) (entries : List (String × Literal))
    (text : List Char) :
    outcome? (readEntries entries (before ++ (key.code ++ (between ++ ':' :: text)))) =
      (outcome? (readSum text)).bind fun (value, rest) =>
        match behind? ',' rest with
        | some more => outcome? (readEntries (Table.put entries name value) more)
        | none => (behind? '}' rest).map fun after => (Table.put entries name value, after) := by
  obtain ⟨c, cs, hcode, hfirst⟩ := hkey.first
  have hclose : behind? '}' (before ++ (key.code ++ (between ++ ':' :: text))) = none := by
    rw [behind?_append hbefore, hcode]
    exact behind?_cons_of_ne hfirst.isBlank_eq (hfirst.ne (by decide)) _
  have hskip : skipBlanks (before ++ (key.code ++ (between ++ ':' :: text))) =
      key.code ++ (between ++ ':' :: text) := by
    rw [skipBlanks_append hbefore, hcode]
    exact skipBlanks_cons hfirst.isBlank_eq _
  rw [outcome?_readEntries, hclose]
  dsimp only
  rw [hskip, readKey_code hkey hname (bounded_append hbetween (by decide) text), Option.bind_some]
  dsimp only
  rw [behind?_append hbetween, behind?_cons_self (by rfl)]
  rfl

theorem isRead_noEntries (hblanks : ∀ c ∈ blanks, isBlank c = true) :
    Part.IsRead (.entries []) (blanks ++ ['}']) := by
  rintro values ⟨⟩ before rest
  rw [outcome?_readEntries, List.append_assoc, List.singleton_append, behind?_append hblanks,
    behind?_cons_self (by rfl)]
  rfl

section

variable {key : Key} {phrase : Phrase} {entries : List (Key × Phrase)}
  {before between : List Char}

theorem isRead_lastEntry (hbefore : ∀ c ∈ before, isBlank c = true) (hkey : key.IsValid)
    (hbetween : ∀ c ∈ between, isBlank c = true) (ih : Part.IsRead (.sum phrase) text)
    (hblanks : ∀ c ∈ blanks, isBlank c = true) :
    Part.IsRead (.entries [(key, phrase)])
      (before ++ (key.code ++ (between ++ ':' :: (text ++ (blanks ++ ['}']))))) := by
  intro values hvalues others rest
  rw [Phrase.entryValues?, Phrase.entryValues?] at hvalues
  obtain ⟨name, hname, hvalues⟩ := Option.bind_eq_some_iff.mp hvalues
  obtain ⟨value, hvalue, hvalues⟩ := Option.bind_eq_some_iff.mp hvalues
  cases hvalues
  rw [List.append_assoc, List.append_assoc, List.append_assoc, List.cons_append,
    List.append_assoc, List.append_assoc, List.singleton_append,
    outcome?_readEntries_value hbefore hkey hname hbetween,
    readSum_end ih hvalue hblanks (by decide), Option.bind_some]
  dsimp only
  rw [behind?_cons_of_ne (by rfl) (by decide), behind?_cons_self (by rfl)]
  rfl

theorem isRead_entry (hbefore : ∀ c ∈ before, isBlank c = true) (hkey : key.IsValid)
    (hbetween : ∀ c ∈ between, isBlank c = true) (ih : Part.IsRead (.sum phrase) text)
    (hblanks : ∀ c ∈ blanks, isBlank c = true) (ihEntries : Part.IsRead (.entries entries) more) :
    Part.IsRead (.entries ((key, phrase) :: entries))
      (before ++ (key.code ++ (between ++ ':' :: (text ++ (blanks ++ ',' :: more))))) := by
  intro values hvalues others rest
  rw [Phrase.entryValues?] at hvalues
  obtain ⟨name, hname, hvalues⟩ := Option.bind_eq_some_iff.mp hvalues
  obtain ⟨value, hvalue, hvalues⟩ := Option.bind_eq_some_iff.mp hvalues
  obtain ⟨later, hlater, hvalues⟩ := Option.bind_eq_some_iff.mp hvalues
  cases hvalues
  rw [List.append_assoc, List.append_assoc, List.append_assoc, List.cons_append,
    List.append_assoc, List.append_assoc, List.cons_append,
    outcome?_readEntries_value hbefore hkey hname hbetween,
    readSum_end ih hvalue hblanks (by decide), Option.bind_some]
  dsimp only
  rw [behind?_cons_self (by rfl)]
  dsimp only
  rw [ihEntries later hlater]
  rfl

end

theorem isRead_of_spells {part : Part} (h : Spells isBlank part text) : part.IsRead text := by
  induction h with
  | string inside hquote =>
    rintro value hvalue _ _ ⟨⟩ rest -
    obtain ⟨chars, hchars, rfl⟩ := Option.map_eq_some_iff.mp hvalue
    rw [List.append_assoc]
    exact readPrimary_string hquote hchars rest
  | number hnumber =>
    rintro value hvalue c cs rfl rest hrest
    obtain ⟨number, hdigits, rfl⟩ := Option.map_eq_some_iff.mp hvalue
    exact readPrimary_number hdigits hrest
  | word hname =>
    rintro value hvalue c cs rfl rest hrest
    exact readPrimary_word hname hvalue hrest
  | parentheses _ hblanks ih => exact isRead_parentheses ih hblanks
  | array _ ih => exact isRead_array ih
  | object _ ih => exact isRead_object ih
  | primary h hblanks ih =>
    intro value hvalue rest hrest
    obtain ⟨c, cs, rfl, hfirst⟩ := h.first_primary
    rw [List.append_assoc, List.cons_append, readTerm_primary hblanks hfirst]
    exact ih value hvalue c cs rfl rest hrest
  | signed hsign _ hblanks ih => exact isRead_signed hsign ih hblanks
  | term _ ih =>
    intro value hvalue rest hrest
    rw [outcome?_readSum, ih value hvalue rest hrest, Option.bind_some]
  | sum _ hblanks hright hplus ihleft ihright =>
    obtain ⟨blanks, c, cs, hmore, -⟩ := hright.first_term
    exact isRead_sum ihleft hblanks ihright hplus (by simp [hmore])
  | noItems hblanks => exact isRead_noItems hblanks
  | lastItem h hblanks ih => exact isRead_lastItem h ih hblanks
  | item h hblanks _ ih ihItems => exact isRead_item h ih hblanks ihItems
  | noEntries hblanks => exact isRead_noEntries hblanks
  | lastEntry hbefore hkey hbetween _ hblanks ih =>
    exact isRead_lastEntry hbefore hkey hbetween ih hblanks
  | entry hbefore hkey hbetween _ hblanks _ ih ihEntries =>
    exact isRead_entry hbefore hkey hbetween ih hblanks ihEntries

theorem evaluateChars_of_spells {phrase : Phrase} (h : Spells isBlank (.sum phrase) text)
    (hvalue : phrase.value? = some value) (hblanks : ∀ c ∈ blanks, isBlank c = true) :
    evaluateChars (text ++ blanks) = .ok value := by
  rw [evaluateChars_eq_ok_iff]
  refine ⟨[], ?_, rfl⟩
  have hrest : Bounded blanks := by
    cases blanks with
    | nil => exact bounded_nil
    | cons b bs => exact bounded_of_isBlank (hblanks b List.mem_cons_self) bs
  rw [isRead_of_spells h value hvalue blanks hrest, outcome?_readSumFrom,
    skipBlanks_of_blanks hblanks]

end

end TemplateMessages.Expression
