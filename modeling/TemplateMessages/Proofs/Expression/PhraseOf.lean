import TemplateMessages.Proofs.Expression.Phrase

set_option autoImplicit false

/-!
# Phrases of texts

What is read as a value spells a phrase with that value. The readers call each other on shorter texts,
or on the same text where that is the next thing to read; the induction is on the measure by which
they end.
-/

namespace TemplateMessages.Expression

open TemplateMessages.Number (Binary64)
open TemplateMessages.Text (isBlank skipBlanks)

section

variable {c expected : Char} {cs text rest : List Char} {value : Literal}

theorem exists_blanks (text : List Char) :
    ∃ blanks, text = blanks ++ skipBlanks text ∧ ∀ c ∈ blanks, isBlank c = true :=
  ⟨text.takeWhile isBlank, List.takeWhile_append_dropWhile.symm,
    fun _ hc => List.mem_takeWhile_imp hc⟩

theorem exists_blanks_of_behind? (h : behind? expected text = some rest) :
    ∃ blanks, text = blanks ++ expected :: rest ∧ ∀ c ∈ blanks, isBlank c = true := by
  obtain ⟨blanks, heq, hblanks⟩ := exists_blanks text
  unfold behind? at h
  split at h
  · cases h
  · rename_i c cs hskip
    split at h
    · rename_i hc
      cases h
      rw [hskip, hc] at heq
      exact ⟨blanks, heq, hblanks⟩
    · cases h

/-- The text in front of the rest spells an operand with that value. -/
def OperandBefore (part : Phrase → Part) (text rest : List Char) (value : Literal) : Prop :=
  ∃ phrase front, text = front ++ rest ∧ Spells isBlank (part phrase) front ∧
    phrase.value? = some value

/-- The text in front of the rest spells a sum with that value, but for white space behind it. -/
def SumBefore (text rest : List Char) (value : Literal) : Prop :=
  ∃ phrase front blanks, text = front ++ (blanks ++ rest) ∧ (∀ c ∈ blanks, isBlank c = true) ∧
    Spells isBlank (.sum phrase) front ∧ phrase.value? = some value

def ItemsBefore (text rest : List Char) (values : List Literal) : Prop :=
  ∃ items front, text = front ++ rest ∧ Spells isBlank (.items items) front ∧
    Phrase.values? items = some values

def EntriesBefore (text rest : List Char) (values : List (String × Literal)) : Prop :=
  ∃ entries front, text = front ++ rest ∧ Spells isBlank (.entries entries) front ∧
    Phrase.entryValues? entries = some values

/-- What is read spells its value, where reading comes to less than the bound by its measure. -/
structure ReadsSpelled (bound : Nat) : Prop where
  primary : ∀ c cs value rest, 4 * (c :: cs).length < bound →
    outcome? (readPrimary c cs) = some (value, rest) → OperandBefore .primary (c :: cs) rest value
  term : ∀ text value rest, 4 * text.length + 1 < bound →
    outcome? (readTerm text) = some (value, rest) → OperandBefore .term text rest value
  sum : ∀ text value rest, 4 * text.length + 2 < bound →
    outcome? (readSum text) = some (value, rest) → SumBefore text rest value
  sumFrom : ∀ left front first text value rest, 4 * text.length + 2 < bound →
    Spells isBlank (.sum left) front → left.value? = some first →
      outcome? (readSumFrom first text) = some (value, rest) →
        SumBefore (front ++ text) rest value
  items : ∀ before text values rest, 4 * text.length + 3 < bound →
    outcome? (readItems before text) = some (values, rest) →
      ∃ more, values = before ++ more ∧ ItemsBefore text rest more
  entries : ∀ before text values rest, 4 * text.length + 3 < bound →
    outcome? (readEntries before text) = some (values, rest) →
      ∃ more, values = Table.putAll before more ∧ EntriesBefore text rest more

theorem spelled_readPrimary (ih : ReadsSpelled (4 * (c :: cs).length))
    (h : outcome? (readPrimary c cs) = some (value, rest)) :
    OperandBefore .primary (c :: cs) rest value := by
  have hlength : (c :: cs).length = cs.length + 1 := List.length_cons
  -- The first character says which kind of primary it is, and one case is left for each.
  rw [outcome?_readPrimary] at h
  split at h
  · rename_i hquote
    obtain ⟨⟨chars, after⟩, hread, heq⟩ := Option.map_eq_some_iff.mp h
    cases heq
    obtain ⟨inside, rfl, hinside⟩ := exists_inside_of_readString hread
    refine ⟨.string c inside, _, ?_, .string inside hquote, ?_⟩
    · rw [List.cons_append, List.append_assoc, List.singleton_append]
    · rw [Phrase.value?, hinside]
      rfl
  · split at h
    · rename_i hdigit
      obtain ⟨⟨number, after⟩, hread, heq⟩ := Option.map_eq_some_iff.mp h
      cases heq
      obtain ⟨digits, rfl, hnumber⟩ := exists_number_of_readNumber hdigit hread
      refine ⟨.number (c :: digits), _, rfl, .number hnumber, ?_⟩
      rw [Phrase.value?, hnumber]
      rfl
    · split at h
      · rename_i hopen
        obtain ⟨⟨inner, after⟩, hread, hclose⟩ := Option.bind_eq_some_iff.mp h
        obtain ⟨behind, hbehind, heq⟩ := Option.map_eq_some_iff.mp hclose
        cases heq
        obtain ⟨phrase, front, blanks, rfl, hblanks, hspells, hvalue⟩ :=
          ih.sum cs _ _ (by omega) hread
        obtain ⟨more, rfl, hmore⟩ := exists_blanks_of_behind? hbehind
        have hall : ∀ d ∈ blanks ++ more, isBlank d = true :=
          fun d hd => (List.mem_append.mp hd).elim (hblanks d) (hmore d)
        refine ⟨.parentheses phrase, _, ?_, .parentheses hspells hall, hvalue⟩
        rw [hopen]
        simp
      · split at h
        · rename_i hopen
          obtain ⟨⟨items, after⟩, hread, heq⟩ := Option.map_eq_some_iff.mp h
          cases heq
          obtain ⟨values, rfl, phrases, front, rfl, hspells, hvalues⟩ :=
            ih.items [] cs _ _ (by omega) hread
          refine ⟨.array phrases, _, by rw [hopen]; rfl, .array hspells, ?_⟩
          rw [Phrase.value?, hvalues]
          rfl
        · split at h
          · rename_i hopen
            obtain ⟨⟨entries, after⟩, hread, heq⟩ := Option.map_eq_some_iff.mp h
            cases heq
            obtain ⟨values, rfl, phrases, front, rfl, hspells, hvalues⟩ :=
              ih.entries [] cs _ _ (by omega) hread
            refine ⟨.object phrases, _, by rw [hopen]; rfl, .object hspells, ?_⟩
            rw [Phrase.value?, hvalues]
            rfl
          · split at h
            · rename_i hstart
              obtain ⟨constant, hconstant, heq⟩ := Option.map_eq_some_iff.mp h
              cases heq
              refine ⟨.word (c :: cs.takeWhile isIdentifierChar), _, ?_, .word ?_, hconstant⟩
              · rw [List.cons_append, List.takeWhile_append_dropWhile]
              · rw [isIdentifier, hstart, Bool.true_and, List.all_eq_true]
                exact fun d hd => List.mem_takeWhile_imp hd
            · cases h

theorem spelled_readTerm (ih : ReadsSpelled (4 * text.length + 1))
    (h : outcome? (readTerm text) = some (value, rest)) : OperandBefore .term text rest value := by
  obtain ⟨blanks, htext, hblanks⟩ := exists_blanks text
  rw [outcome?_readTerm] at h
  split at h
  · cases h
  · rename_i c cs hskip
    rw [hskip] at htext
    have hlength : cs.length < text.length := by
      rw [htext, List.length_append, List.length_cons]
      omega
    split at h
    · rename_i hsign
      obtain ⟨⟨operand, after⟩, hread, hsigned⟩ := Option.bind_eq_some_iff.mp h
      obtain ⟨number, hnumber, heq⟩ := Option.map_eq_some_iff.mp hsigned
      cases heq
      obtain ⟨phrase, front, rfl, hspells, hvalue⟩ := ih.term cs _ _ (by omega) hread
      refine ⟨.signed c phrase, blanks ++ c :: front, ?_, .signed hsign hspells hblanks, ?_⟩
      · rw [htext, List.append_assoc, List.cons_append]
      · rw [Phrase.value?, hvalue, Option.bind_some, hnumber]
        rfl
    · obtain ⟨phrase, front, heq, hspells, hvalue⟩ :=
        ih.primary c cs _ _ (by rw [List.length_cons]; omega) h
      refine ⟨phrase, blanks ++ front, ?_, .primary hspells hblanks, hvalue⟩
      rw [htext, heq, List.append_assoc]

theorem spelled_readSumFrom {left : Phrase} {front : List Char} {first : Literal}
    (ih : ReadsSpelled (4 * text.length + 2)) (hspells : Spells isBlank (.sum left) front)
    (hfirst : left.value? = some first)
    (h : outcome? (readSumFrom first text) = some (value, rest)) :
    SumBefore (front ++ text) rest value := by
  obtain ⟨blanks, htext, hblanks⟩ := exists_blanks text
  rw [outcome?_readSumFrom] at h
  split at h
  · rename_i hskip
    rw [hskip, List.append_nil] at htext
    cases h
    refine ⟨left, front, blanks, ?_, hblanks, hspells, hfirst⟩
    rw [htext, List.append_nil]
  · rename_i c cs hskip
    rw [hskip] at htext
    split at h
    · rename_i hplus
      obtain ⟨rfl, hhead⟩ := hplus
      obtain ⟨⟨term, after⟩, hread, hmore⟩ := Option.bind_eq_some_iff.mp h
      obtain ⟨sum, hsum, hmore⟩ := Option.bind_eq_some_iff.mp hmore
      have hlength : cs.length < text.length := by
        rw [htext, List.length_append, List.length_cons]
        omega
      obtain ⟨right, more, rfl, hright, hsecond⟩ := ih.term cs _ _ (by omega) hread
      have hnext : more.head? ≠ some '+' ∧ more.head? ≠ some '=' := by
        obtain ⟨between, d, ds, rfl, -⟩ := hright.first_term
        cases between <;> exact hhead
      have hall := Spells.sum hspells hblanks hright hnext
      have hvalue : (Phrase.sum left right).value? = some sum := by
        rw [Phrase.value?, hfirst, hsecond]
        exact hsum
      have hafter : after.length ≤ (more ++ after).length := by
        rw [List.length_append]
        omega
      have hbefore := ih.sumFrom _ _ _ after _ _ (by omega) hall hvalue hmore
      rw [htext]
      simpa using hbefore
    · cases h
      exact ⟨left, front, blanks, by rw [← htext], hblanks, hspells, hfirst⟩

theorem spelled_readSum (ih : ReadsSpelled (4 * text.length + 2))
    (h : outcome? (readSum text) = some (value, rest)) : SumBefore text rest value := by
  rw [outcome?_readSum] at h
  obtain ⟨⟨first, after⟩, hread, hmore⟩ := Option.bind_eq_some_iff.mp h
  obtain ⟨left, front, rfl, hspells, hvalue⟩ := ih.term text _ _ (by omega) hread
  have hfront : front.length ≠ 0 := by
    obtain ⟨blanks, c, cs, rfl, -⟩ := hspells.first_term
    simp
  rw [List.length_append] at ih
  exact ih.sumFrom _ _ _ after _ _ (by omega) (.term hspells) hvalue hmore

theorem SumBefore.closed {text more : List Char}
    (h : SumBefore text rest value) (hmore : behind? expected rest = some more) :
    ∃ phrase front blanks, text = front ++ (blanks ++ expected :: more) ∧
      (∀ c ∈ blanks, isBlank c = true) ∧ Spells isBlank (.sum phrase) front ∧
        phrase.value? = some value := by
  obtain ⟨phrase, front, blanks, rfl, hblanks, hspells, hvalue⟩ := h
  obtain ⟨others, rfl, hothers⟩ := exists_blanks_of_behind? hmore
  refine ⟨phrase, front, blanks ++ others, ?_, ?_, hspells, hvalue⟩
  · rw [List.append_assoc]
  · exact fun d hd => (List.mem_append.mp hd).elim (hblanks d) (hothers d)

theorem spelled_readItems {before values : List Literal}
    (ih : ReadsSpelled (4 * text.length + 3))
    (h : outcome? (readItems before text) = some (values, rest)) :
    ∃ more, values = before ++ more ∧ ItemsBefore text rest more := by
  rw [outcome?_readItems] at h
  split at h
  · rename_i after hclose
    cases h
    obtain ⟨blanks, rfl, hblanks⟩ := exists_blanks_of_behind? hclose
    refine ⟨[], (List.append_nil _).symm, [], _, ?_, .noItems hblanks, rfl⟩
    rw [List.append_assoc, List.singleton_append]
  · obtain ⟨⟨item, after⟩, hread, hmore⟩ := Option.bind_eq_some_iff.mp h
    have hsum := ih.sum text _ _ (by omega) hread
    dsimp only at hmore
    split at hmore
    · rename_i more hcomma
      obtain ⟨phrase, front, blanks, rfl, hblanks, hspells, hvalue⟩ :=
        hsum.closed hcomma
      have hlength : more.length < (front ++ (blanks ++ ',' :: more)).length := by
        simp only [List.length_append, List.length_cons]
        omega
      obtain ⟨later, rfl, phrases, text, rfl, hitems, hvalues⟩ :=
        ih.items _ more _ _ (by omega) hmore
      refine ⟨item :: later, by simp, phrase :: phrases, _, ?_, .item hspells hblanks hitems, ?_⟩
      · simp
      · rw [Phrase.values?, hvalue, hvalues]
        rfl
    · obtain ⟨behind, hclose, heq⟩ := Option.map_eq_some_iff.mp hmore
      cases heq
      obtain ⟨phrase, front, blanks, rfl, hblanks, hspells, hvalue⟩ :=
        hsum.closed hclose
      refine ⟨[item], rfl, [phrase], _, ?_, .lastItem hspells hblanks, ?_⟩
      · simp
      · rw [Phrase.values?, hvalue]
        rfl

theorem exists_key_of_readKey {name : String} (h : outcome? (readKey text) = some (name, rest)) :
    ∃ key : Key, text = key.code ++ rest ∧ key.IsValid ∧ key.text? = some name := by
  rw [outcome?_readKey] at h
  split at h
  · cases h
  · rename_i c cs
    split at h
    · rename_i hstart
      cases h
      refine ⟨.word (c :: cs.takeWhile isIdentifierChar), ?_, ?_, rfl⟩
      · rw [Key.code, List.cons_append, List.takeWhile_append_dropWhile]
      · rw [Key.IsValid, isIdentifier, hstart, Bool.true_and, List.all_eq_true]
        exact fun d hd => List.mem_takeWhile_imp hd
    · split at h
      · rename_i hquote
        obtain ⟨⟨chars, after⟩, hread, heq⟩ := Option.map_eq_some_iff.mp h
        cases heq
        obtain ⟨inside, rfl, hinside⟩ := exists_inside_of_readString hread
        refine ⟨.string c inside, ?_, hquote, ?_⟩
        · rw [Key.code, List.cons_append, List.append_assoc, List.singleton_append]
        · rw [Key.text?, hinside]
          rfl
      · split at h
        · rename_i hdigit
          obtain ⟨⟨number, after⟩, hread, heq⟩ := Option.map_eq_some_iff.mp h
          cases heq
          obtain ⟨digits, rfl, hnumber⟩ := exists_number_of_readNumber (Or.inl hdigit) hread
          refine ⟨.number (c :: digits), rfl, ⟨⟨c, rfl, hdigit⟩, ?_⟩, ?_⟩
          · rw [hnumber]
            rfl
          · rw [Key.text?, hnumber]
            rfl
        · cases h

theorem spelled_readEntries {before values : List (String × Literal)}
    (ih : ReadsSpelled (4 * text.length + 3))
    (h : outcome? (readEntries before text) = some (values, rest)) :
    ∃ more, values = Table.putAll before more ∧ EntriesBefore text rest more := by
  rw [outcome?_readEntries] at h
  split at h
  · rename_i after hclose
    cases h
    obtain ⟨blanks, rfl, hblanks⟩ := exists_blanks_of_behind? hclose
    refine ⟨[], rfl, [], _, ?_, .noEntries hblanks, rfl⟩
    rw [List.append_assoc, List.singleton_append]
  · obtain ⟨⟨name, afterKey⟩, hkey, h⟩ := Option.bind_eq_some_iff.mp h
    obtain ⟨afterColon, hcolon, h⟩ := Option.bind_eq_some_iff.mp h
    obtain ⟨⟨value, after⟩, hread, hmore⟩ := Option.bind_eq_some_iff.mp h
    obtain ⟨start, htext, hstart⟩ := exists_blanks text
    obtain ⟨key, hskip, hvalid, hname⟩ := exists_key_of_readKey hkey
    obtain ⟨between, rfl, hbetween⟩ := exists_blanks_of_behind? hcolon
    rw [hskip] at htext
    have hlength : afterColon.length < text.length := by
      rw [htext]
      simp only [List.length_append, List.length_cons]
      omega
    have hsum := ih.sum afterColon _ _ (by omega) hread
    dsimp only at hmore
    split at hmore
    · rename_i more hcomma
      obtain ⟨phrase, front, blanks, rfl, hblanks, hspells, hvalue⟩ :=
        hsum.closed hcomma
      have hshorter : more.length < (front ++ (blanks ++ ',' :: more)).length := by
        simp only [List.length_append, List.length_cons]
        omega
      obtain ⟨later, rfl, phrases, back, rfl, hentries, hvalues⟩ :=
        ih.entries _ more _ _ (by omega) hmore
      refine ⟨(name, value) :: later, rfl, (key, phrase) :: phrases, _, ?_,
        .entry hstart hvalid hbetween hspells hblanks hentries, ?_⟩
      · rw [htext]
        simp
      · rw [Phrase.entryValues?, hname, hvalue, hvalues]
        rfl
    · obtain ⟨behind, hclose, heq⟩ := Option.map_eq_some_iff.mp hmore
      cases heq
      obtain ⟨phrase, front, blanks, rfl, hblanks, hspells, hvalue⟩ :=
        hsum.closed hclose
      refine ⟨[(name, value)], rfl, [(key, phrase)], _, ?_,
        .lastEntry hstart hvalid hbetween hspells hblanks, ?_⟩
      · rw [htext]
        simp
      · rw [Phrase.entryValues?, hname, hvalue]
        rfl

theorem readsSpelled (bound : Nat) : ReadsSpelled bound := by
  -- a reader goes on to another at the same text only in the order of `ReadsSpelled`
  induction bound using Nat.strongRecOn with
  | ind bound ih =>
    constructor
    · exact fun c cs value rest hbound => spelled_readPrimary (ih _ hbound)
    · exact fun text value rest hbound => spelled_readTerm (ih _ hbound)
    · exact fun text value rest hbound => spelled_readSum (ih _ hbound)
    · exact fun left front first text value rest hbound => spelled_readSumFrom (ih _ hbound)
    · exact fun before text values rest hbound => spelled_readItems (ih _ hbound)
    · exact fun before text values rest hbound => spelled_readEntries (ih _ hbound)

theorem exists_phrase_of_evaluateChars (h : evaluateChars text = .ok value) :
    ∃ phrase front blanks, text = front ++ blanks ∧ (∀ c ∈ blanks, isBlank c = true) ∧
      Spells isBlank (.sum phrase) front ∧ phrase.value? = some value := by
  obtain ⟨rest, hread, hskip⟩ := evaluateChars_eq_ok_iff.mp h
  obtain ⟨phrase, front, blanks, rfl, hblanks, hspells, hvalue⟩ :=
    (readsSpelled _).sum text value rest (Nat.lt_succ_self _) hread
  refine ⟨phrase, front, blanks ++ rest, rfl, ?_, hspells, hvalue⟩
  intro c hc
  exact (List.mem_append.mp hc).elim (hblanks c) (List.dropWhile_eq_nil_iff.mp hskip c)

end

end TemplateMessages.Expression
