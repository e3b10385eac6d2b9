import TemplateMessages.Expression.Reader

set_option autoImplicit false

/-!
# Reading back string literals

A string literal is read as a constant. It gives the text that was written, but for the two Unicode
separators: they are written as `\u2028` and `\u2029`, and that escape is not read as one.
-/

namespace TemplateMessages.Expression

open TemplateMessages.Text (Rest Shorter firstBehind? isBlank skipBlanks)

/-- The line separator and the paragraph separator. -/
def IsSeparator (c : Char) : Prop :=
  c = '\u2028' ∨ c = '\u2029'

instance (c : Char) : Decidable (IsSeparator c) :=
  inferInstanceAs (Decidable (_ ∨ _))

/-- What a character of a text is read as. -/
def respellChar (c : Char) : List Char :=
  if c = '\u2028' then ['u', '2', '0', '2', '8']
  else if c = '\u2029' then ['u', '2', '0', '2', '9']
  else [c]

def respelled (text : String) : String :=
  String.ofList (text.toList.flatMap respellChar)

variable {c d : Char} {text : List Char}

theorem respellChar_of_not_isSeparator (h : ¬IsSeparator c) : respellChar c = [c] := by
  obtain ⟨hline, hparagraph⟩ := not_or.mp h
  rw [respellChar, if_neg hline, if_neg hparagraph]

theorem not_isSeparator_of_mem_respellChar (h : d ∈ respellChar c) : ¬IsSeparator d := by
  by_cases hc : IsSeparator c
  · have hall : (respellChar c).all (fun e => !decide (IsSeparator e)) = true := by
      rcases hc with rfl | rfl <;> decide
    simpa using List.all_eq_true.mp hall d h
  · rw [respellChar_of_not_isSeparator hc] at h
    rwa [List.mem_singleton.mp h]

theorem not_isSeparator_of_mem_respell (h : d ∈ text.flatMap respellChar) : ¬IsSeparator d := by
  obtain ⟨c, -, hd⟩ := List.mem_flatMap.mp h
  exact not_isSeparator_of_mem_respellChar hd

theorem respell_eq_self (h : ∀ c ∈ text, ¬IsSeparator c) : text.flatMap respellChar = text := by
  induction text with
  | nil => rfl
  | cons c cs ih =>
    rw [List.forall_mem_cons] at h
    rw [List.flatMap_cons, respellChar_of_not_isSeparator h.1, ih h.2, List.singleton_append]

theorem respelled_eq_self_iff (text : String) :
    respelled text = text ↔ ∀ c ∈ text.toList, ¬IsSeparator c := by
  constructor
  · intro heq c hc
    rw [← heq, respelled, String.toList_ofList] at hc
    exact not_isSeparator_of_mem_respell hc
  · intro h
    rw [respelled, respell_eq_self h, String.ofList_toList]

/-- What was read, and the text behind it. -/
def Reading.result {α : Type} {text : List Char} (reading : Reading α text) :
    Except (List Char) (α × List Char) :=
  reading.map fun (value, rest) => (value, rest.val)

theorem Reading.exists_of_result {α : Type} {text rest : List Char} {value : α}
    {reading : Reading α text} (h : reading.result = .ok (value, rest)) :
    ∃ shorter, reading = .ok (value, shorter) ∧ shorter.val = rest := by
  cases reading with
  | error stop => cases h
  | ok pair =>
    obtain ⟨value', shorter⟩ := pair
    cases h
    exact ⟨shorter, rfl, rfl⟩

theorem readString_cons {quote : Char} {cs : List Char} (hquote : c ≠ quote) (hslash : c ≠ '\\')
    (hback : quote ≠ '\x60') (hbreak : c ≠ '\n') :
    (readString quote (c :: cs)).result =
      (readString quote cs).result.map fun (value, rest) => (c :: value, rest) := by
  have hsubstitution : ¬(c = '$' ∧ quote = '\x60' ∧ cs.head? = some '{') := fun h => hback h.2.1
  have hline : ¬(c = '\n' ∧ quote ≠ '\x60') := fun h => hbreak h.1
  conv => lhs; rw [readString.eq_def]
  dsimp only
  rw [if_neg hquote, if_neg hslash, if_neg hsubstitution, if_neg hline]
  cases readString quote cs <;> rfl

theorem readString_append {quote : Char} {chars cs : List Char}
    (h : ∀ c ∈ chars, c ≠ quote ∧ c ≠ '\\' ∧ c ≠ '\n') (hback : quote ≠ '\x60') :
    (readString quote (chars ++ cs)).result =
      (readString quote cs).result.map fun (value, rest) => (chars ++ value, rest) := by
  induction chars with
  | nil =>
    rw [List.nil_append]
    cases (readString quote cs).result <;> rfl
  | cons c chars ih =>
    rw [List.forall_mem_cons] at h
    rw [List.cons_append, readString_cons h.1.1 h.1.2.1 hback h.1.2.2, ih h.2]
    cases (readString quote cs).result <;> rfl

theorem readString_escape {quote : Char} (hslash : '\\' ≠ quote) (e : Char) (cs : List Char) :
    (readString quote ('\\' :: e :: cs)).result =
      (readString quote cs).result.map fun (value, rest) =>
        (if e = 'n' then '\n' :: value
          else if e = 't' then '\t' :: value
          else if e = 'r' then '\r' :: value
          else if e = '0' then '\x00' :: value
          else if e = '\n' then value
          else e :: value, rest) := by
  conv => lhs; rw [readString.eq_def]
  dsimp only
  rw [if_neg hslash, if_pos rfl]
  cases readString quote cs <;> rfl

theorem readString_escapeChar (c : Char) (cs : List Char) :
    (readString '\x27' (escapeChar c ++ cs)).result =
      (readString '\x27' cs).result.map fun (value, rest) => (respellChar c ++ value, rest) := by
  have hescape := readString_escape (show '\\' ≠ '\x27' by decide)
  have hcode : ∀ code : List Char, (∀ c ∈ code, c ≠ '\x27' ∧ c ≠ '\\' ∧ c ≠ '\n') →
      (readString '\x27' ('\\' :: 'u' :: (code ++ cs))).result =
        (readString '\x27' cs).result.map fun (value, rest) => ('u' :: (code ++ value), rest) := by
    intro code hplain
    rw [hescape, readString_append hplain (by decide)]
    cases (readString '\x27' cs).result <;> rfl
  unfold escapeChar
  by_cases hslash : c = '\\'
  · subst hslash
    exact hescape '\\' cs
  by_cases hquote : c = '\x27'
  · subst hquote
    exact hescape '\x27' cs
  by_cases hn : c = '\n'
  · subst hn
    exact hescape 'n' cs
  by_cases hr : c = '\r'
  · subst hr
    exact hescape 'r' cs
  by_cases ht : c = '\t'
  · subst ht
    exact hescape 't' cs
  by_cases hline : c = '\u2028'
  · subst hline
    exact hcode ['2', '0', '2', '8'] (by simp)
  by_cases hparagraph : c = '\u2029'
  · subst hparagraph
    exact hcode ['2', '0', '2', '9'] (by simp)
  rw [if_neg hslash, if_neg hquote, if_neg hn, if_neg hr, if_neg ht, if_neg hline,
    if_neg hparagraph, respellChar_of_not_isSeparator (not_or.mpr ⟨hline, hparagraph⟩)]
  exact readString_cons hquote hslash (by decide) hn

theorem readString_escaped (text rest : List Char) :
    (readString '\x27' (text.flatMap escapeChar ++ '\x27' :: rest)).result =
      .ok (text.flatMap respellChar, rest) := by
  induction text with
  | nil =>
    rw [List.flatMap_nil, List.nil_append, readString.eq_def]
    rfl
  | cons c cs ih =>
    rw [List.flatMap_cons, List.append_assoc, readString_escapeChar, ih]
    rfl

theorem evaluateChars_quotedChars (text : List Char) :
    evaluateChars (quotedChars text) = .ok (.string (String.ofList (text.flatMap respellChar))) := by
  obtain ⟨rest, hread, hrest⟩ := Reading.exists_of_result (readString_escaped text [])
  obtain ⟨rest, hlength⟩ := rest
  obtain rfl : rest = [] := hrest
  have hfirst : firstBehind? isBlank (quotedChars text) = some ('\x27', .tail _ _) := rfl
  have hsign : ¬('\x27' = '-' ∨ '\x27' = '+') := by decide
  unfold evaluateChars
  rw [readSum.eq_def, readTerm.eq_def, hfirst]
  dsimp only [Shorter.tail]
  rw [if_neg hsign, readPrimary.eq_def, if_pos (.inl rfl), hread]
  dsimp only [Shorter.past, Shorter.within]
  rw [readSumFrom.eq_def]
  rfl

@[simp] theorem evaluate_quoted (text : String) :
    evaluate (quoted text) = .ok (.string (respelled text)) := by
  rw [evaluate, quoted, String.toList_ofList]
  exact evaluateChars_quotedChars text.toList

end TemplateMessages.Expression
