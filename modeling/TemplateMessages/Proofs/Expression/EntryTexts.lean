import TemplateMessages.Expression.Entries
import TemplateMessages.Proofs.Expression.Passing
import TemplateMessages.Proofs.Expression.PhraseOf
import TemplateMessages.Proofs.Table
import TemplateMessages.Proofs.Text.Characters

set_option autoImplicit false

/-!
# Entries of constant objects

The source texts of the entries of an object are those of its keys and values: what is split at the
commas and colons outside brackets and strings is what the reader of expressions reads there. This
holds as long as there is no backslash, which has a meaning in a string only for the reader.
-/

namespace TemplateMessages.Expression

open TemplateMessages.Text

section

variable {before blanks text : List Char} {value : Literal}

theorem isBlank_of_mem_nil : ∀ c ∈ ([] : List Char), isBlank c = true :=
  List.forall_mem_nil _

theorem trim_of_endsOperand {c : Char} {cs : List Char} (hbefore : ∀ d ∈ before, isBlank d = true)
    (hfirst : isBlank c = false) (h : EndsOperand (c :: cs))
    (hblanks : ∀ d ∈ blanks, isBlank d = true) :
    trim (before ++ (c :: cs ++ blanks)) = c :: cs := by
  obtain ⟨init, d, heq, hlast⟩ := h.eq_append
  have hstart : trimStart (before ++ (c :: cs ++ blanks)) = init ++ [d] ++ blanks := by
    rw [trimStart, List.dropWhile_append_of_pos hbefore, ← heq, List.cons_append]
    exact List.dropWhile_cons_of_neg (Bool.eq_false_iff.mp hfirst)
  rw [trim, hstart, trimEnd_append_blanks _ (List.all_eq_true.mpr hblanks),
    trimEnd_concat _ hlast, heq]

theorem trim_blanks (hblanks : ∀ c ∈ blanks, isBlank c = true) : trim blanks = [] := by
  have hstart : trimStart blanks = [] := List.dropWhile_eq_nil_iff.mpr hblanks
  rw [trim, hstart]
  rfl

theorem outcome?_readSum_append_blanks (hbefore : ∀ c ∈ before, isBlank c = true)
    (text : List Char) : outcome? (readSum (before ++ text)) = outcome? (readSum text) := by
  rw [outcome?_readSum, outcome?_readSum, outcome?_readTerm, outcome?_readTerm,
    skipBlanks_append hbefore]

theorem evaluate_trim {phrase : Phrase} (h : Spells isBlank (.sum phrase) text)
    (hvalue : phrase.value? = some value) : evaluate (String.ofList (trim text)) = .ok value := by
  have hread := evaluateChars_of_spells h hvalue isBlank_of_mem_nil
  have hends := h.endsOperand
  obtain ⟨before, c, cs, rfl, hbefore, hfirst⟩ := h.first_sum
  have hblank : isBlank c = false := by
    rcases hfirst with hfirst | rfl | rfl
    · exact hfirst.isBlank_eq
    · rfl
    · rfl
  have htrim := trim_of_endsOperand hbefore hblank hends.of_append isBlank_of_mem_nil
  rw [List.append_nil] at hread htrim
  rw [htrim, evaluate, String.toList_ofList]
  rw [evaluateChars_eq_ok_iff] at hread ⊢
  rwa [outcome?_readSum_append_blanks hbefore] at hread

end

section

variable {key : Key} {name : String} {between text : List Char}

theorem propertyKey?_code (hkey : key.IsValid) (hname : key.text? = some name) :
    propertyKey? key.code = some name := by
  have hread {phrase : Phrase} {value : Literal}
      (h : Spells isBlank (.primary phrase) key.code) (hvalue : phrase.value? = some value) :
      evaluateChars key.code = .ok value := by
    have hterm : Spells isBlank (.term phrase) ([] ++ key.code) := .primary h isBlank_of_mem_nil
    have hevaluate := evaluateChars_of_spells (.term hterm) hvalue isBlank_of_mem_nil
    rwa [List.nil_append, List.append_nil] at hevaluate
  unfold propertyKey?
  cases key with
  | word chars =>
    cases hname
    exact if_pos hkey
  | string quote inside =>
    obtain ⟨value, hvalue, rfl⟩ := Option.map_eq_some_iff.mp hname
    have hstart : ¬isIdentifier (Key.string quote inside).code = true := by
      rcases hkey with rfl | rfl <;> exact Bool.false_ne_true
    have hliteral : (Phrase.string quote inside).value? = some (.string (String.ofList value)) := by
      rw [Phrase.value?, hvalue]
      rfl
    rw [if_neg hstart, hread (.string inside (hkey.imp id Or.inl)) hliteral]
  | number digits =>
    obtain ⟨value, hvalue, rfl⟩ := Option.map_eq_some_iff.mp hname
    obtain ⟨⟨c, hc, hdigit⟩, -⟩ := hkey
    obtain ⟨d, ds, rfl, -⟩ := numberValue?_cons hvalue
    cases hc
    have hstart : ¬isIdentifier (Key.number (c :: ds)).code = true := by
      intro hname
      have hstart := (Bool.and_eq_true_iff.mp hname).1
      rw [isDigit_eq_false_of_isIdentifierStart hstart] at hdigit
      cases hdigit
    have hliteral : (Phrase.number (c :: ds)).value? = some (.number value) := by
      rw [Phrase.value?, hvalue]
      rfl
    rw [if_neg hstart, hread (.number hvalue) hliteral]

theorem entry?_code (hkey : key.IsValid) (hname : key.text? = some name) (hslash : '\\' ∉ key.code)
    (hbetween : ∀ c ∈ between, isBlank c = true) (text : List Char) :
    entry? (key.code ++ (between ++ ':' :: text)) = some (name, String.ofList (trim text)) := by
  have hpasses : Nesting.Passes ':' (key.code ++ between) :=
    (hkey.passes hname hslash (by decide)).append (passes_blanks (by decide) hbetween)
  have hbehind : dropBytes (byteLength (key.code ++ between) + 1)
      (key.code ++ between ++ ':' :: text) = text := by
    have hdrop := dropBytes_byteLength_append (key.code ++ between ++ [':']) text
    rw [byteLength_append, List.append_assoc, List.singleton_append] at hdrop
    exact hdrop
  obtain ⟨c, cs, hcode, hfirst⟩ := hkey.first
  have htrim : trim (key.code ++ between) = key.code := by
    have hends := hkey.endsOperand
    rw [hcode] at hends ⊢
    exact trim_of_endsOperand isBlank_of_mem_nil hfirst.isBlank_eq hends hbetween
  unfold entry?
  rw [← List.append_assoc, findTopLevel_of_passes hpasses]
  dsimp only
  rw [takeBytes_byteLength_append, htrim, propertyKey?_code hkey hname, hbehind]
  rfl

end

def IsTextOf (text : String) (value : Literal) : Prop :=
  evaluate text = .ok value

/-- The parts of a text that are no white space, as entries. -/
def entries? (parts : List (List Char)) : Option (List (String × String)) :=
  ((parts.map trim).filter (! ·.isEmpty)).mapM entry?

theorem entries?_cons_of_blanks {blanks : List Char} (hblanks : ∀ c ∈ blanks, isBlank c = true)
    (parts : List (List Char)) : entries? (blanks :: parts) = entries? parts := by
  rw [entries?, List.map_cons, trim_blanks hblanks]
  rfl

theorem entries?_cons {part : List Char} {entry : String × String} (hne : trim part ≠ [])
    (h : entry? (trim part) = some entry) (parts : List (List Char)) :
    entries? (part :: parts) = (entries? parts).map (entry :: ·) := by
  have hkept : (trim part :: parts.map trim).filter (! ·.isEmpty) =
      trim part :: (parts.map trim).filter (! ·.isEmpty) :=
    List.filter_cons_of_pos (by simpa [List.isEmpty_iff] using hne)
  rw [entries?, List.map_cons, hkept, List.mapM_cons, h]
  change (entries? parts).bind (fun entries => some (entry :: entries)) = _
  cases entries? parts <;> rfl

/-- An entry as it is written up to the comma or the brace behind it, with its key and value. -/
structure WrittenEntry where
  before : List Char
  key : Key
  between : List Char
  text : List Char
  blanks : List Char
  phrase : Phrase
  name : String
  value : Literal

namespace WrittenEntry

def code (entry : WrittenEntry) : List Char :=
  entry.before ++ (entry.key.code ++ (entry.between ++ ':' :: (entry.text ++ entry.blanks)))

structure IsWellWritten (entry : WrittenEntry) : Prop where
  before : ∀ c ∈ entry.before, isBlank c = true
  key : entry.key.IsValid
  name : entry.key.text? = some entry.name
  between : ∀ c ∈ entry.between, isBlank c = true
  spells : Spells isBlank (.sum entry.phrase) entry.text
  value : entry.phrase.value? = some entry.value
  blanks : ∀ c ∈ entry.blanks, isBlank c = true
  noBackslash : '\\' ∉ entry.code

variable {entry : WrittenEntry}

theorem IsWellWritten.passes (h : entry.IsWellWritten) : Nesting.Passes ',' entry.code := by
  have hslash := h.noBackslash
  simp only [code, List.mem_append, List.mem_cons, not_or] at hslash
  have hcomma : ',' ∈ [',', ':'] := by decide
  have htext : Nesting.Passes ',' entry.text :=
    isPassed_of_spells hcomma h.spells hslash.2.2.2.2.1 entry.value h.value
  have hcolon := (htext.append (passes_blanks hcomma h.blanks)).cons_separator (c := ':')
    (by decide) (by decide)
  exact (passes_blanks hcomma h.before).append ((h.key.passes h.name hslash.2.1 hcomma).append
    ((passes_blanks hcomma h.between).append hcolon))

def entryText (entry : WrittenEntry) : String × String :=
  (entry.name, String.ofList (trim entry.text))

theorem IsWellWritten.trim_code (h : entry.IsWellWritten) :
    trim entry.code = entry.key.code ++ (entry.between ++ ':' :: entry.text) := by
  obtain ⟨c, cs, hcode, hfirst⟩ := h.key.first
  have hends := ((h.spells.endsOperand.cons ':').append entry.between).append entry.key.code
  rw [hcode, List.cons_append] at hends
  have htrim := trim_of_endsOperand h.before hfirst.isBlank_eq hends h.blanks
  rw [code, hcode]
  simpa using htrim

theorem IsWellWritten.isTextOf (h : entry.IsWellWritten) :
    IsTextOf entry.entryText.2 entry.value :=
  evaluate_trim h.spells h.value

theorem IsWellWritten.entries?_cons (h : entry.IsWellWritten) (parts : List (List Char)) :
    entries? (entry.code :: parts) = (entries? parts).map (entry.entryText :: ·) := by
  have hslash := h.noBackslash
  simp only [code, List.mem_append, not_or] at hslash
  have hentry := entry?_code h.key h.name hslash.2.1 h.between entry.text
  obtain ⟨c, cs, hcode, -⟩ := h.key.first
  have hne : trim entry.code ≠ [] := by
    rw [h.trim_code, hcode]
    exact List.cons_ne_nil _ _
  refine Expression.entries?_cons hne ?_ parts
  rw [h.trim_code, hentry, entryText]

end WrittenEntry

theorem entries?_of_spells {entries : List (Key × Phrase)} {text : List Char}
    {values : List (String × Literal)} (h : Spells isBlank (.entries entries) text)
    (hvalues : Phrase.entryValues? entries = some values) (hslash : '\\' ∉ text) :
    ∃ body parts raws, text = body ++ ['}'] ∧ splitTopLevel body ',' = some parts ∧
      entries? parts = some raws ∧ Table.Related IsTextOf raws values := by
  -- On the spelling of the entries: an entry adds one part to the split and one raw text.
  generalize hpart : Part.entries entries = part at h
  induction h generalizing entries values with
  | noEntries hblanks =>
    cases hpart
    cases hvalues
    exact ⟨_, [_], [], rfl, splitTopLevel_of_passes (passes_blanks (by decide) hblanks),
      entries?_cons_of_blanks hblanks [], .nil⟩
  | @lastEntry key phrase text before between blanks hbefore hkey hbetween h hblanks _ =>
    cases hpart
    obtain ⟨name, hname, hvalues⟩ := Option.bind_eq_some_iff.mp hvalues
    obtain ⟨value, hvalue, hvalues⟩ := Option.bind_eq_some_iff.mp hvalues
    cases hvalues
    let entry : WrittenEntry := ⟨before, key, between, text, blanks, phrase, name, value⟩
    have hcode : before ++ (key.code ++ (between ++ ':' :: (text ++ (blanks ++ ['}'])))) =
        entry.code ++ ['}'] := by
      simp [WrittenEntry.code, entry]
    rw [hcode, List.mem_append, not_or] at hslash
    have hwritten : entry.IsWellWritten :=
      ⟨hbefore, hkey, hname, hbetween, h, hvalue, hblanks, hslash.1⟩
    exact ⟨entry.code, [entry.code], [entry.entryText], hcode,
      splitTopLevel_of_passes hwritten.passes, hwritten.entries?_cons [],
      .cons ⟨rfl, hwritten.isTextOf⟩ .nil⟩
  | @entry key phrase others text more before between blanks hbefore hkey hbetween h hblanks
      _ _ ih =>
    cases hpart
    obtain ⟨name, hname, hvalues⟩ := Option.bind_eq_some_iff.mp hvalues
    obtain ⟨value, hvalue, hvalues⟩ := Option.bind_eq_some_iff.mp hvalues
    obtain ⟨later, hlater, hvalues⟩ := Option.bind_eq_some_iff.mp hvalues
    cases hvalues
    let entry : WrittenEntry := ⟨before, key, between, text, blanks, phrase, name, value⟩
    have hcode : before ++ (key.code ++ (between ++ ':' :: (text ++ (blanks ++ ',' :: more)))) =
        entry.code ++ ',' :: more := by
      simp [WrittenEntry.code, entry]
    rw [hcode, List.mem_append, List.mem_cons, not_or, not_or] at hslash
    have hwritten : entry.IsWellWritten :=
      ⟨hbefore, hkey, hname, hbetween, h, hvalue, hblanks, hslash.1⟩
    obtain ⟨body, parts, raws, rfl, hsplit, hraws, hall⟩ := ih hlater hslash.2.2 rfl
    refine ⟨entry.code ++ ',' :: body, entry.code :: parts, entry.entryText :: raws, ?_, ?_, ?_,
      .cons ⟨rfl, hwritten.isTextOf⟩ hall⟩
    · rw [hcode, List.append_assoc, List.cons_append]
    · rw [splitTopLevel_append_of_passes hwritten.passes, hsplit]
      rfl
    · rw [hwritten.entries?_cons, hraws]
      rfl
  | _ => cases hpart

theorem add?_ne_object (a b : Literal) (entries : List (String × Literal)) :
    a.add? b ≠ some (.object entries) := by
  intro h
  rcases add?_cases h with ⟨x, y, -, -, heq⟩ | ⟨text, heq⟩ <;> cases heq

theorem constant?_ne_object (name : List Char) (entries : List (String × Literal)) :
    constant? name ≠ some (.object entries) := by
  unfold constant?
  split <;> exact fun h => by cases h

theorem exists_entries_of_object {phrase : Phrase} {text : List Char}
    {entries : List (String × Literal)} (h : Spells isBlank (.sum phrase) text)
    (hvalue : phrase.value? = some (.object entries)) :
    ∃ before c cs, text = before ++ c :: cs ∧ (∀ d ∈ before, isBlank d = true) ∧
      isBlank c = false ∧ (c = '{' → ∃ keys values, Spells isBlank (.entries keys) cs ∧
        Phrase.entryValues? keys = some values ∧ entries = Table.ofList values) := by
  cases h with
  | sum _ _ _ _ =>
    obtain ⟨left, -, hvalue⟩ := Option.bind_eq_some_iff.mp hvalue
    obtain ⟨right, -, hadd⟩ := Option.bind_eq_some_iff.mp hvalue
    exact absurd hadd (add?_ne_object left right entries)
  | term h =>
    cases h with
    | signed _ _ _ =>
      obtain ⟨number, -, heq⟩ := Option.map_eq_some_iff.mp hvalue
      cases heq
    | primary h hblanks =>
      cases h with
      | string _ _ =>
        obtain ⟨chars, -, heq⟩ := Option.map_eq_some_iff.mp hvalue
        cases heq
      | number _ =>
        obtain ⟨number, -, heq⟩ := Option.map_eq_some_iff.mp hvalue
        cases heq
      | word _ => exact absurd hvalue (constant?_ne_object _ entries)
      | parentheses _ _ => exact ⟨_, '(', _, rfl, hblanks, rfl, fun h => absurd h (by decide)⟩
      | array _ =>
        obtain ⟨values, -, heq⟩ := Option.map_eq_some_iff.mp hvalue
        cases heq
      | object h =>
        obtain ⟨values, hvalues, heq⟩ := Option.map_eq_some_iff.mp hvalue
        cases heq
        exact ⟨_, '{', _, rfl, hblanks, rfl, fun _ => ⟨_, values, h, hvalues, rfl⟩⟩

/-- The texts of the entries give the values of the object: its keys are those that have a text, and
the value under a key is that of the last text under it. -/
theorem objectEntries_agree {text : String} {entries : List (String × Literal)}
    (hslash : '\\' ∉ text.toList) (hbrace : (trim text.toList).head? = some '{')
    (h : evaluate text = .ok (.object entries)) :
    ∃ raws, objectEntries text = some raws ∧
      (∀ key, key ∈ raws.map Prod.fst ↔ key ∈ entries.map Prod.fst) ∧
      ∀ key value, (Literal.object entries).get? key = some value →
        ∃ raw, Table.get? raws.reverse key = some raw ∧ evaluate raw = .ok value := by
  obtain ⟨phrase, front, blanks, htext, hblanks, hspells, hvalue⟩ :=
    exists_phrase_of_evaluateChars h
  have hends := hspells.endsOperand
  obtain ⟨before, c, cs, rfl, hbefore, hfirst, hobject⟩ := exists_entries_of_object hspells hvalue
  have htrim := trim_of_endsOperand hbefore hfirst hends.of_append hblanks
  rw [← List.append_assoc, ← htext] at htrim
  rw [htrim] at hbrace
  cases hbrace
  obtain ⟨keys, values, hentries, hvalues, rfl⟩ := hobject rfl
  have hslash' : '\\' ∉ cs := by
    intro hmem
    rw [htext] at hslash
    simp [hmem] at hslash
  obtain ⟨body, parts, raws, rfl, hsplit, hraws, hall⟩ :=
    entries?_of_spells hentries hvalues hslash'
  have hbraced : braced? ('{' :: (body ++ ['}'])) = some body := by
    unfold braced?
    dsimp only
    rw [if_pos ⟨rfl, List.getLast?_concat⟩, List.dropLast_concat]
  refine ⟨raws, ?_, ?_, ?_⟩
  · unfold objectEntries
    rw [htrim, hbraced]
    change (splitTopLevel body ',').bind (fun parts => entries? parts) = some raws
    rw [hsplit]
    exact hraws
  · intro key
    simp [hall.keys_eq]
  · intro key value hget
    have hlast : Table.get? values.reverse key = some value := by
      rw [← Table.get?_ofList]
      exact hget
    have hreverse : Table.Related IsTextOf raws.reverse values.reverse := List.rel_reverse hall
    have hrel := hreverse.get? key
    rw [hlast] at hrel
    cases hraw : Table.get? raws.reverse key with
    | none =>
      rw [hraw] at hrel
      cases hrel
    | some raw =>
      rw [hraw] at hrel
      cases hrel with
      | some hvalue => exact ⟨raw, rfl, hvalue⟩

/-- One key twice, in two forms. -/
def repeatedKey : String := " \x7b a: [1, 'b:c'], 'a': 2 + 3, \x7d "

theorem objectEntries_agree_repeatedKey :
    ∃ raws raw, objectEntries repeatedKey = some raws ∧
      Table.get? raws.reverse "a" = some raw ∧
        (evaluate raw).toOption.map Literal.text = some "5" := by
  have hget : ((evaluate repeatedKey).toOption.bind (·.get? "a")).map Literal.text = some "5" := by
    decide +kernel
  obtain ⟨value, hvalue, htext⟩ := Option.map_eq_some_iff.mp hget
  obtain ⟨literal, hliteral, hvalue⟩ := Option.bind_eq_some_iff.mp hvalue
  cases hevaluate : evaluate repeatedKey with
  | error error =>
    rw [hevaluate] at hliteral
    cases hliteral
  | ok found =>
    rw [hevaluate] at hliteral
    cases hliteral
    cases literal with
    | object entries =>
      obtain ⟨raws, hraws, -, hlast⟩ :=
        objectEntries_agree (by decide +kernel) (by decide +kernel) hevaluate
      obtain ⟨raw, hraw, heq⟩ := hlast "a" value hvalue
      refine ⟨raws, raw, hraws, hraw, ?_⟩
      rw [heq]
      exact congrArg some htext
    | _ => cases hvalue

end TemplateMessages.Expression
