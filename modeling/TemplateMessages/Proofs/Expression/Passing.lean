import TemplateMessages.Proofs.Expression.Feeding
import TemplateMessages.Proofs.Expression.PhraseReading

set_option autoImplicit false

/-!
# Passing over phrases

A nesting that comes to a phrase is the same behind it, and meets no separator in it outside brackets
and strings, as long as there is no backslash in it. Such a text is passed over where a text is split
at a separator or a separator is searched for.
-/

namespace TemplateMessages.Expression

open TemplateMessages.Text

namespace Nesting

/-- The nesting behind a text, if there is no mismatch in it and no separator outside brackets and
strings. -/
def pass? (separator : Char) (nesting : Nesting) (text : List Char) : Option Nesting :=
  text.foldlM (fun nesting c =>
    if c = separator ∧ nesting.isBalanced then none else nesting.feed? c) nesting

variable {separator c : Char} {nesting next : Nesting} {text : List Char}

theorem pass?_cons (separator : Char) (nesting : Nesting) (c : Char) (cs : List Char) :
    nesting.pass? separator (c :: cs) =
      (if c = separator ∧ nesting.isBalanced then none else nesting.feed? c).bind
        (pass? separator · cs) :=
  rfl

@[simp] theorem pass?_append (separator : Char) (nesting : Nesting) (text more : List Char) :
    nesting.pass? separator (text ++ more) =
      (nesting.pass? separator text).bind (pass? separator · more) :=
  List.foldlM_append

theorem splitFrom_cons (nesting : Nesting) (separator c : Char) (cs : List Char) :
    nesting.splitFrom separator (c :: cs) =
      if c = separator ∧ nesting.isBalanced then (nesting.splitFrom separator cs).map ([] :: ·)
      else (nesting.feed? c).bind fun next => (next.splitFrom separator cs).map (consFirst c) := by
  rw [splitFrom, feed?]
  obtain ⟨next, step⟩ := nesting.feed c
  cases step <;> rfl

theorem findFrom_cons (nesting : Nesting) (separator c : Char) (cs : List Char) :
    nesting.findFrom separator (c :: cs) =
      if c = separator ∧ nesting.isBalanced then some 0
      else (nesting.feed? c).bind fun next =>
        (next.findFrom separator cs).map (c.utf8Size + ·) := by
  rw [findFrom, feed?]
  obtain ⟨next, step⟩ := nesting.feed c
  cases step <;> rfl

/-- A text that is passed over is put in front of the first part behind it. -/
theorem splitFrom_pass (h : nesting.pass? separator text = some next) (rest : List Char) :
    nesting.splitFrom separator (text ++ rest) =
      (next.splitFrom separator rest).map (fun parts => text.foldr consFirst parts) := by
  induction text generalizing nesting with
  | nil =>
    cases h
    exact (Option.map_id' ..).symm
  | cons c cs ih =>
    rw [pass?_cons] at h
    obtain ⟨middle, hmiddle, hcs⟩ := Option.bind_eq_some_iff.mp h
    split at hmiddle
    · cases hmiddle
    · rename_i hseparator
      rw [List.cons_append, splitFrom_cons, if_neg hseparator, hmiddle, Option.bind_some, ih hcs,
        Option.map_map]
      rfl

theorem findFrom_pass (h : nesting.pass? separator text = some next) (rest : List Char) :
    nesting.findFrom separator (text ++ rest) =
      (next.findFrom separator rest).map (byteLength text + ·) := by
  induction text generalizing nesting with
  | nil =>
    cases h
    simp
  | cons c cs ih =>
    rw [pass?_cons] at h
    obtain ⟨middle, hmiddle, hcs⟩ := Option.bind_eq_some_iff.mp h
    split at hmiddle
    · cases hmiddle
    · rename_i hseparator
      rw [List.cons_append, findFrom_cons, if_neg hseparator, hmiddle, Option.bind_some, ih hcs,
        Option.map_map]
      congr 1
      funext position
      exact (Nat.add_assoc ..).symm

@[simp] theorem foldr_consFirst (text part : List Char) (parts : List (List Char)) :
    text.foldr consFirst (part :: parts) = (text ++ part) :: parts := by
  induction text with
  | nil => rfl
  | cons c cs ih =>
    rw [List.foldr_cons, ih]
    rfl

/-- The text is passed over outside strings, whatever brackets are open. -/
def Passes (separator : Char) (text : List Char) : Prop :=
  ∀ brackets, pass? separator ⟨brackets, none⟩ text = some ⟨brackets, none⟩

/-- The text is passed over up to the bracket that closes, and with it. -/
def Closes (separator : Char) (bracket : Bracket) (text : List Char) : Prop :=
  ∀ brackets, pass? separator ⟨bracket :: brackets, none⟩ text = some ⟨brackets, none⟩

/-- The characters that open or close something, and the separators. -/
def delimiters : List Char :=
  ['\x27', '\x22', '\x60', '(', ')', '[', ']', '{', '}', ',', ':']

theorem feed?_of_not_mem (h : c ∉ delimiters) (brackets : List Bracket) :
    feed? ⟨brackets, none⟩ c = some ⟨brackets, none⟩ := by
  simp only [delimiters, List.mem_cons, List.not_mem_nil, or_false, not_or] at h
  have hquote : Quote.ofChar? c = none := by simp [Quote.ofChar?, h]
  have hopening : Bracket.opening? c = none := by simp [Bracket.opening?, h]
  have hclosing : Bracket.closing? c = none := by simp [Bracket.closing?, h]
  simp [feed?, feed, hquote, hopening, hclosing]

section

variable {more : List Char} {bracket : Bracket}

theorem Passes.append (h : Passes separator text) (hmore : Passes separator more) :
    Passes separator (text ++ more) := by
  intro brackets
  rw [pass?_append, h, Option.bind_some, hmore]

theorem Passes.closes (h : Passes separator text) (hmore : Closes separator bracket more) :
    Closes separator bracket (text ++ more) := by
  intro brackets
  rw [pass?_append, h, Option.bind_some, hmore]

theorem passes_of_not_mem (hseparator : separator ∈ delimiters)
    (h : ∀ c ∈ text, c ∉ delimiters) : Passes separator text := by
  intro brackets
  induction text with
  | nil => rfl
  | cons c cs ih =>
    rw [List.forall_mem_cons] at h
    have hne : ¬(c = separator ∧ Nesting.isBalanced ⟨brackets, none⟩) := by
      rintro ⟨rfl, -⟩
      exact h.1 hseparator
    rw [pass?_cons, if_neg hne, feed?_of_not_mem h.1, Option.bind_some, ih h.2]

theorem pass?_string {quote : Quote} (brackets : List Bracket) (h : quote.toChar ∉ text) :
    pass? separator ⟨brackets, some quote⟩ text = some ⟨brackets, some quote⟩ := by
  induction text with
  | nil => rfl
  | cons c cs ih =>
    rw [List.mem_cons, not_or] at h
    have hfeed : feed? ⟨brackets, some quote⟩ c = some ⟨brackets, some quote⟩ := by
      simp [feed?, feed, Ne.symm h.1]
    have hopen : ¬(c = separator ∧ Nesting.isBalanced ⟨brackets, some quote⟩) := by
      simp [isBalanced]
    rw [pass?_cons, if_neg hopen, hfeed, Option.bind_some, ih h.2]

theorem passes_string {quote : Quote} (hseparator : separator ∈ [',', ':'])
    (h : quote.toChar ∉ text) : Passes separator (quote.toChar :: (text ++ [quote.toChar])) := by
  intro brackets
  have hne : ¬(quote.toChar = separator ∧ Nesting.isBalanced ⟨brackets, none⟩) := by
    rintro ⟨rfl, -⟩
    cases quote <;> exact absurd hseparator (by decide)
  have hopen : feed? ⟨brackets, none⟩ quote.toChar = some ⟨brackets, some quote⟩ := by
    cases quote <;> rfl
  have hclose : feed? ⟨brackets, some quote⟩ quote.toChar = some ⟨brackets, none⟩ := by
    simp [feed?, feed]
  have hinside : ¬(quote.toChar = separator ∧ Nesting.isBalanced ⟨brackets, some quote⟩) := by
    simp [isBalanced]
  rw [pass?_cons, if_neg hne, hopen, Option.bind_some, pass?_append, pass?_string brackets h,
    Option.bind_some, pass?_cons, if_neg hinside, hclose]
  rfl

theorem closes_singleton (hc : Bracket.closing? c = some bracket) :
    Closes separator bracket [c] := by
  intro brackets
  have hne : ¬(c = separator ∧ Nesting.isBalanced ⟨bracket :: brackets, none⟩) := by
    simp [isBalanced]
  have hfeed : feed? ⟨bracket :: brackets, none⟩ c = some ⟨brackets, none⟩ := by
    have hother : Quote.ofChar? c = none ∧ Bracket.opening? c = none := by
      unfold Bracket.closing? at hc
      split at hc
      · decide
      · decide
      · decide
      · cases hc
    cases brackets <;> simp [feed?, feed, hother, hc, close]
  rw [pass?_cons, if_neg hne, hfeed]
  rfl

theorem Closes.passes {opening : Char} (hopening : Bracket.opening? opening = some bracket)
    (hseparator : separator ∈ [',', ':']) (h : Closes separator bracket text) :
    Passes separator (opening :: text) := by
  intro brackets
  have hchar : Quote.ofChar? opening = none ∧ opening ∉ [',', ':'] := by
    unfold Bracket.opening? at hopening
    split at hopening
    · decide
    · decide
    · decide
    · cases hopening
  have hne : ¬(opening = separator ∧ Nesting.isBalanced ⟨brackets, none⟩) := by
    rintro ⟨rfl, -⟩
    exact hchar.2 hseparator
  have hfeed : feed? ⟨brackets, none⟩ opening = some ⟨bracket :: brackets, none⟩ := by
    simp [feed?, feed, hchar.1, hopening]
  rw [pass?_cons, if_neg hne, hfeed, Option.bind_some, h]

theorem feed?_of_separator (hc : c ∈ [',', ':']) (brackets : List Bracket) :
    feed? ⟨brackets, none⟩ c = some ⟨brackets, none⟩ := by
  have hother : Quote.ofChar? c = none ∧ Bracket.opening? c = none ∧ Bracket.closing? c = none := by
    revert hc c
    decide
  simp [feed?, feed, hother]

theorem Closes.cons_separator (hc : c ∈ [',', ':']) (h : Closes separator bracket text) :
    Closes separator bracket (c :: text) := by
  intro brackets
  have hne : ¬(c = separator ∧ Nesting.isBalanced ⟨bracket :: brackets, none⟩) := by
    simp [isBalanced]
  rw [pass?_cons, if_neg hne, feed?_of_separator hc, Option.bind_some, h]

theorem Passes.cons_separator (hc : c ∈ [',', ':']) (hne : c ≠ separator)
    (h : Passes separator text) : Passes separator (c :: text) := by
  intro brackets
  rw [pass?_cons, if_neg (fun h => hne h.1), feed?_of_separator hc, Option.bind_some, h]

end

end Nesting

theorem splitTopLevel_of_passes {separator : Char} {text : List Char}
    (h : Nesting.Passes separator text) : splitTopLevel text separator = some [text] := by
  have hsplit := Nesting.splitFrom_pass (h []) []
  rw [List.append_nil] at hsplit
  rw [splitTopLevel, Nesting.empty, hsplit, Nesting.splitFrom,
    if_pos (show Nesting.isBalanced ⟨[], none⟩ = true from rfl), Option.map_some,
    Nesting.foldr_consFirst, List.append_nil]

theorem splitTopLevel_append_of_passes {separator : Char} {text : List Char}
    (h : Nesting.Passes separator text) (rest : List Char) :
    splitTopLevel (text ++ separator :: rest) separator =
      (splitTopLevel rest separator).map (text :: ·) := by
  rw [splitTopLevel, Nesting.empty, Nesting.splitFrom_pass (h []), Nesting.splitFrom_cons,
    if_pos ⟨rfl, rfl⟩, Option.map_map, splitTopLevel]
  congr 1
  funext parts
  exact (Nesting.foldr_consFirst text [] parts).trans (by rw [List.append_nil])

theorem findTopLevel_of_passes {separator : Char} {text : List Char}
    (h : Nesting.Passes separator text) (rest : List Char) :
    findTopLevel (text ++ separator :: rest) separator = some (byteLength text) := by
  rw [findTopLevel, Nesting.empty, Nesting.findFrom_pass (h []), Nesting.findFrom_cons,
    if_pos ⟨rfl, rfl⟩]
  rfl

section

variable {separator c : Char} {text more blanks : List Char}

open Nesting (Passes Closes passes_of_not_mem passes_string closes_singleton delimiters)

theorem not_mem_delimiters_of_isBlank (h : isBlank c = true) : c ∉ delimiters := by
  intro hmem
  have hall : ∀ d ∈ delimiters, isBlank d = false := by decide
  exact Bool.false_ne_true ((hall c hmem).symm.trans h)

theorem not_mem_delimiters_of_isIdentifierChar (h : isIdentifierChar c = true) :
    c ∉ delimiters := by
  intro hmem
  have hall : ∀ d ∈ delimiters, isIdentifierChar d = false := by decide
  exact Bool.false_ne_true ((hall c hmem).symm.trans h)

theorem mem_delimiters_of_separator (h : separator ∈ [',', ':']) : separator ∈ delimiters := by
  revert h separator
  decide

theorem passes_blanks (hseparator : separator ∈ [',', ':'])
    (hblanks : ∀ c ∈ blanks, isBlank c = true) : Passes separator blanks :=
  passes_of_not_mem (mem_delimiters_of_separator hseparator)
    fun c hc => not_mem_delimiters_of_isBlank (hblanks c hc)

theorem not_mem_of_insideValue? {quote : Char} {inside value : List Char}
    (h : insideValue? quote inside = some value) (hslash : '\\' ∉ inside) : quote ∉ inside := by
  fun_induction insideValue? quote inside generalizing value with
  | case1 => exact List.not_mem_nil
  | case2 => cases h
  | case3 => cases h
  | case4 => exact absurd List.mem_cons_self hslash
  | case5 => cases h
  | case6 => cases h
  | case7 c cs hquote _ _ _ ih =>
    obtain ⟨inner, hinner, -⟩ := Option.map_eq_some_iff.mp h
    rw [List.mem_cons, not_or] at hslash ⊢
    exact ⟨Ne.symm hquote, ih hinner hslash.2⟩

theorem passes_insideValue? {quote : Char} {inside value : List Char}
    (hseparator : separator ∈ [',', ':'])
    (hquote : quote = '\x27' ∨ quote = '\x22' ∨ quote = '\x60')
    (h : insideValue? quote inside = some value) (hslash : '\\' ∉ inside) :
    Passes separator (quote :: (inside ++ [quote])) := by
  have hmem := not_mem_of_insideValue? h hslash
  obtain ⟨q, rfl⟩ : ∃ q : Quote, quote = q.toChar := by
    rcases hquote with rfl | rfl | rfl
    · exact ⟨.single, rfl⟩
    · exact ⟨.double, rfl⟩
    · exact ⟨.back, rfl⟩
  exact passes_string hseparator hmem

theorem not_mem_delimiters_of_mem_digitsOf {point exponent : Bool} {cs : List Char} :
    ∀ d ∈ digitsOf point exponent cs, d ∉ delimiters := by
  have hdigit : ∀ d : Char, d.isDigit = true → d ∉ delimiters := fun d hd =>
    not_mem_delimiters_of_isIdentifierChar (isIdentifierChar_of_isDigit hd)
  have hother : ∀ d ∈ ['.', 'e', 'E', '+', '-'], d ∉ delimiters := by decide
  unfold digitsOf
  fun_induction numberChars point exponent cs with
  | case1 => simp
  | case2 point exponent c cs hc digits rest hread ih =>
    rw [hread] at ih
    exact List.forall_mem_cons.mpr ⟨hdigit c hc, ih⟩
  | case3 point exponent c cs _ hc digits rest hread ih =>
    rw [hread] at ih
    exact List.forall_mem_cons.mpr ⟨hother c (by simp [hc.1]), ih⟩
  | case4 point exponent c _ _ hc sign more hsign digits rest hread ih =>
    rw [hread] at ih
    refine List.forall_mem_cons.mpr ⟨hother c ?_, List.forall_mem_cons.mpr ⟨hother sign ?_, ih⟩⟩
    · rcases hc.1 with rfl | rfl <;> decide
    · rcases hsign with rfl | rfl <;> decide
  | case5 point exponent c _ _ hc sign more _ digits rest hread ih =>
    rw [hread] at ih
    refine List.forall_mem_cons.mpr ⟨hother c ?_, ih⟩
    rcases hc.1 with rfl | rfl <;> decide
  | case6 point exponent c _ _ hc =>
    rw [List.forall_mem_singleton]
    rcases hc.1 with rfl | rfl <;> exact hother _ (by decide)
  | case7 => simp

theorem passes_number {digits : List Char} {value : Number.Binary64}
    (hseparator : separator ∈ [',', ':']) (h : numberValue? digits = some value) :
    Passes separator digits := by
  have hmem := mem_delimiters_of_separator hseparator
  unfold numberValue? at h
  split at h
  · cases h
  · rename_i c cs
    split at h
    · rename_i hshape
      refine passes_of_not_mem hmem (List.forall_mem_cons.mpr ⟨?_, ?_⟩)
      · rcases hshape.1 with hdigit | rfl
        · exact not_mem_delimiters_of_isIdentifierChar (isIdentifierChar_of_isDigit hdigit)
        · decide
      · rw [← hshape.2]
        exact not_mem_delimiters_of_mem_digitsOf
    · cases h

theorem passes_word {name : List Char} (hseparator : separator ∈ [',', ':'])
    (h : isIdentifier name = true) : Passes separator name := by
  obtain ⟨c, cs, rfl, hstart, hcs⟩ := isIdentifier_cons h
  refine passes_of_not_mem (mem_delimiters_of_separator hseparator)
    (List.forall_mem_cons.mpr ⟨?_, ?_⟩)
  · exact not_mem_delimiters_of_isIdentifierChar (isIdentifierChar_of_isIdentifierStart hstart)
  · exact fun d hd => not_mem_delimiters_of_isIdentifierChar (hcs d hd)

theorem Key.IsValid.passes {key : Key} {name : String} (h : key.IsValid)
    (hname : key.text? = some name) (hslash : '\\' ∉ key.code)
    (hseparator : separator ∈ [',', ':']) : Passes separator key.code := by
  cases key with
  | word name => exact passes_word hseparator h
  | string quote inside =>
    obtain ⟨value, hvalue, -⟩ := Option.map_eq_some_iff.mp hname
    refine passes_insideValue? hseparator (h.imp id Or.inl) hvalue fun hmem => hslash ?_
    exact List.mem_cons_of_mem _ (List.mem_append_left _ hmem)
  | number digits =>
    obtain ⟨value, hvalue, -⟩ := Option.map_eq_some_iff.mp hname
    exact passes_number hseparator hvalue

/-- What is passed over in a text that spells the part, if the part has a value. -/
def Part.IsPassed (separator : Char) : Part → List Char → Prop
  | primary phrase, text => ∀ value, phrase.value? = some value → Passes separator text
  | term phrase, text => ∀ value, phrase.value? = some value → Passes separator text
  | sum phrase, text => ∀ value, phrase.value? = some value → Passes separator text
  | items phrases, text =>
    ∀ values, Phrase.values? phrases = some values → Closes separator .square text
  | entries phrases, text =>
    ∀ values, Phrase.entryValues? phrases = some values → Closes separator .curly text

theorem passes_cons (hseparator : separator ∈ [',', ':']) (hc : c ∉ delimiters)
    (h : Passes separator text) : Passes separator (c :: text) := by
  have hfirst : Passes separator [c] := passes_of_not_mem
    (mem_delimiters_of_separator hseparator) (List.forall_mem_singleton.mpr hc)
  exact hfirst.append h

theorem isPassed_of_spells {part : Part} (hseparator : separator ∈ [',', ':'])
    (h : Spells isBlank part text) (hslash : '\\' ∉ text) : part.IsPassed separator text := by
  have blank {blanks : List Char} (h : ∀ c ∈ blanks, isBlank c = true) := passes_blanks hseparator h
  induction h with
  | string inside hquote =>
    intro value hvalue
    -- a quote inside would end the string early and leave it without a value
    obtain ⟨chars, hchars, -⟩ := Option.map_eq_some_iff.mp hvalue
    refine passes_insideValue? hseparator hquote hchars fun hmem => hslash ?_
    exact List.mem_cons_of_mem _ (List.mem_append_left _ hmem)
  | number hnumber => exact fun _ _ => passes_number hseparator hnumber
  | word hname => exact fun _ _ => passes_word hseparator hname
  | parentheses _ hblanks ih =>
    intro value hvalue
    simp only [List.mem_append, List.mem_cons, not_or] at hslash
    have hclose := (blank hblanks).closes (closes_singleton (c := ')') rfl)
    exact Closes.passes rfl hseparator ((ih hslash.2.1 value hvalue).closes hclose)
  | array _ ih =>
    intro value hvalue
    obtain ⟨values, hvalues, -⟩ := Option.map_eq_some_iff.mp hvalue
    exact Closes.passes rfl hseparator (ih (List.not_mem_of_not_mem_cons hslash) values hvalues)
  | object _ ih =>
    intro value hvalue
    obtain ⟨values, hvalues, -⟩ := Option.map_eq_some_iff.mp hvalue
    exact Closes.passes rfl hseparator (ih (List.not_mem_of_not_mem_cons hslash) values hvalues)
  | primary _ hblanks ih =>
    intro value hvalue
    simp only [List.mem_append, not_or] at hslash
    exact (blank hblanks).append (ih hslash.2 value hvalue)
  | signed hsign _ hblanks ih =>
    intro value hvalue
    simp only [List.mem_append, List.mem_cons, not_or] at hslash
    obtain ⟨number, hnumber, -⟩ := Option.map_eq_some_iff.mp hvalue
    obtain ⟨operand, hoperand, -⟩ := Option.bind_eq_some_iff.mp hnumber
    refine (blank hblanks).append (passes_cons hseparator ?_ (ih hslash.2.2 operand hoperand))
    rcases hsign with rfl | rfl <;> decide
  | term _ ih => exact ih hslash
  | sum _ hblanks _ _ ihleft ihright =>
    intro value hvalue
    simp only [List.mem_append, List.mem_cons, not_or] at hslash
    obtain ⟨left, hleft, hvalue⟩ := Option.bind_eq_some_iff.mp hvalue
    obtain ⟨right, hright, -⟩ := Option.bind_eq_some_iff.mp hvalue
    exact (ihleft hslash.1 left hleft).append ((blank hblanks).append
      (passes_cons hseparator (by decide) (ihright hslash.2.2.2 right hright)))
  | noItems hblanks => exact fun _ _ => (blank hblanks).closes (closes_singleton rfl)
  | lastItem _ hblanks ih =>
    intro values hvalues
    simp only [List.mem_append, not_or] at hslash
    obtain ⟨value, hvalue, -⟩ := Option.bind_eq_some_iff.mp hvalues
    exact (ih hslash.1 value hvalue).closes ((blank hblanks).closes (closes_singleton rfl))
  | item _ hblanks _ ih ihItems =>
    intro values hvalues
    simp only [List.mem_append, List.mem_cons, not_or] at hslash
    obtain ⟨value, hvalue, hvalues⟩ := Option.bind_eq_some_iff.mp hvalues
    obtain ⟨others, hothers, -⟩ := Option.bind_eq_some_iff.mp hvalues
    exact (ih hslash.1 value hvalue).closes ((blank hblanks).closes
      ((ihItems hslash.2.2.2 others hothers).cons_separator (by decide)))
  | noEntries hblanks => exact fun _ _ => (blank hblanks).closes (closes_singleton rfl)
  | lastEntry hbefore hkey hbetween _ hblanks ih =>
    intro values hvalues
    simp only [List.mem_append, List.mem_cons, not_or] at hslash
    obtain ⟨name, hname, hvalues⟩ := Option.bind_eq_some_iff.mp hvalues
    obtain ⟨value, hvalue, -⟩ := Option.bind_eq_some_iff.mp hvalues
    have hend := (ih hslash.2.2.2.2.1 value hvalue).closes
      ((blank hblanks).closes (closes_singleton (c := '}') rfl))
    exact (blank hbefore).closes ((hkey.passes hname hslash.2.1 hseparator).closes
      ((blank hbetween).closes (hend.cons_separator (by decide))))
  | entry hbefore hkey hbetween _ hblanks _ ih ihEntries =>
    intro values hvalues
    simp only [List.mem_append, List.mem_cons, not_or] at hslash
    obtain ⟨name, hname, hvalues⟩ := Option.bind_eq_some_iff.mp hvalues
    obtain ⟨value, hvalue, hvalues⟩ := Option.bind_eq_some_iff.mp hvalues
    obtain ⟨others, hothers, -⟩ := Option.bind_eq_some_iff.mp hvalues
    have hmore := (ihEntries hslash.2.2.2.2.2.2.2 others hothers).cons_separator (c := ',')
      (by decide)
    have hend := (ih hslash.2.2.2.2.1 value hvalue).closes ((blank hblanks).closes hmore)
    exact (blank hbefore).closes ((hkey.passes hname hslash.2.1 hseparator).closes
      ((blank hbetween).closes (hend.cons_separator (by decide))))

end

end TemplateMessages.Expression
