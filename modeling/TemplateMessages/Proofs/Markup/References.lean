import TemplateMessages.Markup.Escape

set_option autoImplicit false

/-!
# Character references

In a text of a page, an ampersand and a name or a number stand for other characters. Escaped quotes
are such references and stand for the quotes; an ampersand of the message is left as it is, and what
stands behind it is read as before.
-/

namespace TemplateMessages.Markup

open TemplateMessages.Expression (Quote)
open TemplateMessages.Text (replaceChar)

def escapeQuoteChar (c : Char) : List Char :=
  if c = '\x22' then doubleQuoteReference.toList
  else if c = '\x27' then singleQuoteReference.toList
  else [c]

@[simp] theorem toList_escapeQuotes (text : String) :
    (escapeQuotes text).toList = text.toList.flatMap escapeQuoteChar := by
  have hsingle : ∀ c, replaceChar '\x27' singleQuoteReference
      (if c = '\x22' then doubleQuoteReference.toList else [c]) = escapeQuoteChar c := by
    intro c
    unfold escapeQuoteChar
    split
    · decide
    · simp [replaceChar]
  rw [escapeQuotes, String.toList_ofList, replaceChar, replaceChar, List.flatMap_assoc]
  exact congrArg text.toList.flatMap (funext hsingle)

theorem escapeQuoteChar_ne_nil (c : Char) : escapeQuoteChar c ≠ [] := by
  unfold escapeQuoteChar
  split
  · decide
  · split
    · decide
    · simp

theorem escapeQuoteChar_of_ne {c : Char} (hdouble : c ≠ '\x22') (hsingle : c ≠ '\x27') :
    escapeQuoteChar c = [c] := by
  rw [escapeQuoteChar, if_neg hdouble, if_neg hsingle]

theorem not_mem_replaceChar {c : Char} {replacement : String} (h : c ∉ replacement.toList)
    (text : List Char) : c ∉ replaceChar c replacement text := by
  rw [replaceChar, List.mem_flatMap]
  rintro ⟨d, -, hmem⟩
  split at hmem
  · exact h hmem
  · rename_i hne
    exact hne (List.mem_singleton.mp hmem).symm

theorem not_mem_escapeQuote {quote : Quote} (hback : quote ≠ .back) (code : String) :
    quote.toChar ∉ (escapeQuote (some quote) code).toList := by
  cases quote with
  | single =>
    rw [escapeQuote, String.toList_ofList]
    exact not_mem_replaceChar (by decide) _
  | double =>
    rw [escapeQuote, String.toList_ofList]
    exact not_mem_replaceChar (by decide) _
  | back => exact absurd rfl hback

theorem not_mem_escapeQuotes (text : String) : '\x22' ∉ (escapeQuotes text).toList := by
  rw [toList_escapeQuotes, List.mem_flatMap]
  rintro ⟨c, -, hmem⟩
  unfold escapeQuoteChar at hmem
  split at hmem
  · exact absurd hmem (by decide)
  · rename_i hdouble
    split at hmem
    · exact absurd hmem (by decide)
    · exact hdouble (List.mem_singleton.mp hmem).symm

/-- The references that a page knows, as the HTML standard lists them. -/
structure ReferenceTable where
  named : List Char → Option (List Char)
  numbered : Nat → Char
  named_length : ∀ {name expansion}, named name = some expansion → expansion.length ≤ name.length
  named_quot : named "quot;".toList = some ['\x22']
  numbered_apostrophe : numbered 39 = '\x27'

namespace ReferenceTable

variable (table : ReferenceTable)

/-- The longest name of at most `length` characters at the start of a text: what it stands for, and
the rest. -/
def readNamed? (text : List Char) : (length : Nat) → Option (List Char × List Char)
  | 0 => none
  | length + 1 =>
    match table.named (text.take (length + 1)) with
    | some expansion => some (expansion, text.drop (length + 1))
    | none => readNamed? text length

end ReferenceTable

/-- Letters and digits, and a semicolon when there is one behind them. -/
def nameLength (text : List Char) : Nat :=
  let letters := (text.takeWhile Char.isAlphanum).length
  match text.dropWhile Char.isAlphanum with
  | ';' :: _ => letters + 1
  | _ => letters

/-- The text without the semicolon that it starts with, if it does. -/
def dropSemicolon : List Char → List Char
  | ';' :: rest => rest
  | text => text

def isHexDigit (c : Char) : Bool :=
  c.isDigit || ('a' ≤ c && c ≤ 'f') || ('A' ≤ c && c ≤ 'F')

def hexDigitValue (c : Char) : Nat :=
  if c.isDigit then c.toNat - 48
  else if c.toNat < 97 then c.toNat - 55
  else c.toNat - 87

def numberOf (base : Nat) (digits : List Char) : Nat :=
  digits.foldl (fun number digit => number * base + hexDigitValue digit) 0

/-- A number in digits of one kind, and the rest without the semicolon behind it. -/
def readDigits? (base : Nat) (isDigit : Char → Bool) (text : List Char) :
    Option (Nat × List Char) :=
  match text.takeWhile isDigit with
  | [] => none
  | digits => some (numberOf base digits, dropSemicolon (text.dropWhile isDigit))

def readNumber? : List Char → Option (Nat × List Char)
  | 'x' :: text => readDigits? 16 isHexDigit text
  | 'X' :: text => readDigits? 16 isHexDigit text
  | text => readDigits? 10 Char.isDigit text

namespace ReferenceTable

variable (table : ReferenceTable)

/-- The reference behind an ampersand: what it stands for, and the rest. -/
def readReference? : List Char → Option (List Char × List Char)
  | '#' :: text => (readNumber? text).map fun (number, rest) => ([table.numbered number], rest)
  | text => table.readNamed? text (nameLength text)

variable {table} {text expansion rest : List Char}

theorem readNamed?_length {length : Nat}
    (h : table.readNamed? text length = some (expansion, rest)) :
    expansion.length + rest.length ≤ text.length := by
  induction length with
  | zero => cases h
  | succ length ih =>
    rw [readNamed?] at h
    split at h
    · rename_i hnamed
      cases h
      have hexpansion := table.named_length hnamed
      rw [List.length_take] at hexpansion
      rw [List.length_drop]
      omega
    · exact ih h

end ReferenceTable

theorem length_dropSemicolon_le (text : List Char) : (dropSemicolon text).length ≤ text.length := by
  unfold dropSemicolon
  split
  · exact Nat.le_succ _
  · exact Nat.le_refl _

theorem readDigits?_length {base number : Nat} {isDigit : Char → Bool} {text rest : List Char}
    (h : readDigits? base isDigit text = some (number, rest)) : rest.length < text.length := by
  unfold readDigits? at h
  split at h
  · cases h
  · rename_i hdigits
    cases h
    have hwhole := congrArg List.length (List.takeWhile_append_dropWhile (p := isDigit) (l := text))
    have hpositive := List.length_pos_iff.mpr hdigits
    have hrest := length_dropSemicolon_le (text.dropWhile isDigit)
    rw [List.length_append] at hwhole
    omega

theorem readNumber?_length {number : Nat} {text rest : List Char}
    (h : readNumber? text = some (number, rest)) : rest.length < text.length := by
  unfold readNumber? at h
  split at h
  · exact Nat.lt_succ_of_lt (readDigits?_length h)
  · exact Nat.lt_succ_of_lt (readDigits?_length h)
  · exact readDigits?_length h

namespace ReferenceTable

variable {table : ReferenceTable} {text expansion rest : List Char}

theorem readReference?_length (h : table.readReference? text = some (expansion, rest)) :
    expansion.length + rest.length ≤ text.length := by
  unfold readReference? at h
  split at h
  · obtain ⟨⟨number, after⟩, hnumber, heq⟩ := Option.map_eq_some_iff.mp h
    cases heq
    have hlength := readNumber?_length hnumber
    simp only [List.length_cons, List.length_nil]
    omega
  · exact readNamed?_length h

variable (table) in
def decode (text : List Char) : List Char :=
  match text with
  | '&' :: cs =>
    match h : table.readReference? cs with
    | some (expansion, rest) =>
      have : rest.length < cs.length + 1 := by
        have hlength := readReference?_length h
        omega
      expansion ++ decode rest
    | none => '&' :: decode cs
  | c :: cs => c :: decode cs
  | [] => []
termination_by text.length
decreasing_by
  · assumption
  · exact Nat.lt_succ_self _
  · exact Nat.lt_succ_self _

variable (table) in
/-- No ampersand of the text starts a reference. -/
def NoReference (text : List Char) : Prop :=
  ∀ front back, front ++ '&' :: back = text → table.readReference? back = none

theorem decode_of_ne {c : Char} {cs : List Char} (h : c ≠ '&') :
    table.decode (c :: cs) = c :: table.decode cs := by
  rw [decode.eq_def]
  split
  · rename_i heq
    exact absurd (List.cons.inj heq).1 h
  · rename_i heq
    cases heq
    rfl
  · rename_i heq
    cases heq

theorem decode_ampersand (h : table.readReference? text = none) :
    table.decode ('&' :: text) = '&' :: table.decode text := by
  rw [decode]
  split
  · rename_i hsome
    rw [h] at hsome
    cases hsome
  · rfl

theorem decode_reference (h : table.readReference? text = some (expansion, rest)) :
    table.decode ('&' :: text) = expansion ++ table.decode rest := by
  rw [decode]
  split
  · rename_i hsome
    rw [h] at hsome
    cases hsome
    rfl
  · rename_i hnone
    rw [h] at hnone
    cases hnone

theorem length_decode_le (text : List Char) : (table.decode text).length ≤ text.length := by
  fun_induction decode table text with
  | case1 cs expansion rest h _ ih =>
    have hlength := readReference?_length h
    simp only [List.length_append, List.length_cons]
    omega
  | case2 cs h ih => simpa using ih
  | case3 c cs h ih => simpa using ih
  | case4 => exact Nat.le_refl _

theorem noReference_cons {c : Char} {cs : List Char} :
    table.NoReference (c :: cs) ↔
      (c = '&' → table.readReference? cs = none) ∧ table.NoReference cs := by
  constructor
  · intro h
    refine ⟨?_, fun front back heq => h (c :: front) back (by rw [List.cons_append, heq])⟩
    rintro rfl
    exact h [] cs rfl
  · rintro ⟨hfirst, hrest⟩ front back heq
    cases front with
    | nil =>
      obtain ⟨rfl, rfl⟩ := List.cons.inj heq
      exact hfirst rfl
    | cons d front => exact hrest front back (List.cons.inj heq).2

theorem decode_eq_self_iff (text : List Char) :
    table.decode text = text ↔ table.NoReference text := by
  induction text with
  | nil =>
    refine iff_of_true (by rw [decode.eq_def]) ?_
    intro front back h
    cases front <;> cases h
  | cons c cs ih =>
    rw [noReference_cons]
    by_cases hampersand : c = '&'
    · subst hampersand
      cases hread : table.readReference? cs with
      | some read =>
        obtain ⟨expansion, rest⟩ := read
        refine iff_of_false ?_ fun hnone => nomatch hnone.1 rfl
        intro heq
        -- with its ampersand the reference is longer than what it stands for
        have hlength := congrArg List.length heq
        have hshorter := readReference?_length hread
        have hrest : (table.decode rest).length ≤ rest.length := length_decode_le rest
        rw [decode_reference hread, List.length_append, List.length_cons] at hlength
        omega
      | none =>
        rw [decode_ampersand hread, List.cons.injEq, and_iff_right rfl, and_iff_right fun _ => rfl]
        exact ih
    · rw [decode_of_ne hampersand, List.cons.injEq, and_iff_right rfl,
        and_iff_right fun heq => absurd heq hampersand]
      exact ih

end ReferenceTable

def predefinedNames : List (String × Char) :=
  [("quot;", '\x22'), ("amp;", '&'), ("lt;", '<'), ("gt;", '>'), ("apos;", '\x27')]

/-- A class of characters without quotes and without the ampersand ends at an escaped quote. -/
structure EndsAtQuotes (p : Char → Bool) : Prop where
  double : p '\x22' = false
  single : p '\x27' = false
  ampersand : p '&' = false

theorem endsAtQuotes_isAlphanum : EndsAtQuotes Char.isAlphanum :=
  ⟨by decide, by decide, by decide⟩

theorem endsAtQuotes_isDigit : EndsAtQuotes Char.isDigit :=
  ⟨by decide, by decide, by decide⟩

theorem endsAtQuotes_isHexDigit : EndsAtQuotes isHexDigit :=
  ⟨by decide, by decide, by decide⟩

theorem escapeQuoteChar_cases (c : Char) :
    escapeQuoteChar c = [c] ∧ c ≠ '\x22' ∧ c ≠ '\x27' ∨
      (c = '\x22' ∨ c = '\x27') ∧ ∃ more, escapeQuoteChar c = '&' :: more := by
  by_cases hdouble : c = '\x22'
  · subst hdouble
    exact .inr ⟨.inl rfl, _, rfl⟩
  by_cases hsingle : c = '\x27'
  · subst hsingle
    exact .inr ⟨.inr rfl, _, rfl⟩
  exact .inl ⟨escapeQuoteChar_of_ne hdouble hsingle, hdouble, hsingle⟩

namespace EndsAtQuotes

variable {p : Char → Bool} (hp : EndsAtQuotes p)
include hp

theorem takeWhile_escape (text : List Char) :
    (text.flatMap escapeQuoteChar).takeWhile p = text.takeWhile p := by
  induction text with
  | nil => rfl
  | cons c cs ih =>
    rw [List.flatMap_cons]
    rcases escapeQuoteChar_cases c with ⟨hself, -, -⟩ | ⟨hquote, more, hstart⟩
    · rw [hself, List.singleton_append, List.takeWhile_cons, List.takeWhile_cons, ih]
    · have hc : p c = false := by
        rcases hquote with rfl | rfl
        · exact hp.double
        · exact hp.single
      rw [hstart, List.cons_append, List.takeWhile_cons_of_neg (by simp [hp.ampersand]),
        List.takeWhile_cons_of_neg (by simp [hc])]

theorem dropWhile_escape (text : List Char) :
    (text.flatMap escapeQuoteChar).dropWhile p = (text.dropWhile p).flatMap escapeQuoteChar := by
  induction text with
  | nil => rfl
  | cons c cs ih =>
    rw [List.flatMap_cons]
    rcases escapeQuoteChar_cases c with ⟨hself, -, -⟩ | ⟨hquote, more, hstart⟩
    · rw [hself, List.singleton_append, List.dropWhile_cons, List.dropWhile_cons]
      split
      · exact ih
      · rw [List.flatMap_cons, hself, List.singleton_append]
    · have hc : p c = false := by
        rcases hquote with rfl | rfl
        · exact hp.double
        · exact hp.single
      rw [hstart, List.cons_append, List.dropWhile_cons_of_neg (by simp [hp.ampersand]),
        List.dropWhile_cons_of_neg (by simp [hc]), List.flatMap_cons, hstart, List.cons_append]

end EndsAtQuotes

theorem head?_escape {c : Char} (hc : escapeQuoteChar c = [c]) (hampersand : c ≠ '&')
    (text : List Char) :
    (text.flatMap escapeQuoteChar).head? = some c ↔ text.head? = some c := by
  cases text with
  | nil => rfl
  | cons d ds =>
    rw [List.flatMap_cons]
    rcases escapeQuoteChar_cases d with ⟨hself, -, -⟩ | ⟨hquote, more, hstart⟩
    · rw [hself, List.singleton_append, List.head?_cons, List.head?_cons]
    · rw [hstart, List.cons_append, List.head?_cons, List.head?_cons]
      refine iff_of_false (fun heq => hampersand (Option.some.inj heq).symm) ?_
      rintro heq
      cases Option.some.inj heq
      rw [hstart] at hc
      exact hampersand (List.cons.inj hc).1.symm

theorem dropSemicolon_of_ne {text : List Char} (h : text.head? ≠ some ';') :
    dropSemicolon text = text := by
  unfold dropSemicolon
  split
  · exact absurd rfl h
  · rfl

@[simp] theorem dropSemicolon_escape (text : List Char) :
    dropSemicolon (text.flatMap escapeQuoteChar) =
      (dropSemicolon text).flatMap escapeQuoteChar := by
  by_cases h : text.head? = some ';'
  · obtain ⟨rest, rfl⟩ := List.head?_eq_some_iff.mp h
    rfl
  · rw [dropSemicolon_of_ne h,
      dropSemicolon_of_ne (mt (head?_escape rfl (by decide) text).mp h)]

theorem readDigits?_escape {base : Nat} {isDigit : Char → Bool} (hdigit : EndsAtQuotes isDigit)
    (text : List Char) :
    readDigits? base isDigit (text.flatMap escapeQuoteChar) =
      (readDigits? base isDigit text).map fun (number, rest) =>
        (number, rest.flatMap escapeQuoteChar) := by
  unfold readDigits?
  rw [hdigit.takeWhile_escape, hdigit.dropWhile_escape, dropSemicolon_escape]
  split <;> rfl

theorem readNumber?_of_ne {text : List Char} (hlower : text.head? ≠ some 'x')
    (hupper : text.head? ≠ some 'X') : readNumber? text = readDigits? 10 Char.isDigit text := by
  unfold readNumber?
  split
  · exact absurd rfl hlower
  · exact absurd rfl hupper
  · rfl

@[simp] theorem readNumber?_escape (text : List Char) :
    readNumber? (text.flatMap escapeQuoteChar) =
      (readNumber? text).map fun (number, rest) => (number, rest.flatMap escapeQuoteChar) := by
  by_cases hlower : text.head? = some 'x'
  · obtain ⟨digits, rfl⟩ := List.head?_eq_some_iff.mp hlower
    exact readDigits?_escape endsAtQuotes_isHexDigit digits
  by_cases hupper : text.head? = some 'X'
  · obtain ⟨digits, rfl⟩ := List.head?_eq_some_iff.mp hupper
    exact readDigits?_escape endsAtQuotes_isHexDigit digits
  rw [readNumber?_of_ne hlower hupper,
    readNumber?_of_ne (mt (head?_escape rfl (by decide) text).mp hlower)
      (mt (head?_escape rfl (by decide) text).mp hupper),
    readDigits?_escape endsAtQuotes_isDigit]

theorem escape_eq_self {text : List Char} (h : ∀ c ∈ text, c ≠ '\x22' ∧ c ≠ '\x27') :
    text.flatMap escapeQuoteChar = text := by
  induction text with
  | nil => rfl
  | cons c cs ih =>
    obtain ⟨⟨hdouble, hsingle⟩, hrest⟩ := List.forall_mem_cons.mp h
    rw [List.flatMap_cons, escapeQuoteChar_of_ne hdouble hsingle, ih hrest, List.singleton_append]

theorem nameLength_of_semicolon {text : List Char}
    (h : (text.dropWhile Char.isAlphanum).head? = some ';') :
    nameLength text = (text.takeWhile Char.isAlphanum).length + 1 := by
  obtain ⟨rest, hrest⟩ := List.head?_eq_some_iff.mp h
  simp only [nameLength, hrest]

theorem nameLength_of_ne {text : List Char}
    (h : (text.dropWhile Char.isAlphanum).head? ≠ some ';') :
    nameLength text = (text.takeWhile Char.isAlphanum).length := by
  unfold nameLength
  dsimp only
  split
  · rename_i hrest
    rw [hrest] at h
    exact absurd rfl h
  · rfl

@[simp] theorem nameLength_escape (text : List Char) :
    nameLength (text.flatMap escapeQuoteChar) = nameLength text := by
  have hletters := endsAtQuotes_isAlphanum.takeWhile_escape text
  have hrest := endsAtQuotes_isAlphanum.dropWhile_escape text
  have hhead := head?_escape rfl (by decide : ';' ≠ '&') (text.dropWhile Char.isAlphanum)
  by_cases h : (text.dropWhile Char.isAlphanum).head? = some ';'
  · rw [nameLength_of_semicolon h, nameLength_of_semicolon (by rw [hrest]; exact hhead.mpr h),
      hletters]
  · rw [nameLength_of_ne h, nameLength_of_ne (by rw [hrest]; exact mt hhead.mp h), hletters]

theorem exists_name (text : List Char) :
    ∃ name rest, text = name ++ rest ∧ name.length = nameLength text ∧
      ∀ c ∈ name, c.isAlphanum = true ∨ c = ';' := by
  have hwhole := List.takeWhile_append_dropWhile (p := Char.isAlphanum) (l := text)
  have hletter : ∀ c ∈ text.takeWhile Char.isAlphanum, c.isAlphanum = true :=
    fun c hc => List.all_eq_true.mp List.all_takeWhile c hc
  by_cases hsemicolon : (text.dropWhile Char.isAlphanum).head? = some ';'
  · obtain ⟨rest, hrest⟩ := List.head?_eq_some_iff.mp hsemicolon
    refine ⟨text.takeWhile Char.isAlphanum ++ [';'], rest, ?_, ?_, ?_⟩
    · rw [List.append_assoc, List.singleton_append, ← hrest, hwhole]
    · rw [nameLength_of_semicolon hsemicolon, List.length_append, List.length_singleton]
    · intro c hc
      rw [List.mem_append, List.mem_singleton] at hc
      exact hc.imp_left (hletter c)
  · exact ⟨_, _, hwhole.symm, (nameLength_of_ne hsemicolon).symm, fun c hc => .inl (hletter c hc)⟩

namespace ReferenceTable

variable {table : ReferenceTable}

theorem readNamed?_escape {name : List Char} (hname : ∀ c ∈ name, c ≠ '\x22' ∧ c ≠ '\x27')
    (rest : List Char) {length : Nat} (h : length ≤ name.length) :
    table.readNamed? ((name ++ rest).flatMap escapeQuoteChar) length =
      (table.readNamed? (name ++ rest) length).map fun (expansion, rest) =>
        (expansion, rest.flatMap escapeQuoteChar) := by
  induction length with
  | zero => rfl
  | succ length ih =>
    have hrest : ∀ c ∈ name.drop (length + 1), c ≠ '\x22' ∧ c ≠ '\x27' :=
      fun c hc => hname c (List.mem_of_mem_drop hc)
    have hdrop : ((name ++ rest).flatMap escapeQuoteChar).drop (length + 1) =
        ((name ++ rest).drop (length + 1)).flatMap escapeQuoteChar := by
      rw [List.flatMap_append, escape_eq_self hname, List.drop_append_of_le_length h,
        List.drop_append_of_le_length h, List.flatMap_append, escape_eq_self hrest]
    have htake : ((name ++ rest).flatMap escapeQuoteChar).take (length + 1) =
        (name ++ rest).take (length + 1) := by
      rw [List.flatMap_append, escape_eq_self hname, List.take_append_of_le_length h,
        List.take_append_of_le_length h]
    rw [readNamed?, readNamed?, htake, hdrop]
    split
    · rfl
    · exact ih (Nat.le_of_succ_le h)

theorem readReference?_of_ne {text : List Char} (h : text.head? ≠ some '#') :
    table.readReference? text = table.readNamed? text (nameLength text) := by
  unfold readReference?
  split
  · exact absurd rfl h
  · rfl

@[simp] theorem readReference?_escape (text : List Char) :
    table.readReference? (text.flatMap escapeQuoteChar) =
      (table.readReference? text).map fun (expansion, rest) =>
        (expansion, rest.flatMap escapeQuoteChar) := by
  by_cases h : text.head? = some '#'
  · obtain ⟨number, rfl⟩ := List.head?_eq_some_iff.mp h
    show (readNumber? (number.flatMap escapeQuoteChar)).map _ = _
    rw [readNumber?_escape, readReference?, Option.map_map, Option.map_map]
    rfl
  · rw [readReference?_of_ne h, readReference?_of_ne (mt (head?_escape rfl (by decide) text).mp h),
      nameLength_escape]
    obtain ⟨name, rest, htext, hlength, hname⟩ := exists_name text
    rw [← hlength, htext]
    refine readNamed?_escape (fun c hc => ?_) rest (Nat.le_refl _)
    constructor
    · rintro rfl
      exact absurd (hname _ hc) (by decide)
    · rintro rfl
      exact absurd (hname _ hc) (by decide)

@[simp] theorem readReference?_quot (rest : List Char) :
    table.readReference? ("quot;".toList ++ rest) = some (['\x22'], rest) := by
  show table.readNamed? ('q' :: 'u' :: 'o' :: 't' :: ';' :: rest) (4 + 1) = _
  rw [readNamed?]
  show (match table.named "quot;".toList with
    | some expansion => some (expansion, rest)
    | none => _) = _
  rw [table.named_quot]

@[simp] theorem readReference?_apostrophe (rest : List Char) :
    table.readReference? ("#39;".toList ++ rest) = some (['\x27'], rest) := by
  show some ([table.numbered 39], rest) = _
  rw [table.numbered_apostrophe]

@[simp] theorem decode_escape (text : List Char) :
    table.decode (text.flatMap escapeQuoteChar) = table.decode text := by
  fun_induction decode table text with
  | case1 cs expansion rest h _ ih =>
    rw [List.flatMap_cons]
    show table.decode ('&' :: cs.flatMap escapeQuoteChar) = _
    rw [decode_reference (by rw [readReference?_escape, h]; rfl), ih]
  | case2 cs h ih =>
    rw [List.flatMap_cons]
    show table.decode ('&' :: cs.flatMap escapeQuoteChar) = _
    rw [decode_ampersand (by rw [readReference?_escape, h]; rfl), ih]
  | case3 c cs h ih =>
    have hne : c ≠ '&' := fun heq => h heq
    rw [List.flatMap_cons]
    by_cases hdouble : c = '\x22'
    · subst hdouble
      show table.decode ('&' :: ("quot;".toList ++ cs.flatMap escapeQuoteChar)) = _
      rw [decode_reference (readReference?_quot _), ih, List.singleton_append]
    by_cases hsingle : c = '\x27'
    · subst hsingle
      show table.decode ('&' :: ("#39;".toList ++ cs.flatMap escapeQuoteChar)) = _
      rw [decode_reference (readReference?_apostrophe _), ih, List.singleton_append]
    rw [escapeQuoteChar_of_ne hdouble hsingle, List.singleton_append, decode_of_ne hne, ih]
  | case4 => rw [List.flatMap_nil, decode.eq_def]

theorem decode_escapeQuotes_iff (text : String) :
    table.decode (escapeQuotes text).toList = text.toList ↔ table.NoReference text.toList := by
  simp [decode_eq_self_iff]

/-- The references that need no declaration. -/
def predefined : ReferenceTable where
  named name := (predefinedNames.find? (·.1.toList = name)).map fun entry => [entry.2]
  numbered := Char.ofNat
  named_length := by
    intro name expansion h
    obtain ⟨entry, hfound, rfl⟩ := Option.map_eq_some_iff.mp h
    have hname := List.find?_some hfound
    have hlong : ∀ entry ∈ predefinedNames, 1 ≤ entry.1.toList.length := by decide
    rw [← of_decide_eq_true hname]
    exact hlong entry (List.mem_of_find?_eq_some hfound)
  named_quot := by decide
  numbered_apostrophe := by decide

end ReferenceTable

end TemplateMessages.Markup
