import TemplateMessages.Proofs.Expression.Token
import TemplateMessages.Proofs.Text.Characters

set_option autoImplicit false

/-!
# Phrases

The grammar of constant expressions: the tree that an expression is, the texts that spell it, and its
value. White space may stand in front of every token.
-/

namespace TemplateMessages.Expression

open TemplateMessages.Number (Binary64)
open TemplateMessages.Text (isBlank toNat_of_isDigit)

/-- The key of an object entry. -/
inductive Key where
  | word (name : List Char)
  | string (quote : Char) (inside : List Char)
  | number (digits : List Char)
  deriving DecidableEq, Repr

inductive Phrase where
  | string (quote : Char) (inside : List Char)
  | number (digits : List Char)
  | word (name : List Char)
  | parentheses (inner : Phrase)
  | array (items : List Phrase)
  | object (entries : List (Key × Phrase))
  | signed (sign : Char) (operand : Phrase)
  | sum (left right : Phrase)
  deriving Repr

namespace Key

/-- The key as it is written. -/
def code : Key → List Char
  | word name => name
  | string quote inside => quote :: (inside ++ [quote])
  | number digits => digits

/-- Can stand in front of the colon of an entry. -/
def IsValid : Key → Prop
  | word name => isIdentifier name = true
  | string quote _ => quote = '\x27' ∨ quote = '\x22'
  | number digits => (∃ c ∈ digits.head?, c.isDigit = true) ∧ (numberValue? digits).isSome

def text? : Key → Option String
  | word name => some (String.ofList name)
  | string quote inside => (insideValue? quote inside).map String.ofList
  | number digits => (numberValue? digits).map Binary64.text

end Key

namespace Phrase

mutual

def value? : Phrase → Option Literal
  | string quote inside => (insideValue? quote inside).map fun text => .string (String.ofList text)
  | number digits => (numberValue? digits).map .number
  | word name => constant? name
  | parentheses inner => inner.value?
  | array items => (values? items).map .array
  | object entries => (entryValues? entries).map fun values => .object (Table.ofList values)
  | signed sign operand =>
    (operand.value?.bind Literal.asNumber?).map fun number =>
      .number (if sign = '-' then number.neg else number)
  | sum left right => do (← left.value?).add? (← right.value?)

def values? : List Phrase → Option (List Literal)
  | [] => some []
  | item :: items => do return (← item.value?) :: (← values? items)

/-- The keys and values of entries in source order. -/
def entryValues? : List (Key × Phrase) → Option (List (String × Literal))
  | [] => some []
  | (key, value) :: entries => do
    return (← key.text?, ← value.value?) :: (← entryValues? entries)

end

end Phrase

theorem add?_cases {a b value : Literal} (h : a.add? b = some value) :
    (∃ x y, a = .number x ∧ b = .number y ∧ value = .number (x.add y)) ∨
      ∃ text, value = .string text := by
  unfold Literal.add? at h
  split at h
  · cases h
    exact Or.inl ⟨_, _, rfl, rfl, rfl⟩
  · obtain ⟨text, -, rfl⟩ := Option.map_eq_some_iff.mp h
    exact Or.inr ⟨_, rfl⟩
  · obtain ⟨text, -, rfl⟩ := Option.map_eq_some_iff.mp h
    exact Or.inr ⟨_, rfl⟩
  · cases h

inductive Part where
  | primary (phrase : Phrase)
  | term (phrase : Phrase)
  | sum (phrase : Phrase)
  | items (items : List Phrase)
  | entries (entries : List (Key × Phrase))

/-- The text spells the part, with white space of that kind. A comma may stand behind the last item
or entry. -/
inductive Spells (blank : Char → Bool) : Part → List Char → Prop
  | string {quote : Char} (inside : List Char)
      (hquote : quote = '\x27' ∨ quote = '\x22' ∨ quote = '\x60') :
      Spells blank (.primary (.string quote inside)) (quote :: (inside ++ [quote]))
  | number {digits : List Char} {value : Binary64} (hvalue : numberValue? digits = some value) :
      Spells blank (.primary (.number digits)) digits
  | word {name : List Char} (hname : isIdentifier name = true) :
      Spells blank (.primary (.word name)) name
  | parentheses {inner : Phrase} {text blanks : List Char} (h : Spells blank (.sum inner) text)
      (hblanks : ∀ c ∈ blanks, blank c = true) :
      Spells blank (.primary (.parentheses inner)) ('(' :: (text ++ (blanks ++ [')'])))
  | array {items : List Phrase} {text : List Char} (h : Spells blank (.items items) text) :
      Spells blank (.primary (.array items)) ('[' :: text)
  | object {entries : List (Key × Phrase)} {text : List Char}
      (h : Spells blank (.entries entries) text) :
      Spells blank (.primary (.object entries)) ('{' :: text)
  | primary {phrase : Phrase} {text blanks : List Char} (h : Spells blank (.primary phrase) text)
      (hblanks : ∀ c ∈ blanks, blank c = true) : Spells blank (.term phrase) (blanks ++ text)
  | signed {sign : Char} {operand : Phrase} {text blanks : List Char}
      (hsign : sign = '-' ∨ sign = '+') (h : Spells blank (.term operand) text)
      (hblanks : ∀ c ∈ blanks, blank c = true) :
      Spells blank (.term (.signed sign operand)) (blanks ++ sign :: text)
  | term {phrase : Phrase} {text : List Char} (h : Spells blank (.term phrase) text) :
      Spells blank (.sum phrase) text
  | sum {left right : Phrase} {text more blanks : List Char} (hleft : Spells blank (.sum left) text)
      (hblanks : ∀ c ∈ blanks, blank c = true) (hright : Spells blank (.term right) more)
      (hplus : more.head? ≠ some '+' ∧ more.head? ≠ some '=') :
      Spells blank (.sum (.sum left right)) (text ++ (blanks ++ '+' :: more))
  | noItems {blanks : List Char} (hblanks : ∀ c ∈ blanks, blank c = true) :
      Spells blank (.items []) (blanks ++ [']'])
  | lastItem {item : Phrase} {text blanks : List Char} (h : Spells blank (.sum item) text)
      (hblanks : ∀ c ∈ blanks, blank c = true) :
      Spells blank (.items [item]) (text ++ (blanks ++ [']']))
  | item {item : Phrase} {items : List Phrase} {text more blanks : List Char}
      (h : Spells blank (.sum item) text) (hblanks : ∀ c ∈ blanks, blank c = true)
      (hitems : Spells blank (.items items) more) :
      Spells blank (.items (item :: items)) (text ++ (blanks ++ ',' :: more))
  | noEntries {blanks : List Char} (hblanks : ∀ c ∈ blanks, blank c = true) :
      Spells blank (.entries []) (blanks ++ ['}'])
  | lastEntry {key : Key} {value : Phrase} {text before between blanks : List Char}
      (hbefore : ∀ c ∈ before, blank c = true) (hkey : key.IsValid)
      (hbetween : ∀ c ∈ between, blank c = true) (h : Spells blank (.sum value) text)
      (hblanks : ∀ c ∈ blanks, blank c = true) :
      Spells blank (.entries [(key, value)])
        (before ++ (key.code ++ (between ++ ':' :: (text ++ (blanks ++ ['}'])))))
  | entry {key : Key} {value : Phrase} {entries : List (Key × Phrase)}
      {text more before between blanks : List Char}
      (hbefore : ∀ c ∈ before, blank c = true) (hkey : key.IsValid)
      (hbetween : ∀ c ∈ between, blank c = true) (h : Spells blank (.sum value) text)
      (hblanks : ∀ c ∈ blanks, blank c = true) (hentries : Spells blank (.entries entries) more) :
      Spells blank (.entries ((key, value) :: entries))
        (before ++ (key.code ++ (between ++ ':' :: (text ++ (blanks ++ ',' :: more)))))

theorem Spells.mono {blank other : Char → Bool} {part : Part} {text : List Char}
    (h : Spells blank part text) (hblank : ∀ c ∈ text, blank c = true → other c = true) :
    Spells other part text := by
  have hall {blanks : List Char} (h : ∀ c ∈ blanks, blank c = true)
      (hother : ∀ c ∈ blanks, blank c = true → other c = true) : ∀ c ∈ blanks, other c = true :=
    fun c hc => hother c hc (h c hc)
  -- On the spelling: each piece asks for the blanks of its own part of the text only.
  induction h with
  | string inside hquote => exact .string inside hquote
  | number hvalue => exact .number hvalue
  | word hname => exact .word hname
  | parentheses _ hblanks ih =>
    simp only [List.forall_mem_cons, List.forall_mem_append] at hblank
    exact .parentheses (ih hblank.2.1) (hall hblanks hblank.2.2.1)
  | array _ ih => exact .array (ih (List.forall_mem_cons.mp hblank).2)
  | object _ ih => exact .object (ih (List.forall_mem_cons.mp hblank).2)
  | primary _ hblanks ih =>
    rw [List.forall_mem_append] at hblank
    exact .primary (ih hblank.2) (hall hblanks hblank.1)
  | signed hsign _ hblanks ih =>
    simp only [List.forall_mem_cons, List.forall_mem_append] at hblank
    exact .signed hsign (ih hblank.2.2) (hall hblanks hblank.1)
  | term _ ih => exact .term (ih hblank)
  | sum _ hblanks _ hplus ihleft ihright =>
    simp only [List.forall_mem_cons, List.forall_mem_append] at hblank
    exact .sum (ihleft hblank.1) (hall hblanks hblank.2.1) (ihright hblank.2.2.2) hplus
  | noItems hblanks =>
    rw [List.forall_mem_append] at hblank
    exact .noItems (hall hblanks hblank.1)
  | lastItem _ hblanks ih =>
    simp only [List.forall_mem_append] at hblank
    exact .lastItem (ih hblank.1) (hall hblanks hblank.2.1)
  | item _ hblanks _ ih ihitems =>
    simp only [List.forall_mem_cons, List.forall_mem_append] at hblank
    exact .item (ih hblank.1) (hall hblanks hblank.2.1) (ihitems hblank.2.2.2)
  | noEntries hblanks =>
    rw [List.forall_mem_append] at hblank
    exact .noEntries (hall hblanks hblank.1)
  | lastEntry hbefore hkey hbetween _ hblanks ih =>
    simp only [List.forall_mem_cons, List.forall_mem_append] at hblank
    obtain ⟨hbefore', -, hbetween', -, htext, hblanks', -⟩ := hblank
    exact .lastEntry (hall hbefore hbefore') hkey (hall hbetween hbetween') (ih htext)
      (hall hblanks hblanks')
  | entry hbefore hkey hbetween _ hblanks _ ih ihentries =>
    simp only [List.forall_mem_cons, List.forall_mem_append] at hblank
    obtain ⟨hbefore', -, hbetween', -, htext, hblanks', -, hmore⟩ := hblank
    exact .entry (hall hbefore hbefore') hkey (hall hbetween hbetween') (ih htext)
      (hall hblanks hblanks') (ihentries hmore)

theorem isBlank_of_isIdentifierChar {c : Char} (h : isIdentifierChar c = true) :
    isBlank c = false := by
  rcases isIdentifierStart_or_isDigit h with hstart | hdigit
  · exact isBlank_of_isIdentifierStart hstart
  · have hbounds := toNat_of_isDigit hdigit
    simp only [isBlank, Bool.or_eq_false_iff, Bool.and_eq_false_iff, decide_eq_false_iff_not,
      beq_eq_false_iff_ne]
    omega

def IsFirst (c : Char) : Prop :=
  isIdentifierChar c = true ∨ c ∈ ['.', '\x27', '\x22', '\x60', '(', '[', '{']

def IsLast (c : Char) : Prop :=
  isIdentifierChar c = true ∨ c ∈ ['.', '\x27', '\x22', '\x60', ')', ']', '}']

theorem IsFirst.isBlank_eq {c : Char} (h : IsFirst c) : isBlank c = false := by
  rcases h with hword | hmem
  · exact isBlank_of_isIdentifierChar hword
  · revert hmem c
    decide

theorem IsFirst.ne {c d : Char} (h : IsFirst c)
    (hd : d ∈ ['+', '-', '=', ',', ':', ')', ']', '}']) : c ≠ d := by
  rintro rfl
  rcases h with hword | hmem
  · revert hword hd c
    decide
  · revert hmem hd c
    decide

theorem IsLast.isBlank_eq {c : Char} (h : IsLast c) : isBlank c = false := by
  rcases h with hword | hmem
  · exact isBlank_of_isIdentifierChar hword
  · revert hmem c
    decide

section

variable {blank : Char → Bool} {part : Part} {phrase : Phrase} {text : List Char}

theorem isIdentifierChar_of_isIdentifierStart {c : Char} (h : isIdentifierStart c = true) :
    isIdentifierChar c = true := by
  simp only [isIdentifierStart, isIdentifierChar, Char.isAlphanum, Bool.or_eq_true] at h ⊢
  tauto

theorem isIdentifierChar_of_isDigit {c : Char} (h : c.isDigit = true) :
    isIdentifierChar c = true := by
  simp [isIdentifierChar, Char.isAlphanum, h]

theorem isIdentifier_cons {name : List Char} (h : isIdentifier name = true) :
    ∃ c cs, name = c :: cs ∧ isIdentifierStart c = true ∧ ∀ d ∈ cs, isIdentifierChar d = true := by
  cases name with
  | nil => cases h
  | cons c cs =>
    obtain ⟨hstart, hcs⟩ := Bool.and_eq_true_iff.mp h
    exact ⟨c, cs, rfl, hstart, List.all_eq_true.mp hcs⟩

theorem numberValue?_cons {digits : List Char} {value : Binary64}
    (h : numberValue? digits = some value) :
    ∃ c cs, digits = c :: cs ∧ (c.isDigit = true ∨ c = '.') := by
  unfold numberValue? at h
  split at h
  · cases h
  · split at h
    · rename_i hshape
      exact ⟨_, _, rfl, hshape.1⟩
    · cases h

theorem Spells.first_primary (h : Spells blank (.primary phrase) text) :
    ∃ c cs, text = c :: cs ∧ IsFirst c := by
  cases h with
  | string inside hquote =>
    refine ⟨_, _, rfl, Or.inr ?_⟩
    rcases hquote with rfl | rfl | rfl <;> decide
  | number hvalue =>
    obtain ⟨c, cs, rfl, hdigit | rfl⟩ := numberValue?_cons hvalue
    · exact ⟨c, cs, rfl, Or.inl (isIdentifierChar_of_isDigit hdigit)⟩
    · exact ⟨_, cs, rfl, Or.inr (by decide)⟩
  | word hname =>
    obtain ⟨c, cs, rfl, hstart, -⟩ := isIdentifier_cons hname
    exact ⟨c, cs, rfl, Or.inl (isIdentifierChar_of_isIdentifierStart hstart)⟩
  | parentheses _ _ => exact ⟨_, _, rfl, Or.inr (by decide)⟩
  | array _ => exact ⟨_, _, rfl, Or.inr (by decide)⟩
  | object _ => exact ⟨_, _, rfl, Or.inr (by decide)⟩

theorem Spells.first_term (h : Spells blank (.term phrase) text) :
    ∃ blanks c cs, text = blanks ++ c :: cs ∧ (∀ d ∈ blanks, blank d = true) ∧
      (IsFirst c ∨ c = '-' ∨ c = '+') := by
  cases h with
  | primary h hblanks =>
    obtain ⟨c, cs, rfl, hfirst⟩ := h.first_primary
    exact ⟨_, c, cs, rfl, hblanks, Or.inl hfirst⟩
  | signed hsign _ hblanks => exact ⟨_, _, _, rfl, hblanks, Or.inr hsign⟩

theorem Spells.first_sum (h : Spells blank (.sum phrase) text) :
    ∃ blanks c cs, text = blanks ++ c :: cs ∧ (∀ d ∈ blanks, blank d = true) ∧
      (IsFirst c ∨ c = '-' ∨ c = '+') := by
  generalize hpart : Part.sum phrase = part at h
  induction h generalizing phrase with
  | term h => exact h.first_term
  | sum _ _ _ _ ih _ =>
    obtain ⟨blanks, c, cs, rfl, hblanks, hfirst⟩ := ih rfl
    exact ⟨blanks, c, _, List.append_assoc .., hblanks, hfirst⟩
  | _ => cases hpart

/-- The text ends with a character that ends an operand. -/
def EndsOperand (text : List Char) : Prop :=
  ∃ d ∈ text.getLast?, IsLast d

theorem endsOperand_singleton {d : Char} (h : IsLast d) : EndsOperand [d] :=
  ⟨d, rfl, h⟩

theorem EndsOperand.cons (h : EndsOperand text) (c : Char) : EndsOperand (c :: text) := by
  obtain ⟨d, hd, hlast⟩ := h
  exact ⟨d, List.mem_getLast?_cons hd, hlast⟩

theorem EndsOperand.append (h : EndsOperand text) (front : List Char) :
    EndsOperand (front ++ text) := by
  obtain ⟨d, hd, hlast⟩ := h
  exact ⟨d, List.mem_getLast?_append_of_mem_getLast? hd, hlast⟩

theorem EndsOperand.of_append {front cs : List Char} {c : Char}
    (h : EndsOperand (front ++ c :: cs)) : EndsOperand (c :: cs) := by
  obtain ⟨d, hd, hlast⟩ := h
  rw [List.getLast?_append_of_ne_nil _ (List.cons_ne_nil c cs)] at hd
  exact ⟨d, hd, hlast⟩

theorem endsOperand_string {quote : Char} (inside : List Char)
    (h : quote = '\x27' ∨ quote = '\x22' ∨ quote = '\x60') :
    EndsOperand (quote :: (inside ++ [quote])) := by
  have hquote : IsLast quote := by
    rcases h with rfl | rfl | rfl <;> exact Or.inr (by decide)
  exact ((endsOperand_singleton hquote).append inside).cons quote

theorem endsOperand_number {digits : List Char} {value : Binary64}
    (h : numberValue? digits = some value) : EndsOperand digits := by
  obtain ⟨c, cs, rfl, -⟩ := numberValue?_cons h
  have hlast := List.getLast?_eq_some_getLast (List.cons_ne_nil c cs)
  refine ⟨_, hlast, ?_⟩
  rcases getLast?_of_numberValue? h _ hlast with hdigit | hpoint
  · exact Or.inl (isIdentifierChar_of_isDigit hdigit)
  · rw [hpoint]
    exact Or.inr (by decide)

theorem endsOperand_word {name : List Char} (h : isIdentifier name = true) : EndsOperand name := by
  obtain ⟨c, cs, rfl, hstart, hcs⟩ := isIdentifier_cons h
  refine ⟨_, List.getLast?_eq_some_getLast (List.cons_ne_nil c cs), Or.inl ?_⟩
  rcases List.mem_cons.mp (List.getLast_mem (List.cons_ne_nil c cs)) with heq | hmem
  · rw [heq]
    exact isIdentifierChar_of_isIdentifierStart hstart
  · exact hcs _ hmem

theorem Key.IsValid.endsOperand {key : Key} (h : key.IsValid) : EndsOperand key.code := by
  cases key with
  | word name => exact endsOperand_word h
  | string quote inside => exact endsOperand_string inside (h.imp id Or.inl)
  | number digits =>
    obtain ⟨value, hvalue⟩ := Option.isSome_iff_exists.mp h.2
    exact endsOperand_number hvalue

theorem Spells.endsOperand (h : Spells blank part text) : EndsOperand text := by
  have hclosing : ∀ d ∈ [')', ']', '}'], IsLast d := fun d hd => Or.inr (by revert hd d; decide)
  have hround := endsOperand_singleton (hclosing ')' (by decide))
  have hsquare := endsOperand_singleton (hclosing ']' (by decide))
  have hcurly := endsOperand_singleton (hclosing '}' (by decide))
  induction h with
  | string inside hquote => exact endsOperand_string inside hquote
  | number hvalue => exact endsOperand_number hvalue
  | word hname => exact endsOperand_word hname
  | parentheses _ _ => exact ((hround.append _).append _).cons _
  | array _ ih => exact ih.cons _
  | object _ ih => exact ih.cons _
  | primary _ _ ih => exact ih.append _
  | signed _ _ _ ih => exact (ih.cons _).append _
  | term _ ih => exact ih
  | sum _ _ _ _ _ ih => exact ((ih.cons _).append _).append _
  | noItems _ => exact hsquare.append _
  | lastItem _ _ => exact (hsquare.append _).append _
  | item _ _ _ _ ih => exact ((ih.cons _).append _).append _
  | noEntries _ => exact hcurly.append _
  | lastEntry _ _ _ _ _ =>
    exact (((((hcurly.append _).append _).cons _).append _).append _).append _
  | entry _ _ _ _ _ _ _ ih =>
    exact ((((((ih.cons _).append _).append _).cons _).append _).append _).append _

theorem EndsOperand.eq_append (h : EndsOperand text) :
    ∃ init d, text = init ++ [d] ∧ isBlank d = false := by
  obtain ⟨d, hd, hlast⟩ := h
  obtain ⟨init, rfl⟩ := List.getLast?_eq_some_iff.mp hd
  exact ⟨init, d, rfl, hlast.isBlank_eq⟩

end

end TemplateMessages.Expression
