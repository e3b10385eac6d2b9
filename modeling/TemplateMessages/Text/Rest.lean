set_option autoImplicit false

/-!
# Rests of a text

A reader gives what is left of its text behind what it read. A rest carries the proof that it is no
longer than the text, or that it is shorter, so that readers which go on with the rest end.
-/

namespace TemplateMessages.Text

abbrev Rest (text : List Char) : Type :=
  { rest : List Char // rest.length ≤ text.length }

abbrev Shorter (text : List Char) : Type :=
  { rest : List Char // rest.length < text.length }

variable {text rest : List Char}

namespace Rest

def whole (text : List Char) : Rest text :=
  ⟨text, Nat.le_refl _⟩

def empty (text : List Char) : Rest text :=
  ⟨[], Nat.zero_le _⟩

def dropWhile (p : Char → Bool) (text : List Char) : Rest text :=
  ⟨text.dropWhile p, (List.dropWhile_sublist p).length_le⟩

/-- The text behind its first characters. -/
def drop (count : Nat) (text : List Char) : Rest text :=
  ⟨text.drop count, (List.drop_sublist count text).length_le⟩

/-- A rest of the text behind a character. -/
def behind (c : Char) (rest : Rest text) : Rest (c :: text) :=
  ⟨rest.val, Nat.le_succ_of_le rest.property⟩

def past (c : Char) (rest : Rest text) : Shorter (c :: text) :=
  ⟨rest.val, Nat.lt_succ_of_le rest.property⟩

def within (after : Rest rest) (h : rest.length ≤ text.length) : Rest text :=
  ⟨after.val, Nat.le_trans after.property h⟩

/-- A rest of a shorter rest. -/
def inside (after : Rest rest) (h : rest.length < text.length) : Shorter text :=
  ⟨after.val, Nat.lt_of_le_of_lt after.property h⟩

end Rest

namespace Shorter

def tail (c : Char) (text : List Char) : Shorter (c :: text) :=
  ⟨text, Nat.lt_succ_self _⟩

def toRest (rest : Shorter text) : Rest text :=
  ⟨rest.val, Nat.le_of_lt rest.property⟩

def withHead (c : Char) (rest : Shorter text) : Rest text :=
  ⟨c :: rest.val, rest.property⟩

def past (c : Char) (rest : Shorter text) : Shorter (c :: text) :=
  ⟨rest.val, Nat.lt_succ_of_lt rest.property⟩

def within (after : Shorter rest) (h : rest.length ≤ text.length) : Shorter text :=
  ⟨after.val, Nat.lt_of_lt_of_le after.property h⟩

/-- A shorter rest of a shorter rest. -/
def inside (after : Shorter rest) (h : rest.length < text.length) : Shorter text :=
  ⟨after.val, Nat.lt_trans after.property h⟩

end Shorter

def firstBehind? (p : Char → Bool) : (text : List Char) → Option (Char × Shorter text)
  | [] => none
  | c :: cs =>
    if p c then (firstBehind? p cs).map fun (d, rest) => (d, rest.past c)
    else some (c, .tail c cs)

theorem dropWhile_eq_firstBehind? (p : Char → Bool) (text : List Char) :
    text.dropWhile p = (firstBehind? p text).elim [] fun (c, rest) => c :: rest.val := by
  induction text with
  | nil => rfl
  | cons c cs ih =>
    by_cases h : p c = true
    · rw [List.dropWhile_cons_of_pos h, ih]
      cases hfirst : firstBehind? p cs <;> simp [firstBehind?, h, hfirst, Shorter.past]
    · simp [firstBehind?, h, Shorter.tail]

end TemplateMessages.Text
