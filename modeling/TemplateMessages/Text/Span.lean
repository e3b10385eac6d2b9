set_option autoImplicit false

/-!
# Byte spans of a text

Positions count the bytes of the text in UTF-8. A text is a list of characters, so a position that
the library computes always falls between two characters.
-/

namespace TemplateMessages.Text

/-- The number of bytes of a text in UTF-8. -/
@[simp]
def byteLength : List Char → Nat
  | [] => 0
  | c :: cs => c.utf8Size + byteLength cs

def dropBytes : Nat → List Char → List Char
  | 0, cs => cs
  | _ + 1, [] => []
  | n + 1, c :: cs => dropBytes (n + 1 - c.utf8Size) cs

def takeBytes : Nat → List Char → List Char
  | 0, _ => []
  | _ + 1, [] => []
  | n + 1, c :: cs => c :: takeBytes (n + 1 - c.utf8Size) cs

structure Span where
  start : Nat
  stop : Nat
  deriving DecidableEq, Repr, Inhabited

namespace Span

/-- The same range in a text that has `base` bytes in front. -/
def shift (span : Span) (base : Nat) : Span :=
  ⟨span.start + base, span.stop + base⟩

def length (span : Span) : Nat :=
  span.stop - span.start

def slice (span : Span) (source : List Char) : List Char :=
  takeBytes span.length (dropBytes span.start source)

def display (span : Span) : String :=
  toString span.start ++ ".." ++ toString span.stop

end Span

@[simp] theorem byteLength_append (xs ys : List Char) :
    byteLength (xs ++ ys) = byteLength xs + byteLength ys := by
  induction xs with
  | nil => simp
  | cons c cs ih => simp [ih, Nat.add_assoc]

theorem add_byteLength_append (position : Nat) (xs ys : List Char) :
    position + byteLength (xs ++ ys) = position + byteLength xs + byteLength ys := by
  rw [byteLength_append, Nat.add_assoc]

@[simp] theorem dropBytes_byteLength_append (xs ys : List Char) :
    dropBytes (byteLength xs) (xs ++ ys) = ys := by
  induction xs with
  | nil => simp [dropBytes]
  | cons c cs ih =>
    have positive := Char.utf8Size_pos c
    obtain ⟨n, hn⟩ : ∃ n, c.utf8Size + byteLength cs = n + 1 := ⟨_, (Nat.succ_pred (by omega)).symm⟩
    simp only [byteLength, List.cons_append, hn, dropBytes]
    rw [← hn, Nat.add_sub_cancel_left, ih]

@[simp] theorem takeBytes_byteLength_append (xs ys : List Char) :
    takeBytes (byteLength xs) (xs ++ ys) = xs := by
  induction xs with
  | nil => simp [takeBytes]
  | cons c cs ih =>
    have positive := Char.utf8Size_pos c
    obtain ⟨n, hn⟩ : ∃ n, c.utf8Size + byteLength cs = n + 1 := ⟨_, (Nat.succ_pred (by omega)).symm⟩
    simp only [byteLength, List.cons_append, hn, takeBytes]
    rw [← hn, Nat.add_sub_cancel_left, ih]

end TemplateMessages.Text
