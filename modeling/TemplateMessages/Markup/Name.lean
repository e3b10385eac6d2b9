set_option autoImplicit false

/-!
# Names of elements

A name starts with an ASCII letter or `_`; a qualified name is one name, or two with a colon
between them.
-/

namespace TemplateMessages.Markup

def isNameStart (c : Char) : Bool :=
  c.isAlpha || c == '_'

def nameRanges : List (Nat × Nat) := [
  (0xB7, 0xB7), (0xC0, 0xD6), (0xD8, 0xF6), (0xF8, 0x37D), (0x37F, 0x1FFF), (0x200C, 0x200D),
  (0x203F, 0x2040), (0x2070, 0x218F), (0x2C00, 0x2FEF), (0x3001, 0xD7FF), (0xF900, 0xFDCF),
  (0xFDF0, 0xFFFD)]

def isNameChar (c : Char) : Bool :=
  c.isAlphanum || c == '-' || c == '.' || c == '_' ||
    nameRanges.any fun range => range.1 ≤ c.toNat && c.toNat ≤ range.2

def readName? : List Char → Option (List Char × List Char)
  | [] => none
  | c :: cs =>
    if isNameStart c then some (c :: cs.takeWhile isNameChar, cs.dropWhile isNameChar) else none

/-- The longest qualified name at the start of a text, and the rest. -/
def readQualifiedName? (text : List Char) : Option (List Char × List Char) :=
  match readName? text with
  | none => none
  | some (name, ':' :: rest) =>
    match readName? rest with
    | some (localName, after) => some (name ++ ':' :: localName, after)
    | none => some (name, ':' :: rest)
  | some (name, rest) => some (name, rest)

theorem append_of_readName? {text name rest : List Char} (h : readName? text = some (name, rest)) :
    name ++ rest = text ∧ name ≠ [] := by
  cases text with
  | nil => simp [readName?] at h
  | cons c cs =>
    simp only [readName?] at h
    split at h
    · simp only [Option.some.injEq, Prod.mk.injEq] at h
      obtain ⟨rfl, rfl⟩ := h
      simp
    · simp at h

theorem append_of_readQualifiedName? {text name rest : List Char}
    (h : readQualifiedName? text = some (name, rest)) : name ++ rest = text ∧ name ≠ [] := by
  unfold readQualifiedName? at h
  split at h
  · simp at h
  · rename_i first inner hfirst
    have whole := append_of_readName? hfirst
    split at h
    · rename_i second after hsecond
      have part := append_of_readName? hsecond
      simp only [Option.some.injEq, Prod.mk.injEq] at h
      obtain ⟨rfl, rfl⟩ := h
      refine ⟨?_, by simp⟩
      rw [← whole.1, ← part.1]
      simp
    · simp only [Option.some.injEq, Prod.mk.injEq] at h
      obtain ⟨rfl, rfl⟩ := h
      exact whole
  · rename_i first inner _ hfirst
    simp only [Option.some.injEq, Prod.mk.injEq] at h
    obtain ⟨rfl, rfl⟩ := h
    exact append_of_readName? hfirst

end TemplateMessages.Markup
