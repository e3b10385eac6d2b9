set_option autoImplicit false

/-!
# Searching a text

The first occurrence of a phrase cuts a text in three: what is in front, the phrase, and the rest.
-/

namespace TemplateMessages.Text

def breakOn? (phrase : List Char) : List Char → Option (List Char × List Char)
  | [] => if phrase.isEmpty then some ([], []) else none
  | c :: cs =>
    if phrase.isPrefixOf (c :: cs) then some ([], (c :: cs).drop phrase.length)
    else (breakOn? phrase cs).map fun (before, rest) => (c :: before, rest)

def contains (phrase text : List Char) : Bool :=
  (breakOn? phrase text).isSome

def replaceChar (c : Char) (replacement : String) (text : List Char) : List Char :=
  text.flatMap fun d => if d = c then replacement.toList else [d]

/-- The text through the first occurrence of `phrase`, or the whole text when there is none, and the
rest. -/
def through (phrase text : List Char) : List Char × List Char :=
  match breakOn? phrase text with
  | some (before, rest) => (before ++ phrase, rest)
  | none => (text, [])

theorem append_of_breakOn? {phrase text before rest : List Char}
    (h : breakOn? phrase text = some (before, rest)) : before ++ phrase ++ rest = text := by
  induction text generalizing before with
  | nil =>
    simp only [breakOn?] at h
    split at h
    · rename_i empty
      simp_all
    · simp at h
  | cons c cs ih =>
    simp only [breakOn?] at h
    split at h
    · rename_i found
      obtain ⟨tail, htail⟩ := List.isPrefixOf_iff_prefix.mp found
      simp only [Option.some.injEq, Prod.mk.injEq] at h
      obtain ⟨rfl, rfl⟩ := h
      simp [← htail]
    · obtain ⟨⟨front, tail⟩, inner, outer⟩ := Option.map_eq_some_iff.mp h
      simp only [Prod.mk.injEq] at outer
      obtain ⟨rfl, rfl⟩ := outer
      simpa using ih inner

@[simp] theorem through_append (phrase text : List Char) :
    (through phrase text).1 ++ (through phrase text).2 = text := by
  unfold through
  cases h : breakOn? phrase text with
  | none => simp
  | some parts => exact append_of_breakOn? h

end TemplateMessages.Text
