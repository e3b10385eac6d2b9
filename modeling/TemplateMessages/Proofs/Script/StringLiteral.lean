import TemplateMessages.Expression.Quoted

set_option autoImplicit false

/-!
# String literals of a script

`readString?` reads a string literal behind its opening quote as a script does. It reads back what
`quotedChars` writes. Of the escapes, those of more than one character but `\u` with four digits are
not read.
-/

namespace TemplateMessages.Script

open TemplateMessages.Expression (escapeChar quotedChars quoted)

def hexDigit? (c : Char) : Option Nat :=
  if c.isDigit then some (c.toNat - '0'.toNat)
  else if 'a' ≤ c ∧ c ≤ 'f' then some (c.toNat - 'a'.toNat + 10)
  else if 'A' ≤ c ∧ c ≤ 'F' then some (c.toNat - 'A'.toNat + 10)
  else none

/-- The character with that code, which is none for half of a surrogate pair. -/
def codeEscape? (digits : List Char) : Option Char := do
  let values ← digits.mapM hexDigit?
  let code := values.foldl (fun code digit => 16 * code + digit) 0
  if code.isValidChar then some (Char.ofNat code) else none

def simpleEscape? (c : Char) : Option Char :=
  if c = 'n' then some '\n'
  else if c = 'r' then some '\r'
  else if c = 't' then some '\t'
  else if c = 'b' then some '\x08'
  else if c = 'f' then some '\x0c'
  else if c = 'v' then some '\x0b'
  else if c.isDigit ∨ c = 'x' ∨ c = 'u' ∨ c = '\n' ∨ c = '\r' then none
  else some c

def readString? (quote : Char) : List Char → Option (List Char × List Char)
  | [] => none
  | c :: cs =>
    if c = quote then some ([], cs)
    else if c = '\\' then
      match cs with
      | 'u' :: i :: j :: k :: l :: rest =>
        (codeEscape? [i, j, k, l]).bind fun d =>
          (readString? quote rest).map fun (text, after) => (d :: text, after)
      | e :: rest =>
        (simpleEscape? e).bind fun d =>
          (readString? quote rest).map fun (text, after) => (d :: text, after)
      | [] => none
    else if c = '\n' ∨ c = '\r' then none
    else (readString? quote cs).map fun (text, after) => (c :: text, after)

theorem length_lt_of_readString? {quote : Char} {cs text rest : List Char}
    (h : readString? quote cs = some (text, rest)) : rest.length < cs.length := by
  fun_induction readString? quote cs generalizing text with
  | case1 => cases h
  | case2 cs =>
    cases h
    exact Nat.lt_succ_self _
  | case3 i j k l after _ ih =>
    obtain ⟨d, _, hd⟩ := Option.bind_eq_some_iff.mp h
    obtain ⟨⟨inner, last⟩, hinner, heq⟩ := Option.map_eq_some_iff.mp hd
    cases heq
    have := ih hinner
    simp only [List.length_cons]
    omega
  | case4 e after _ _ ih =>
    obtain ⟨d, _, hd⟩ := Option.bind_eq_some_iff.mp h
    obtain ⟨⟨inner, last⟩, hinner, heq⟩ := Option.map_eq_some_iff.mp hd
    cases heq
    have := ih hinner
    simp only [List.length_cons]
    omega
  | case5 => cases h
  | case6 => cases h
  | case7 c cs _ _ _ ih =>
    obtain ⟨⟨inner, last⟩, hinner, heq⟩ := Option.map_eq_some_iff.mp h
    cases heq
    exact Nat.lt_succ_of_lt (ih hinner)

theorem readString?_escapeChar (c : Char) (cs : List Char) :
    readString? '\x27' (escapeChar c ++ cs) =
      (readString? '\x27' cs).map fun (text, after) => (c :: text, after) := by
  unfold escapeChar
  by_cases hslash : c = '\\'
  · subst hslash
    rfl
  by_cases hquote : c = '\x27'
  · subst hquote
    rfl
  by_cases hn : c = '\n'
  · subst hn
    rfl
  by_cases hr : c = '\r'
  · subst hr
    rfl
  by_cases ht : c = '\t'
  · subst ht
    rfl
  by_cases hline : c = '\u2028'
  · subst hline
    rfl
  by_cases hparagraph : c = '\u2029'
  · subst hparagraph
    rfl
  have hbreak : ¬(c = '\n' ∨ c = '\r') := by simp [hn, hr]
  rw [if_neg hslash, if_neg hquote, if_neg hn, if_neg hr, if_neg ht, if_neg hline,
    if_neg hparagraph, List.singleton_append]
  conv => lhs; rw [readString?.eq_def]
  dsimp only
  rw [if_neg hquote, if_neg hslash, if_neg hbreak]

@[simp] theorem readString?_escaped (text rest : List Char) :
    readString? '\x27' (text.flatMap escapeChar ++ '\x27' :: rest) = some (text, rest) := by
  induction text with
  | nil =>
    rw [List.flatMap_nil, List.nil_append, readString?.eq_def]
    rfl
  | cons c cs ih =>
    rw [List.flatMap_cons, List.append_assoc, readString?_escapeChar, ih]
    rfl

theorem quoted_injective : Function.Injective quoted := by
  intro text other h
  have hchars : quotedChars text.toList = quotedChars other.toList := String.ofList_injective h
  have hread := readString?_escaped text.toList []
  rw [(List.cons.inj hchars).2, readString?_escaped] at hread
  exact (String.toList_injective (Prod.mk.inj (Option.some.inj hread)).1).symm

end TemplateMessages.Script
