import TemplateMessages.Fluent.Token

set_option autoImplicit false

/-!
# Escapes in Fluent strings
-/

namespace TemplateMessages.Fluent

def hexValue? (digits : List Char) : Option Nat :=
  if !digits.isEmpty && digits.all isHexDigit then
    some (digits.foldl (fun value c =>
      16 * value + (if c.isDigit then c.toNat - '0'.toNat else c.toUpper.toNat - 'A'.toNat + 10)) 0)
  else none

def codePoint (digits : List Char) : Char :=
  match hexValue? digits with
  | none => '\uFFFD'
  | some n => if n.isValidChar then Char.ofNat n else '\uFFFD'

/-- The characters that the inside of a string literal stands for. A backslash stands for the
character behind it, and `u` and `U` for a code point of four and of six digits. -/
def unescape (raw : List Char) : List Char :=
  match raw with
  | [] => []
  | ['\\'] => ['\\']
  | '\\' :: 'u' :: rest => codePoint (rest.take 4) :: unescape (rest.drop 4)
  | '\\' :: 'U' :: rest => codePoint (rest.take 6) :: unescape (rest.drop 6)
  | '\\' :: c :: rest => c :: unescape rest
  | c :: rest => c :: unescape rest
termination_by raw.length
decreasing_by all_goals simp only [List.length_cons, List.length_drop]; omega

end TemplateMessages.Fluent
