import TemplateMessages.Text.Invisible

set_option autoImplicit false

/-!
# Text as it is shown in a message

A text that a message quotes stands in double quotes. Its double quotes, its backslashes and the
characters that do not show by themselves are escaped; in the path of a file so are its single
quotes.
-/

namespace TemplateMessages.Text

def hexDigits (n : Nat) : List Char :=
  Nat.toDigits 16 n

/-- A character as it is shown, `quotes` being the quotes that are escaped. -/
def showChar (quotes : List Char) (c : Char) : List Char :=
  if quotes.contains c then ['\\', c]
  else if c = '\\' then ['\\', '\\']
  else if c = '\n' then ['\\', 'n']
  else if c = '\r' then ['\\', 'r']
  else if c = '\t' then ['\\', 't']
  else if c = '\x00' then ['\\', '0']
  else if isInvisible c then ['\\', 'u', '\x7b'] ++ hexDigits c.toNat ++ ['\x7d']
  else [c]

def enclosed (quotes : List Char) (text : String) : String :=
  String.ofList ('\x22' :: text.toList.flatMap (showChar quotes) ++ ['\x22'])

def shown (text : String) : String :=
  enclosed ['\x22'] text

def shownPath (path : String) : String :=
  enclosed ['\x22', '\''] path

end TemplateMessages.Text
