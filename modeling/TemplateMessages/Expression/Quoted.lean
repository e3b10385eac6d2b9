set_option autoImplicit false

/-!
# String literals and identifiers of the host language

`quoted` writes a text as a string literal in single quotes.
-/

namespace TemplateMessages.Expression

def escapeChar (c : Char) : List Char :=
  if c = '\\' then ['\\', '\\']
  else if c = '\x27' then ['\\', '\x27']
  else if c = '\n' then ['\\', 'n']
  else if c = '\r' then ['\\', 'r']
  else if c = '\t' then ['\\', 't']
  else if c = '\u2028' then ['\\', 'u', '2', '0', '2', '8']
  else if c = '\u2029' then ['\\', 'u', '2', '0', '2', '9']
  else [c]

def quotedChars (text : List Char) : List Char :=
  '\x27' :: (text.flatMap escapeChar ++ ['\x27'])

def quoted (text : String) : String :=
  String.ofList (quotedChars text.toList)

def isIdentifierStart (c : Char) : Bool :=
  c.isAlpha || c == '_' || c == '$'

def isIdentifierChar (c : Char) : Bool :=
  c.isAlphanum || c == '_' || c == '$'

/-- A plain name: a letter, `_` or `$`, then letters, digits, `_` or `$`, all of them ASCII. -/
def isIdentifier : List Char → Bool
  | [] => false
  | c :: cs => isIdentifierStart c && cs.all isIdentifierChar

end TemplateMessages.Expression
