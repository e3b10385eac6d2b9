import TemplateMessages.Number.Decimal
import TemplateMessages.Table

set_option autoImplicit false

/-!
# JSON values

A JSON value keeps the members of its objects in source order. `compact` writes a value on one line,
and `pretty` over several.
-/

namespace TemplateMessages

open TemplateMessages.Number (Binary64 Decimal)

inductive Json where
  | null
  | bool (value : Bool)
  | integer (value : Int)
  | float (value : Binary64)
  | string (value : String)
  | array (items : List Json)
  | object (members : List (String × Json))
  deriving Repr, Inhabited

namespace Json

def isObject : Json → Bool
  | object _ => true
  | _ => false

def hexDigit (n : Nat) : Char :=
  if n < 10 then Char.ofNat ('0'.toNat + n) else Char.ofNat ('a'.toNat + n - 10)

def escapeChar (c : Char) : List Char :=
  if c = '\x22' then ['\\', '\x22']
  else if c = '\\' then ['\\', '\\']
  else if c = '\n' then ['\\', 'n']
  else if c = '\r' then ['\\', 'r']
  else if c = '\t' then ['\\', 't']
  else if c = '\x08' then ['\\', 'b']
  else if c = '\x0c' then ['\\', 'f']
  else if c.toNat < 0x20 then
    ['\\', 'u', '0', '0', hexDigit (c.toNat / 16), hexDigit (c.toNat % 16)]
  else [c]

def quote (text : String) : String :=
  String.ofList ('\x22' :: text.toList.flatMap escapeChar ++ ['\x22'])

/-- A positive decimal number. Between `10 ^ -5` and `10 ^ 16` it is positional, with one digit at
least behind the point; any other one has an exponent. -/
def decimalText (decimal : Decimal) : String :=
  let digits := Nat.toDigits 10 decimal.digits
  let top := digits.length + decimal.exponent
  if 0 ≤ decimal.exponent ∧ top ≤ 16 then decimal.positional ++ ".0"
  else if -5 < top ∧ top ≤ 16 then decimal.positional
  else
    let mantissa := match digits with
      | first :: second :: more => first :: '.' :: second :: more
      | _ => digits
    String.ofList mantissa ++ "e" ++ toString (top - 1)

def floatText : Binary64 → String
  | .finite negative significand scale =>
    let unsigned :=
      if significand = 0 then "0.0"
      else decimalText (Decimal.shortest significand scale).withoutTrailingZeros
    if negative then "-" ++ unsigned else unsigned
  | _ => "null"

mutual

def compact : Json → String
  | null => "null"
  | bool value => if value then "true" else "false"
  | integer value => toString value
  | float value => floatText value
  | string value => quote value
  | array items => "[" ++ String.intercalate "," (compactItems items) ++ "]"
  | object members => "\x7b" ++ String.intercalate "," (compactMembers members) ++ "\x7d"

def compactItems : List Json → List String
  | [] => []
  | item :: items => compact item :: compactItems items

def compactMembers : List (String × Json) → List String
  | [] => []
  | (name, value) :: members => (quote name ++ ":" ++ compact value) :: compactMembers members

end

def newLine (level : Nat) : String :=
  String.ofList ('\n' :: List.replicate (2 * level) ' ')

/-- Parts on lines of their own between two brackets, which an empty list leaves together. -/
def bracketLines (opening closing : String) (level : Nat) (parts : List String) : String :=
  if parts.isEmpty then opening ++ closing
  else
    opening ++ newLine (level + 1) ++ String.intercalate ("," ++ newLine (level + 1)) parts ++
      newLine level ++ closing

mutual

/-- A value with every item and member on a line of its own, inside a given level. -/
def prettyAt (level : Nat) : Json → String
  | array items => bracketLines "[" "]" level (prettyItems (level + 1) items)
  | object members => bracketLines "\x7b" "\x7d" level (prettyMembers (level + 1) members)
  | value => compact value

def prettyItems (level : Nat) : List Json → List String
  | [] => []
  | item :: items => prettyAt level item :: prettyItems level items

def prettyMembers (level : Nat) : List (String × Json) → List String
  | [] => []
  | (name, value) :: members =>
    (quote name ++ ": " ++ prettyAt level value) :: prettyMembers level members

end

def pretty (value : Json) : String :=
  prettyAt 0 value

end Json

end TemplateMessages
