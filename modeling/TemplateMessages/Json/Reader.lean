import TemplateMessages.Json.Value
import TemplateMessages.Text.Rest
import TemplateMessages.Text.Span

set_option autoImplicit false

/-!
# Reading JSON

A reader gives what it read and the rest of the text, with the proof that something was read. A
failure says how many bytes of the text are still ahead, from which an `Error` gets its line and
its column; columns count bytes.
-/

namespace TemplateMessages.Json

open TemplateMessages.Number (Binary64 Decimal)
open TemplateMessages.Text (Rest Shorter byteLength firstBehind?)

inductive Fault where
  | endInList
  | endInObject
  | endInString
  | endInValue
  | expectedColon
  | expectedListEnd
  | expectedObjectEnd
  | expectedWord
  | expectedValue
  | invalidEscape
  | invalidNumber
  | numberOutOfRange
  | controlCharacter
  | keyNotString
  | loneSurrogate
  | unfinishedSurrogatePair
  | trailingComma
  | trailingCharacters
  | tooDeep
  deriving DecidableEq, Repr, Inhabited

def Fault.message : Fault → String
  | endInList => "EOF while parsing a list"
  | endInObject => "EOF while parsing an object"
  | endInString => "EOF while parsing a string"
  | endInValue => "EOF while parsing a value"
  | expectedColon => "expected `:`"
  | expectedListEnd => "expected `,` or `]`"
  | expectedObjectEnd => "expected `,` or `\x7d`"
  | expectedWord => "expected ident"
  | expectedValue => "expected value"
  | invalidEscape => "invalid escape"
  | invalidNumber => "invalid number"
  | numberOutOfRange => "number out of range"
  | controlCharacter => "control character (\\u0000-\\u001F) found while parsing a string"
  | keyNotString => "key must be a string"
  | loneSurrogate => "lone leading surrogate in hex escape"
  | unfinishedSurrogatePair => "unexpected end of hex escape"
  | trailingComma => "trailing comma"
  | trailingCharacters => "trailing characters"
  | tooDeep => "recursion limit exceeded"

structure Stop where
  fault : Fault
  remaining : Nat
  deriving DecidableEq, Repr, Inhabited

def stopAt (fault : Fault) (rest : List Char) : Stop :=
  ⟨fault, byteLength rest⟩

def stopPast (fault : Fault) (rest : List Char) : Stop :=
  ⟨fault, byteLength rest - 1⟩

abbrev Reading (α : Type) (text : List Char) : Type :=
  Except Stop (α × Shorter text)

abbrev Following (text : List Char) : Type :=
  Except Stop (Json × Rest text)

def isSpace (c : Char) : Bool :=
  c == ' ' || c == '\n' || c == '\t' || c == '\r'

def skipSpace (text : List Char) : List Char :=
  text.dropWhile isSpace

def firstSolid? (text : List Char) : Option (Char × Shorter text) :=
  firstBehind? isSpace text

def hexValue? (c : Char) : Option Nat :=
  if c.isDigit then some (c.toNat - '0'.toNat)
  else if 'a' ≤ c ∧ c ≤ 'f' then some (c.toNat - 'a'.toNat + 10)
  else if 'A' ≤ c ∧ c ≤ 'F' then some (c.toNat - 'A'.toNat + 10)
  else none

def readHex4 (text : List Char) : Reading Nat text :=
  if byteLength text < 4 then .error ⟨.endInString, 0⟩
  else
    match text with
    | a :: b :: c :: d :: rest =>
      let behind := (((Shorter.tail d rest).past c).past b).past a
      match hexValue? a, hexValue? b, hexValue? c, hexValue? d with
      | some a, some b, some c, some d =>
        .ok (((a * 16 + b) * 16 + c) * 16 + d, behind)
      | _, _, _, _ => .error ⟨.invalidEscape, byteLength text - 4⟩
    | _ => .error ⟨.invalidEscape, byteLength text - 4⟩

/-- The character that stands behind a backslash and `u`. A character beyond 16 bits is written as
two escapes, a leading surrogate and a trailing one. -/
def readUnicodeEscape (text : List Char) : Reading Char text :=
  match readHex4 text with
  | .error stop => .error stop
  | .ok (unit, ⟨rest, h⟩) =>
    if 0xDC00 ≤ unit ∧ unit ≤ 0xDFFF then .error (stopAt .loneSurrogate rest)
    else if unit < 0xD800 ∨ 0xDBFF < unit then .ok (Char.ofNat unit, ⟨rest, h⟩)
    else
      match rest with
      | [] => .error (stopAt .endInString [])
      | '\\' :: [] => .error (stopAt .endInString [])
      | '\\' :: 'u' :: more =>
        match readHex4 more with
        | .error stop => .error stop
        | .ok (trailing, after) =>
          if trailing < 0xDC00 ∨ 0xDFFF < trailing then .error (stopAt .loneSurrogate after.val)
          else
            .ok (Char.ofNat ((unit - 0xD800) * 0x400 + (trailing - 0xDC00) + 0x10000),
              ((after.past 'u').past '\\').inside h)
      | '\\' :: more => .error (stopPast .unfinishedSurrogatePair more)
      | rest => .error (stopPast .unfinishedSurrogatePair rest)

def readEscape (text : List Char) : Reading Char text :=
  match text with
  | [] => .error (stopAt .endInString [])
  | e :: rest =>
    let simple (c : Char) : Reading Char (e :: rest) := .ok (c, .tail e rest)
    if e = '\x22' ∨ e = '\\' ∨ e = '/' then simple e
    else if e = 'b' then simple '\x08'
    else if e = 'f' then simple '\x0c'
    else if e = 'n' then simple '\n'
    else if e = 'r' then simple '\r'
    else if e = 't' then simple '\t'
    else if e = 'u' then
      match readUnicodeEscape rest with
      | .error stop => .error stop
      | .ok (c, after) => .ok (c, after.past e)
    else .error (stopPast .invalidEscape (e :: rest))

def readStringBody (text : List Char) : Reading (List Char) text :=
  match text with
  | [] => .error (stopAt .endInString [])
  | c :: cs =>
    if c = '\x22' then .ok ([], .tail c cs)
    else if c = '\\' then
      match readEscape cs with
      | .error stop => .error stop
      | .ok (d, ⟨rest, h⟩) =>
        match readStringBody rest with
        | .error stop => .error stop
        | .ok (value, after) => .ok (d :: value, (after.inside h).past c)
    else if c.toNat < 0x20 then .error (stopAt .controlCharacter cs)
    else
      match readStringBody cs with
      | .error stop => .error stop
      | .ok (value, after) => .ok (c :: value, after.past c)
termination_by text.length
decreasing_by
  · exact Nat.lt_succ_of_lt h
  · exact Nat.lt_succ_self _

def greatestSignificand : Nat := 0xFFFFFFFFFFFFFFFF

/-- Take more digits into a significand for as long as it stays exact: the significand and how many
digits were left over. -/
def extendSignificand (significand : Nat) : List Char → Nat × Nat
  | [] => (significand, 0)
  | d :: digits =>
    let next := significand * 10 + (d.toNat - '0'.toNat)
    if greatestSignificand < next then (significand, digits.length + 1)
    else extendSignificand next digits

def powerOfTen (exponent : Nat) : Binary64 :=
  Binary64.ofDecimal false 1 exponent

/-- `significand * 10 ^ exponent` in at most three roundings: that of the significand, and one for
each multiplication or division by a power of ten up to `10 ^ 308`. Nothing when it is out of
range. -/
def scaled? (significand : Nat) (exponent : Int) : Option Binary64 :=
  let number := Binary64.ofNat significand
  if 0 ≤ exponent then
    if exponent ≤ 308 then
      let product := number.mul (powerOfTen exponent.toNat)
      if product.isFinite then some product else none
    else if number.isZero then some number
    else none
  else if -308 ≤ exponent then some (number.div (powerOfTen (-exponent).toNat))
  else if -616 ≤ exponent then
    some ((number.div (powerOfTen 308)).div (powerOfTen (-exponent - 308).toNat))
  else some .zero

def signedFloat {text : List Char} (positive : Bool) (significand : Nat) (exponent : Int)
    (rest : Rest text) : Following text :=
  match scaled? significand exponent with
  | some number => .ok (.float (if positive then number else number.neg), rest)
  | none => .error (stopAt .numberOutOfRange rest.val)

def readDigits (text : List Char) : List Char × Rest text :=
  (text.takeWhile Char.isDigit, .dropWhile Char.isDigit text)

def readExponentSign (text : List Char) : Bool × Rest text :=
  match text with
  | '+' :: rest => (false, (Rest.whole rest).behind '+')
  | '-' :: rest => (true, (Rest.whole rest).behind '-')
  | rest => (false, .whole rest)

/-- The number of leading digits that make an exponent of 32 bits, and the exponent; nothing of the
exponent when it does not fit. -/
def exponentValue (value : Nat) : (digits : List Char) → Nat × Option Nat
  | [] => (0, some value)
  | d :: digits =>
    let next := value * 10 + (d.toNat - '0'.toNat)
    if 0x7FFFFFFF < next then (1, none)
    else
      let (count, exponent) := exponentValue next digits
      (count + 1, exponent)

def readExponent (positive : Bool) (significand : Nat) (exponent : Int) (text : List Char) :
    Following text :=
  let (negative, ⟨unsigned, h⟩) := readExponentSign text
  let (digits, rest) := readDigits unsigned
  match digits with
  | [] =>
    match rest.val with
    | [] => .error (stopAt .endInValue [])
    | c :: cs => .error (stopPast .invalidNumber (c :: cs))
  | digits =>
    match exponentValue 0 digits with
    | (_, some value) =>
      signedFloat positive significand (if negative then exponent - value else exponent + value)
        (rest.within h)
    | (count, none) =>
      if significand ≠ 0 ∧ !negative then
        .error (stopAt .numberOutOfRange (unsigned.drop count))
      else .ok (.float (.finite (!positive) 0 0), rest.within h)

def readFloatEnd (positive : Bool) (significand : Nat) (exponent : Int) (text : List Char) :
    Following text :=
  match text with
  | [] => signedFloat positive significand exponent (.whole [])
  | c :: cs =>
    if c = 'e' ∨ c = 'E' then
      match readExponent positive significand exponent cs with
      | .error stop => .error stop
      | .ok (value, rest) => .ok (value, rest.behind c)
    else signedFloat positive significand exponent (.whole (c :: cs))

def readFraction (positive : Bool) (significand : Nat) (exponent : Int) (text : List Char) :
    Following text :=
  let (digits, ⟨rest, h⟩) := readDigits text
  if digits.isEmpty then
    .error (stopPast (if rest.isEmpty then .endInValue else .invalidNumber) rest)
  else
    let (extended, left) := extendSignificand significand digits
    match readFloatEnd positive extended (exponent - ((digits.length - left : Nat) : Int)) rest with
    | .error stop => .error stop
    | .ok (value, after) => .ok (value, after.within h)

def integerValue (positive : Bool) (significand : Nat) : Json :=
  if positive then .integer significand
  else if 0 < significand ∧ significand ≤ 0x8000000000000000 then .integer (-(significand : Int))
  else .float (Binary64.ofNat significand).neg

def readNumberEnd (positive : Bool) (significand left : Nat) (text : List Char) : Following text :=
  match text with
  | [] =>
    if left = 0 then .ok (integerValue positive significand, .whole [])
    else signedFloat positive significand left (.whole [])
  | c :: cs =>
    if c = '.' then
      match readFraction positive significand left cs with
      | .error stop => .error stop
      | .ok (value, rest) => .ok (value, rest.behind c)
    else if c = 'e' ∨ c = 'E' ∨ left ≠ 0 then readFloatEnd positive significand left (c :: cs)
    else .ok (integerValue positive significand, .whole (c :: cs))

/-- A number that starts with the digit `d`. A zero is alone in front of the point. -/
def readNumberFrom (positive : Bool) (d : Char) (text : List Char) : Following text :=
  if d = '0' then
    match text with
    | [] => readNumberEnd positive 0 0 []
    | c :: cs =>
      if c.isDigit then .error (stopPast .invalidNumber (c :: cs))
      else readNumberEnd positive 0 0 (c :: cs)
  else
    let (digits, ⟨rest, h⟩) := readDigits text
    let (significand, left) := extendSignificand 0 (d :: digits)
    match readNumberEnd positive significand left rest with
    | .error stop => .error stop
    | .ok (value, after) => .ok (value, after.within h)

def readNegative (text : List Char) : Following text :=
  match text with
  | [] => .error (stopAt .endInValue [])
  | d :: more =>
    if d.isDigit then
      match readNumberFrom false d more with
      | .error stop => .error stop
      | .ok (value, rest) => .ok (value, rest.behind d)
    else .error (stopPast .invalidNumber (d :: more))

def readWord (word : List Char) (value : Json) (text : List Char) : Following text :=
  match word, text with
  | [], rest => .ok (value, .whole rest)
  | _ :: _, [] => .error (stopAt .endInValue [])
  | w :: ws, c :: cs =>
    if c = w then
      match readWord ws value cs with
      | .error stop => .error stop
      | .ok (value, rest) => .ok (value, rest.behind c)
    else .error (stopPast .expectedWord (c :: cs))

def readScalar (c : Char) (text : List Char) : Following text :=
  if c = 'n' then readWord "ull".toList .null text
  else if c = 't' then readWord "rue".toList (.bool true) text
  else if c = 'f' then readWord "alse".toList (.bool false) text
  else if c = '-' then readNegative text
  else if c.isDigit then readNumberFrom true c text
  else if c = '\x22' then
    match readStringBody text with
    | .error stop => .error stop
    | .ok (value, rest) => .ok (.string (String.ofList value), rest.toRest)
  else .error (stopPast .expectedValue (c :: text))

def readColon (text : List Char) : Reading Unit text :=
  match firstSolid? text with
  | none => .error (stopPast .endInObject [])
  | some (c, rest) =>
    if c = ':' then .ok ((), rest) else .error (stopPast .expectedColon (c :: rest.val))

def depthLimit : Nat := 128

inductive More (text : List Char) where
  | close (rest : Shorter text)
  | next (rest : Rest text)

/-- Whether a list goes on; behind an item there is a comma or the bracket. -/
def moreItems (first : Bool) (text : List Char) : Except Stop (More text) :=
  match firstSolid? text with
  | none => .error (stopPast .endInList [])
  | some (c, ⟨cs, h⟩) =>
    if c = ']' then .ok (.close ⟨cs, h⟩)
    else if first then .ok (.next (Shorter.withHead c ⟨cs, h⟩))
    else if c = ',' then
      match firstSolid? cs with
      | none => .error (stopPast .endInValue [])
      | some (d, rest) =>
        if d = ']' then .error (stopPast .trailingComma (d :: rest.val))
        else .ok (.next (Rest.inside (rest.withHead d) h).toRest)
    else .error (stopPast .expectedListEnd (c :: cs))

/-- Whether an object goes on, the rest then being behind the quote of a name. -/
def moreMembers (first : Bool) (text : List Char) : Except Stop (More text) :=
  match firstSolid? text with
  | none => .error (stopPast .endInObject [])
  | some (c, ⟨cs, h⟩) =>
    if c = '\x7d' then .ok (.close ⟨cs, h⟩)
    else if first then
      if c = '\x22' then .ok (.next (Shorter.toRest ⟨cs, h⟩))
      else .error (stopPast .keyNotString (c :: cs))
    else if c = ',' then
      match firstSolid? cs with
      | none => .error (stopPast .endInValue [])
      | some (d, rest) =>
        if d = '\x22' then .ok (.next (rest.inside h).toRest)
        else if d = '\x7d' then .error (stopPast .trailingComma (d :: rest.val))
        else .error (stopPast .keyNotString (d :: rest.val))
    else .error (stopPast .expectedObjectEnd (c :: cs))

mutual

def readValue (depth : Nat) (text : List Char) : Reading Json text :=
  match firstSolid? text with
  | none => .error (stopPast .endInValue [])
  | some (c, ⟨cs, h⟩) =>
    if c = '[' ∨ c = '\x7b' then
      match depth with
      | 0 => .error (stopPast .tooDeep (c :: cs))
      | 1 => .error (stopPast .tooDeep (c :: cs))
      | inner + 1 =>
        if c = '[' then
          match readItems inner true [] cs with
          | .error stop => .error stop
          | .ok (items, rest) => .ok (.array items, rest.inside h)
        else
          match readMembers inner true [] cs with
          | .error stop => .error stop
          | .ok (members, rest) => .ok (.object members, rest.inside h)
    else
      match readScalar c cs with
      | .error stop => .error stop
      | .ok (value, rest) => .ok (value, rest.inside h)
termination_by 2 * text.length
decreasing_by all_goals omega

def readItems (depth : Nat) (first : Bool) (items : List Json) (text : List Char) :
    Reading (List Json) text :=
  match moreItems first text with
  | .error stop => .error stop
  | .ok (.close rest) => .ok (items, rest)
  | .ok (.next ⟨start, h⟩) =>
    match readValue depth start with
    | .error stop => .error stop
    | .ok (item, ⟨rest, h'⟩) =>
      match readItems depth false (items ++ [item]) rest with
      | .error stop => .error stop
      | .ok (all, after) => .ok (all, (after.inside h').within h)
termination_by 2 * text.length + 1
decreasing_by all_goals omega

def readMembers (depth : Nat) (first : Bool) (members : List (String × Json)) (text : List Char) :
    Reading (List (String × Json)) text :=
  match moreMembers first text with
  | .error stop => .error stop
  | .ok (.close rest) => .ok (members, rest)
  | .ok (.next ⟨start, h⟩) =>
    match readStringBody start with
    | .error stop => .error stop
    | .ok (name, ⟨afterName, hname⟩) =>
      match readColon afterName with
      | .error stop => .error stop
      | .ok (_, ⟨afterColon, hcolon⟩) =>
        match readValue depth afterColon with
        | .error stop => .error stop
        | .ok (value, ⟨rest, h'⟩) =>
          match readMembers depth false (Table.put members (String.ofList name) value) rest with
          | .error stop => .error stop
          | .ok (all, after) =>
            .ok (all, (((after.inside h').inside hcolon).inside hname).within h)
termination_by 2 * text.length + 1
decreasing_by all_goals omega

end

/-- Where a byte position is: the line, counted from one, and the bytes of it in front. -/
def lineAndColumn (line column : Nat) : (position : Nat) → List Char → Nat × Nat
  | 0, _ => (line, column)
  | position + 1, [] => (line, column + (position + 1))
  | position + 1, c :: cs =>
    if c = '\n' then lineAndColumn (line + 1) 0 position cs
    else if position + 1 < c.utf8Size then (line, column + (position + 1))
    else lineAndColumn line (column + c.utf8Size) (position + 1 - c.utf8Size) cs

structure Error where
  fault : Fault
  line : Nat
  column : Nat
  deriving DecidableEq, Repr, Inhabited

def placeText (line column : Nat) : String :=
  " at line " ++ toString line ++ " column " ++ toString column

def Error.message (error : Error) : String :=
  error.fault.message ++ placeText error.line error.column

def placeOf (source : List Char) (remaining : Nat) : Nat × Nat :=
  lineAndColumn 1 0 (byteLength source - remaining) source

def Stop.locate (stop : Stop) (source : List Char) : Error :=
  let (line, column) := placeOf source stop.remaining
  ⟨stop.fault, line, column⟩

/-- The whole text as one value. -/
def parse (source : List Char) : Except Error Json :=
  match readValue depthLimit source with
  | .error stop => .error (stop.locate source)
  | .ok (value, ⟨rest, _⟩) =>
    match skipSpace rest with
    | [] => .ok value
    | c :: cs => .error ((stopPast .trailingCharacters (c :: cs)).locate source)

end TemplateMessages.Json
