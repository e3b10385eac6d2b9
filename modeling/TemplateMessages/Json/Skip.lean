import TemplateMessages.Json.Reader

set_option autoImplicit false

/-!
# Passing over JSON

A value that nobody asks for is passed over. Its brackets may nest without a limit, and its strings
may hold escapes of any surrogates.
-/

namespace TemplateMessages.Json

open TemplateMessages.Text (Rest Shorter)

abbrev Skipping (text : List Char) : Type :=
  Except Stop (Rest text)

def skipDigits (text : List Char) : Rest text :=
  (readDigits text).2

def skipExponent (text : List Char) : Skipping text :=
  let (_, ⟨unsigned, h⟩) := readExponentSign text
  match unsigned with
  | [] => .error (stopPast .invalidNumber [])
  | d :: more =>
    if d.isDigit then .ok (((skipDigits more).behind d).within h)
    else .error (stopPast .invalidNumber (d :: more))

def skipFloatEnd (text : List Char) : Skipping text :=
  match text with
  | [] => .ok (.whole [])
  | c :: cs =>
    if c = 'e' ∨ c = 'E' then (skipExponent cs).map fun rest => rest.behind c
    else .ok (.whole (c :: cs))

def skipNumberEnd (text : List Char) : Skipping text :=
  match text with
  | '.' :: cs =>
    let (digits, ⟨rest, h⟩) := readDigits cs
    if digits.isEmpty then .error (stopPast .invalidNumber rest)
    else (skipFloatEnd rest).map fun after => (after.within h).behind '.'
  | rest => skipFloatEnd rest

/-- Pass over a number that starts with the digit `d`. A zero is alone in front of the point. -/
def skipNumberFrom (d : Char) (text : List Char) : Skipping text :=
  if d = '0' then
    match text with
    | [] => .ok (.whole [])
    | c :: cs =>
      if c.isDigit then .error (stopPast .invalidNumber (c :: cs)) else skipNumberEnd (c :: cs)
  else
    let ⟨rest, h⟩ := skipDigits text
    (skipNumberEnd rest).map fun after => after.within h

def skipNegative (text : List Char) : Skipping text :=
  match text with
  | [] => .error (stopPast .invalidNumber [])
  | d :: more =>
    if d.isDigit then (skipNumberFrom d more).map fun rest => rest.behind d
    else .error (stopPast .invalidNumber (d :: more))

def skipEscape (text : List Char) : Reading Unit text :=
  match text with
  | [] => .error (stopAt .endInString [])
  | e :: rest =>
    if e = 'u' then
      match readHex4 rest with
      | .error stop => .error stop
      | .ok (_, after) => .ok ((), after.past e)
    else if ['\x22', '\\', '/', 'b', 'f', 'n', 'r', 't'].contains e then
      .ok ((), .tail e rest)
    else .error (stopPast .invalidEscape (e :: rest))

def skipStringBody (text : List Char) : Reading Unit text :=
  match text with
  | [] => .error (stopAt .endInString [])
  | c :: cs =>
    if c = '\x22' then .ok ((), .tail c cs)
    else if c = '\\' then
      match skipEscape cs with
      | .error stop => .error stop
      | .ok (_, ⟨rest, h⟩) =>
        match skipStringBody rest with
        | .error stop => .error stop
        | .ok (_, after) => .ok ((), (after.inside h).past c)
    else if c.toNat < 0x20 then .error (stopAt .controlCharacter (c :: cs))
    else
      match skipStringBody cs with
      | .error stop => .error stop
      | .ok (_, after) => .ok ((), after.past c)
termination_by text.length
decreasing_by
  · exact Nat.lt_succ_of_lt h
  · exact Nat.lt_succ_self _

def skipScalar (c : Char) (text : List Char) : Skipping text :=
  if c = 'n' then (readWord "ull".toList .null text).map (·.2)
  else if c = 't' then (readWord "rue".toList .null text).map (·.2)
  else if c = 'f' then (readWord "alse".toList .null text).map (·.2)
  else if c = '-' then skipNegative text
  else if c.isDigit then skipNumberFrom c text
  else if c = '\x22' then
    (skipStringBody text).map fun (_, rest) => rest.toRest
  else .error (stopPast .expectedValue (c :: text))

/-- Whether a list that is passed over goes on. Behind a comma there has to be a value. -/
def moreSkippedItems (first : Bool) (text : List Char) : Except Stop (More text) :=
  match firstSolid? text with
  | none => .error (stopPast .endInList [])
  | some (c, rest) =>
    if c = ']' then .ok (.close rest)
    else if first then .ok (.next (rest.withHead c))
    else if c = ',' then .ok (.next rest.toRest)
    else .error (stopPast .expectedListEnd (c :: rest.val))

def nameStart {text : List Char} (c : Char) (rest : Shorter text) : Except Stop (More text) :=
  if c = '\x22' then .ok (.next rest.toRest)
  else .error (stopPast .keyNotString (c :: rest.val))

/-- Whether an object that is passed over goes on, the rest then being behind the quote of a
name. -/
def moreSkippedMembers (first : Bool) (text : List Char) : Except Stop (More text) :=
  match firstSolid? text with
  | none => .error (stopPast .endInObject [])
  | some (c, ⟨cs, h⟩) =>
    if c = '\x7d' then .ok (.close ⟨cs, h⟩)
    else if first then nameStart c ⟨cs, h⟩
    else if c = ',' then
      match firstSolid? cs with
      | none => .error (stopPast .endInObject [])
      | some (d, rest) => nameStart d (rest.inside h)
    else .error (stopPast .expectedObjectEnd (c :: cs))

mutual

def skipValue (text : List Char) : Reading Unit text :=
  match firstSolid? text with
  | none => .error (stopPast .endInValue [])
  | some (c, ⟨cs, h⟩) =>
    if c = '[' then
      match skipItems true cs with
      | .error stop => .error stop
      | .ok (_, rest) => .ok ((), rest.inside h)
    else if c = '\x7b' then
      match skipMembers true cs with
      | .error stop => .error stop
      | .ok (_, rest) => .ok ((), rest.inside h)
    else
      match skipScalar c cs with
      | .error stop => .error stop
      | .ok rest => .ok ((), rest.inside h)
termination_by 2 * text.length
decreasing_by all_goals omega

def skipItems (first : Bool) (text : List Char) : Reading Unit text :=
  match moreSkippedItems first text with
  | .error stop => .error stop
  | .ok (.close rest) => .ok ((), rest)
  | .ok (.next ⟨start, h⟩) =>
    match skipValue start with
    | .error stop => .error stop
    | .ok (_, ⟨rest, h'⟩) =>
      match skipItems false rest with
      | .error stop => .error stop
      | .ok (_, after) => .ok ((), (after.inside h').within h)
termination_by 2 * text.length + 1
decreasing_by all_goals omega

def skipMembers (first : Bool) (text : List Char) : Reading Unit text :=
  match moreSkippedMembers first text with
  | .error stop => .error stop
  | .ok (.close rest) => .ok ((), rest)
  | .ok (.next ⟨start, h⟩) =>
    match skipStringBody start with
    | .error stop => .error stop
    | .ok (_, ⟨afterName, hname⟩) =>
      match readColon afterName with
      | .error stop => .error stop
      | .ok (_, ⟨afterColon, hcolon⟩) =>
        match skipValue afterColon with
        | .error stop => .error stop
        | .ok (_, ⟨rest, h'⟩) =>
          match skipMembers false rest with
          | .error stop => .error stop
          | .ok (_, after) => .ok ((), (((after.inside h').inside hcolon).inside hname).within h)
termination_by 2 * text.length + 1
decreasing_by all_goals omega

end

end TemplateMessages.Json
