import TemplateMessages.Json.Skip
import TemplateMessages.Text.Shown

set_option autoImplicit false

/-!
# Reading JSON of an expected form

Here a text is read straight into a value of a known form, and a value of another form is refused
where it stands. A record is written as an object, whose unknown members are passed over, or as a
list with the values of its fields in their order; a field that is left out keeps its default.
-/

namespace TemplateMessages.Json

open TemplateMessages.Text (Rest Shorter byteLength shown)

/-- What stands where something else was expected. -/
inductive Found where
  | scalar (value : Json)
  | list
  | object
  deriving Repr, Inhabited

def Found.description : Found → String
  | scalar .null => "null"
  | scalar (.bool value) => "boolean `" ++ (Json.bool value).compact ++ "`"
  | scalar (.integer value) => "integer `" ++ (Json.integer value).compact ++ "`"
  | scalar (.float value) => "floating point `" ++ (Json.float value).compact ++ "`"
  | scalar (.string value) => "string " ++ shown value
  | scalar (.array _) => "sequence"
  | scalar (.object _) => "map"
  | list => "sequence"
  | object => "map"

inductive Complaint where
  | malformed (fault : Fault)
  | unexpected (found : Found) (expected : String)
  | unknownChoice (choice : String) (choices : List String)
  | repeatedField (name : String)
  deriving Repr, Inhabited

def choiceList (choices : List String) : String :=
  let quoted := choices.map fun choice => "`" ++ choice ++ "`"
  match quoted with
  | [first, second] => first ++ " or " ++ second
  | [only] => only
  | _ => "one of " ++ String.intercalate ", " quoted

def Complaint.message : Complaint → String
  | malformed fault => fault.message
  | unexpected found expected =>
    "invalid type: " ++ found.description ++ ", expected " ++ expected
  | unknownChoice choice choices =>
    "unknown variant `" ++ choice ++ "`, expected " ++ choiceList choices
  | repeatedField name => "duplicate field `" ++ name ++ "`"

structure Refusal where
  complaint : Complaint
  remaining : Nat
  deriving Repr, Inhabited

def Stop.refusal (stop : Stop) : Refusal :=
  ⟨.malformed stop.fault, stop.remaining⟩

abbrev Expecting (α : Type) (text : List Char) : Type :=
  Except Refusal (α × Shorter text)

/-- Refuse the value that starts with `c`. A list or an object is blamed at its bracket, any other
value at its end. -/
def refuse (expected : String) (c : Char) (text : List Char) : Refusal :=
  if c = '[' then ⟨.unexpected .list expected, byteLength (c :: text)⟩
  else if c = '\x7b' then ⟨.unexpected .object expected, byteLength (c :: text)⟩
  else
    match readScalar c text with
    | .error stop => stop.refusal
    | .ok (value, ⟨rest, _⟩) => ⟨.unexpected (.scalar value) expected, byteLength rest⟩

def expecting {α : Type} {text : List Char}
    (read : (c : Char) → (cs : List Char) → cs.length < text.length → Expecting α text) :
    Expecting α text :=
  match firstSolid? text with
  | none => .error (stopPast .endInValue []).refusal
  | some (c, ⟨cs, h⟩) => read c cs h

def stringInside {text cs : List Char} (h : cs.length < text.length) : Expecting String text :=
  match readStringBody cs with
  | .error stop => .error stop.refusal
  | .ok (value, rest) => .ok (String.ofList value, rest.inside h)

def expectString (expected : String) (text : List Char) : Expecting String text :=
  expecting fun c cs h =>
    if c = '\x22' then stringInside h else .error (refuse expected c cs)

def expectText (text : List Char) : Expecting String text :=
  expectString "a string" text

def expectBool (text : List Char) : Expecting Bool text :=
  expecting fun c cs h =>
    let word (letters : List Char) (value : Bool) : Expecting Bool text :=
      match readWord letters .null cs with
      | .error stop => .error stop.refusal
      | .ok (_, rest) => .ok (value, rest.inside h)
    if c = 't' then word "rue".toList true
    else if c = 'f' then word "alse".toList false
    else .error (refuse "a boolean" c cs)

def expectNull (text : List Char) : Expecting Unit text :=
  expecting fun c cs h =>
    if c = 'n' then
      match readWord "ull".toList .null cs with
      | .error stop => .error stop.refusal
      | .ok (_, rest) => .ok ((), rest.inside h)
    else .error (refuse "unit" c cs)

/-- The value that a name chooses; the name ends in front of `rest`. -/
def chosen {α : Type} (choices : Table α) (name : String) (rest : List Char) : Except Refusal α :=
  match choices.get? name with
  | some value => .ok value
  | none => .error ⟨.unknownChoice name (choices.map (·.1)), byteLength rest⟩

/-- One of some choices, written as its name or as an object with the name for its only member and
nothing in it. -/
def expectChoice {α : Type} (choices : Table α) (text : List Char) : Expecting α text :=
  expecting fun c cs h =>
    if c = '\x22' then
      match stringInside h with
      | .error refusal => .error refusal
      | .ok (name, rest) => (chosen choices name rest.val).map fun value => (value, rest)
    else if c = '\x7b' then
      match expectString "variant identifier" cs with
      | .error refusal => .error refusal
      | .ok (name, ⟨afterName, hname⟩) =>
        match chosen choices name afterName with
        | .error refusal => .error refusal
        | .ok value =>
          match readColon afterName with
          | .error stop => .error stop.refusal
          | .ok (_, ⟨afterColon, hcolon⟩) =>
            match expectNull afterColon with
            | .error refusal => .error refusal
            | .ok (_, ⟨afterNull, hnull⟩) =>
              match firstSolid? afterNull with
              | none => .error (stopAt .endInObject []).refusal
              | some (d, rest) =>
                if d = '\x7d' then
                  .ok (value, (((rest.inside hnull).inside hcolon).inside hname).inside h)
                else .error (stopAt .expectedValue (d :: rest.val)).refusal
    else .error (stopPast .expectedValue (c :: cs)).refusal

def expectTextItems (first : Bool) (text : List Char) : Expecting (List String) text :=
  match moreItems first text with
  | .error stop => .error stop.refusal
  | .ok (.close rest) => .ok ([], rest)
  | .ok (.next ⟨start, h⟩) =>
    match expectText start with
    | .error refusal => .error refusal
    | .ok (item, ⟨rest, h'⟩) =>
      match expectTextItems false rest with
      | .error refusal => .error refusal
      | .ok (items, after) => .ok (item :: items, (after.inside h').within h)
termination_by text.length
decreasing_by exact Nat.lt_of_lt_of_le h' h

def expectTexts (text : List Char) : Expecting (List String) text :=
  expecting fun c cs h =>
    if c = '[' then
      match expectTextItems true cs with
      | .error refusal => .error refusal
      | .ok (items, rest) => .ok (items, rest.inside h)
    else .error (refuse "a sequence" c cs)

/-- The members of an object up to its brace, each of which holds a choice, after those already
read. -/
def expectChoiceMembers {α : Type} (choices : Table α) (first : Bool) (found : Table α)
    (text : List Char) : Expecting (Table α) text :=
  match moreMembers first text with
  | .error stop => .error stop.refusal
  | .ok (.close rest) => .ok (found, rest)
  | .ok (.next ⟨start, h⟩) =>
    match readStringBody start with
    | .error stop => .error stop.refusal
    | .ok (name, ⟨afterName, hname⟩) =>
      match readColon afterName with
      | .error stop => .error stop.refusal
      | .ok (_, ⟨afterColon, hcolon⟩) =>
        match expectChoice choices afterColon with
        | .error refusal => .error refusal
        | .ok (value, ⟨rest, h'⟩) =>
          match expectChoiceMembers choices false (found.put (String.ofList name) value) rest with
          | .error refusal => .error refusal
          | .ok (all, after) =>
            .ok (all, (((after.inside h').inside hcolon).inside hname).within h)
termination_by text.length
decreasing_by
  exact Nat.lt_of_lt_of_le (Nat.lt_trans (Nat.lt_trans h' hcolon) hname) h

def expectChoiceTable {α : Type} (choices : Table α) (text : List Char) :
    Expecting (Table α) text :=
  expecting fun c cs h =>
    if c = '\x7b' then
      match expectChoiceMembers choices true [] cs with
      | .error refusal => .error refusal
      | .ok (table, rest) => .ok (table, rest.inside h)
    else .error (refuse "a map" c cs)

structure Field (σ : Type) where
  name : String
  read : σ → (text : List Char) → Expecting σ text

def expectListEnd {σ : Type} (record : σ) (text : List Char) : Expecting σ text :=
  match firstSolid? text with
  | none => .error (stopPast .endInList []).refusal
  | some (c, after) =>
    if c = ']' then .ok (record, after)
    else if c = ',' then
      let rest := skipSpace after.val
      .error (stopPast (if rest.head? = some ']' then .trailingComma else .trailingCharacters)
        rest).refusal
    else .error (stopPast .trailingCharacters (c :: after.val)).refusal

def expectFieldItems {σ : Type} (first : Bool) (record : σ) (fields : List (Field σ))
    (text : List Char) : Expecting σ text :=
  match fields with
  | [] => expectListEnd record text
  | field :: fields =>
    match moreItems first text with
    | .error stop => .error stop.refusal
    | .ok (.close rest) => .ok (record, rest)
    | .ok (.next ⟨start, h⟩) =>
      match field.read record start with
      | .error refusal => .error refusal
      | .ok (record, ⟨rest, h'⟩) =>
        match expectFieldItems false record fields rest with
        | .error refusal => .error refusal
        | .ok (record, after) => .ok (record, (after.inside h').within h)

/-- A second member of one name is blamed behind the white space that follows the name, and behind
the brace that may stand there. -/
def repeatedField (name : String) (rest : List Char) : Refusal :=
  match skipSpace rest with
  | [] => ⟨.repeatedField name, 0⟩
  | c :: cs => ⟨.repeatedField name, byteLength (if c = '\x7d' then cs else c :: cs)⟩

def expectFieldMembers {σ : Type} (first : Bool) (seen : List String) (record : σ)
    (fields : List (Field σ)) (text : List Char) : Expecting σ text :=
  match moreMembers first text with
  | .error stop => .error stop.refusal
  | .ok (.close rest) => .ok (record, rest)
  | .ok (.next ⟨start, h⟩) =>
    match readStringBody start with
    | .error stop => .error stop.refusal
    | .ok (nameChars, ⟨afterName, hname⟩) =>
      let name := String.ofList nameChars
      match fields.find? (·.name = name) with
      | none =>
        match readColon afterName with
        | .error stop => .error stop.refusal
        | .ok (_, ⟨afterColon, hcolon⟩) =>
          match skipValue afterColon with
          | .error stop => .error stop.refusal
          | .ok (_, ⟨rest, h'⟩) =>
            match expectFieldMembers false seen record fields rest with
            | .error refusal => .error refusal
            | .ok (record, after) =>
              .ok (record, (((after.inside h').inside hcolon).inside hname).within h)
      | some field =>
        if seen.contains name then .error (repeatedField name afterName)
        else
          match readColon afterName with
          | .error stop => .error stop.refusal
          | .ok (_, ⟨afterColon, hcolon⟩) =>
            match field.read record afterColon with
            | .error refusal => .error refusal
            | .ok (record, ⟨rest, h'⟩) =>
              match expectFieldMembers false (name :: seen) record fields rest with
              | .error refusal => .error refusal
              | .ok (record, after) =>
                .ok (record, (((after.inside h').inside hcolon).inside hname).within h)
termination_by text.length
decreasing_by
  all_goals exact Nat.lt_of_lt_of_le (Nat.lt_trans (Nat.lt_trans h' hcolon) hname) h

def expectRecord {σ : Type} (expected : String) (record : σ) (fields : List (Field σ))
    (text : List Char) : Expecting σ text :=
  expecting fun c cs h =>
    if c = '[' then
      match expectFieldItems true record fields cs with
      | .error refusal => .error refusal
      | .ok (record, rest) => .ok (record, rest.inside h)
    else if c = '\x7b' then
      match expectFieldMembers true [] record fields cs with
      | .error refusal => .error refusal
      | .ok (record, rest) => .ok (record, rest.inside h)
    else .error (refuse expected c cs)

structure FormError where
  complaint : Complaint
  line : Nat
  column : Nat
  deriving Repr, Inhabited

def FormError.message (error : FormError) : String :=
  error.complaint.message ++ placeText error.line error.column

def Refusal.locate (refusal : Refusal) (source : List Char) : FormError :=
  let (line, column) := placeOf source refusal.remaining
  ⟨refusal.complaint, line, column⟩

def readWhole {α : Type} (expect : (text : List Char) → Expecting α text) (source : List Char) :
    Except FormError α :=
  match expect source with
  | .error refusal => .error (refusal.locate source)
  | .ok (value, ⟨rest, _⟩) =>
    match skipSpace rest with
    | [] => .ok value
    | c :: cs => .error ((stopPast .trailingCharacters (c :: cs)).refusal.locate source)

end TemplateMessages.Json
