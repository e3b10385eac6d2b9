import TemplateMessages.Fluent.Translation

set_option autoImplicit false

/-!
# The text of a pattern

Where all params are constants a pattern simply has a text: its texts and the printed values of its
placeables in a row. `resolveReference` reads that text off the catalog, without code, without
limits on what is expanded, and with nothing joined or dropped on the way. A reference is followed
to a given depth; a text that is found at one depth is found at every greater one. What a variable
stands for in a message behind a term is left open: an argument of the term, or a param of the
call.
-/

namespace TemplateMessages.Fluent

open TemplateMessages.Expression (objectEntries evaluate)
open TemplateMessages.Number (Binary64)

inductive Constant where
  | text (value : String)
  | number (value : Binary64)
  deriving DecidableEq, Repr

def Constant.printed : Constant → String
  | text value => value
  | number value => value.text

inductive Halt where
  | formatting
  | missing
  | depth
  | leak
  deriving DecidableEq, Repr

/-- Where a pattern is, seen from the call. -/
inductive Place where
  | outside
  | inside (arguments : Table Constant)
  | behind (arguments : Table Constant)
  deriving Repr

namespace Place

def toMessage : Place → Place
  | outside => outside
  | inside arguments => behind arguments
  | behind arguments => behind arguments

def given? : Place → Option (Table Constant)
  | outside => none
  | inside arguments => some arguments
  | behind arguments => some arguments

def held? : Place → Option (Table Constant)
  | outside => none
  | inside arguments => some arguments
  | behind _ => none

end Place

/-- What the text of a pattern depends on besides the pattern. -/
structure Setting where
  catalog : Catalog
  locale : String
  params : Table Constant
  isolating : Bool

namespace Setting

def argumentConstant (arguments : Table Constant) (name : String) : Constant :=
  (arguments.get? name).getD (.text ("\x7b$" ++ name ++ "\x7d"))

variable (setting : Setting)

def variableConstant (arguments : Option (Table Constant)) (name : String) :
    Except Halt Constant :=
  match arguments with
  | some arguments => .ok (argumentConstant arguments name)
  | none => (setting.params.get? name).elim (.error .missing) .ok

/-- Behind a term, its arguments are all that is seen. -/
def isolated (place : Place) (name : String) : Except Halt Constant :=
  setting.variableConstant place.given? name

/-- A message sees the params, also behind a term. -/
def leaking (place : Place) (name : String) : Except Halt Constant :=
  setting.variableConstant place.held? name

/-- Only what a variable stands for both ways. -/
def agreed (place : Place) (name : String) : Except Halt Constant :=
  match place with
  | .behind arguments =>
    if setting.params.get? name = some (argumentConstant arguments name) then
      .ok (argumentConstant arguments name)
    else .error .leak
  | place => setting.isolated place name

def category (number : Binary64) : Option Plural.Category :=
  (Plural.cardinalRules? setting.locale).map fun rules => Plural.Rules.category rules number

/-- A number matches the number keys that are equal to it and the name of its plural category, and a
text matches its name. -/
def selects : Constant → VariantKey → Bool
  | .number number, .number text => (Binary64.ofText? text.toList).any (·.equals number)
  | .number number, .name id => (setting.category number).any (id == ·.name)
  | .text _, .number _ => false
  | .text text, .name id => id == text

end Setting

def placeableText (isolate : Bool) (value : Constant) : String :=
  if isolate then isolateStart ++ value.printed ++ isolateEnd else value.printed

def numeralConstant (text : String) : Constant :=
  (Binary64.ofText? text.toList).elim (.text text) .number

section Resolve

variable (setting : Setting) (look : Place → String → Except Halt Constant)
  (follow : Reference → Place → Except Halt String)

mutual

/-- The constant that an inline expression stands for; `look` gives what variables stand for and
`follow` the texts of references. -/
def resolveInline (place : Place) : Inline → Except Halt Constant
  | .string raw => .ok (.text (String.ofList (unescape raw.toList)))
  | .number text => .ok (numeralConstant text)
  | .variable name => look place name
  | .message id attr => (follow (.message id attr) place.toMessage).map .text
  | .term id attr none => (follow (.term id attr) (.inside [])).map .text
  | .term id attr (some (.mk _ named)) => do
    let given ← resolveNamed place named
    (follow (.term id attr) (.inside (Table.ofList given))).map .text
  | .function name _ => .error (if (formatter? name).isSome then .formatting else .missing)
  | .placeable expression => resolveExpression place expression

def resolveNamed (place : Place) :
    List (String × Inline) → Except Halt (List (String × Constant))
  | [] => .ok []
  | (name, value) :: named => do
    let value ← resolveInline place value
    let given ← resolveNamed place named
    return (name, value) :: given

def resolveExpression (place : Place) : Expression → Except Halt Constant
  | .inline value => resolveInline place value
  | .select selector variants => do
    let selector ← resolveInline place selector
    let chosen := resolveFirst place (fun key _ => setting.selects selector key) variants
    let default := resolveFirst place (fun _ isDefault => isDefault) variants
    ((chosen.or default).getD (.error .missing)).map .text

def resolveFirst (place : Place) (kind : VariantKey → Bool → Bool) :
    List Variant → Option (Except Halt String)
  | [] => none
  | .mk key isDefault value :: variants =>
    if kind key isDefault then
      some (resolveElements place (setting.isolating && 1 < value.length) value)
    else resolveFirst place kind variants

def resolveElements (place : Place) (isolate : Bool) : List Element → Except Halt String
  | [] => .ok ""
  | .text value :: elements => do
    let text ← resolveElements place isolate elements
    return value ++ text
  | .placeable expression :: elements => do
    let value ← resolveExpression place expression
    let text ← resolveElements place isolate elements
    return placeableText isolate value ++ text

end

end Resolve

def resolveReference (setting : Setting) (look : Place → String → Except Halt Constant) :
    (depth : Nat) → Reference → Place → Except Halt String
  | 0, _, _ => .error .depth
  | depth + 1, reference, place =>
    match setting.catalog.pattern reference with
    | .error _ => .error .missing
    | .ok pattern =>
      resolveElements setting look (resolveReference setting look depth) place
        (setting.isolating && 1 < pattern.length) pattern

section

variable (setting : Setting) (look : Place → String → Except Halt Constant) (reference : Reference)

def HasText (text : String) : Prop :=
  ∃ depth, resolveReference setting look depth reference .outside = .ok text

def HaltsAt (halt : Halt) : Prop :=
  ∃ depth, resolveReference setting look depth reference .outside = .error halt

end

def constantOf? (source : String) : Option Constant :=
  match evaluate source with
  | .ok (.string text) => some (.text text)
  | .ok (.number number) => some (.number number)
  | _ => none

/-- The params by name, when all of them are constants. -/
def constantParams? (params : Option String) : Option (Table Constant) :=
  match params with
  | none => some []
  | some params => do
    let entries ← objectEntries params
    let constants ← entries.mapM fun (name, source) => (constantOf? source).map (name, ·)
    return Table.ofList constants

def AgreesUnless {α : Type} (halt : Halt) (first second : Except Halt α) : Prop :=
  first = .error halt ∨ first = second

section

variable {α β : Type} {halt : Halt}

theorem AgreesUnless.refl (result : Except Halt α) : AgreesUnless halt result result :=
  Or.inr rfl

theorem AgreesUnless.bind {first second : Except Halt α} {next other : α → Except Halt β}
    (h : AgreesUnless halt first second)
    (hnext : ∀ result, AgreesUnless halt (next result) (other result)) :
    AgreesUnless halt (first >>= next) (second >>= other) := by
  rcases h with rfl | rfl
  · exact Or.inl rfl
  · cases first with
    | error halt => exact Or.inr rfl
    | ok result => exact hnext result

theorem AgreesUnless.map {first second : Except Halt α} (f : α → β)
    (h : AgreesUnless halt first second) : AgreesUnless halt (first.map f) (second.map f) := by
  rcases h with rfl | rfl
  · exact Or.inl rfl
  · exact Or.inr rfl

theorem AgreesUnless.eq {first second : Except Halt α} (h : AgreesUnless halt first second)
    (hfirst : first ≠ .error halt) : first = second :=
  h.resolve_left hfirst

end

structure WaysAgree (halt : Halt) (look other : Place → String → Except Halt Constant)
    (follow further : Reference → Place → Except Halt String) : Prop where
  look : ∀ place name, AgreesUnless halt (look place name) (other place name)
  follow : ∀ reference place,
    AgreesUnless halt (follow reference place) (further reference place)

section

variable {setting : Setting} {halt : Halt} {look other : Place → String → Except Halt Constant}
  {follow further : Reference → Place → Except Halt String}

theorem agrees_selected {first second default back : Option (Except Halt String)}
    (h : Option.Rel (AgreesUnless halt) first second)
    (hdefault : Option.Rel (AgreesUnless halt) default back) :
    AgreesUnless halt ((first.or default).getD (.error .missing))
      ((second.or back).getD (.error .missing)) := by
  cases h with
  | some hchosen => exact hchosen
  | none =>
    cases hdefault with
    | some hchosen => exact hchosen
    | none => exact .refl _

mutual

theorem agrees_resolveInline (agree : WaysAgree halt look other follow further) (place : Place) :
    (inline : Inline) →
      AgreesUnless halt (resolveInline setting look follow place inline)
        (resolveInline setting other further place inline)
  | .string raw => .refl _
  | .number text => .refl _
  | .variable name => by
    rw [resolveInline, resolveInline]
    exact agree.look place name
  | .message id attr => by
    rw [resolveInline, resolveInline]
    exact (agree.follow _ _).map _
  | .term id attr none => by
    rw [resolveInline, resolveInline]
    exact (agree.follow _ _).map _
  | .term id attr (some (.mk positional named)) => by
    have hnamed := agrees_resolveNamed agree place named
    rw [resolveInline, resolveInline]
    exact hnamed.bind fun given => (agree.follow _ _).map _
  | .function name given => .refl _
  | .placeable expression => by
    rw [resolveInline, resolveInline]
    exact agrees_resolveExpression agree place expression

theorem agrees_resolveNamed (agree : WaysAgree halt look other follow further) (place : Place) :
    (named : List (String × Inline)) →
      AgreesUnless halt (resolveNamed setting look follow place named)
        (resolveNamed setting other further place named)
  | [] => .refl _
  | (name, value) :: named => by
    have hvalue := agrees_resolveInline agree place value
    have hnamed := agrees_resolveNamed agree place named
    rw [resolveNamed, resolveNamed]
    exact hvalue.bind fun value => hnamed.bind fun given => .refl _

theorem agrees_resolveExpression (agree : WaysAgree halt look other follow further)
    (place : Place) : (expression : Expression) →
      AgreesUnless halt (resolveExpression setting look follow place expression)
        (resolveExpression setting other further place expression)
  | .inline value => by
    rw [resolveExpression, resolveExpression]
    exact agrees_resolveInline agree place value
  | .select selector variants => by
    have hselector := agrees_resolveInline agree place selector
    have hfirst (kind : VariantKey → Bool → Bool) := agrees_resolveFirst agree place kind variants
    rw [resolveExpression, resolveExpression]
    exact hselector.bind fun value => (agrees_selected (hfirst _) (hfirst _)).map _

theorem agrees_resolveFirst (agree : WaysAgree halt look other follow further) (place : Place)
    (kind : VariantKey → Bool → Bool) : (variants : List Variant) →
      Option.Rel (AgreesUnless halt) (resolveFirst setting look follow place kind variants)
        (resolveFirst setting other further place kind variants)
  | [] => by
    rw [resolveFirst, resolveFirst]
    exact .none
  | .mk key isDefault value :: variants => by
    have helements := agrees_resolveElements agree place
      (setting.isolating && 1 < value.length) value
    have hrest := agrees_resolveFirst agree place kind variants
    rw [resolveFirst, resolveFirst]
    split
    · exact .some helements
    · exact hrest

theorem agrees_resolveElements (agree : WaysAgree halt look other follow further) (place : Place)
    (isolate : Bool) : (elements : List Element) →
      AgreesUnless halt (resolveElements setting look follow place isolate elements)
        (resolveElements setting other further place isolate elements)
  | [] => .refl _
  | .text value :: elements => by
    have hrest := agrees_resolveElements agree place isolate elements
    rw [resolveElements, resolveElements]
    exact hrest.bind fun text => .refl _
  | .placeable expression :: elements => by
    have hvalue := agrees_resolveExpression agree place expression
    have hrest := agrees_resolveElements agree place isolate elements
    rw [resolveElements, resolveElements]
    exact hvalue.bind fun value => hrest.bind fun text => .refl _

end

end

section

variable {setting : Setting} {look other : Place → String → Except Halt Constant}

theorem agrees_resolveReference {halt : Halt}
    (hlook : ∀ place name, AgreesUnless halt (look place name) (other place name)) (depth : Nat)
    (reference : Reference) (place : Place) :
    AgreesUnless halt (resolveReference setting look depth reference place)
      (resolveReference setting other depth reference place) := by
  induction depth generalizing reference place with
  | zero => exact .refl _
  | succ depth ih =>
    rw [resolveReference, resolveReference]
    cases setting.catalog.pattern reference with
    | error error => exact .refl _
    | ok pattern => exact agrees_resolveElements ⟨hlook, ih⟩ place _ pattern

theorem agrees_resolveReference_succ (depth : Nat) (reference : Reference) (place : Place) :
    AgreesUnless .depth (resolveReference setting look depth reference place)
      (resolveReference setting look (depth + 1) reference place) := by
  induction depth generalizing reference place with
  | zero => exact Or.inl rfl
  | succ depth ih =>
    rw [resolveReference, resolveReference]
    cases setting.catalog.pattern reference with
    | error error => exact .refl _
    | ok pattern => exact agrees_resolveElements ⟨fun _ _ => .refl _, ih⟩ place _ pattern

theorem resolveReference_of_le {depth more : Nat} {reference : Reference} {place : Place}
    {result : Except Halt String} (hle : depth ≤ more)
    (h : resolveReference setting look depth reference place = result)
    (hresult : result ≠ .error .depth) :
    resolveReference setting look more reference place = result := by
  induction hle with
  | refl => exact h
  | step _ ih =>
    exact ((agrees_resolveReference_succ _ reference place).eq (ih.symm ▸ hresult)).symm.trans ih

variable {reference : Reference} {text back : String}

theorem HasText.unique (h : HasText setting look reference text)
    (h' : HasText setting look reference back) : text = back := by
  obtain ⟨depth, hdepth⟩ := h
  obtain ⟨more, hmore⟩ := h'
  have hfirst := resolveReference_of_le (Nat.le_max_left depth more) hdepth (by simp)
  have hsecond := resolveReference_of_le (Nat.le_max_right depth more) hmore (by simp)
  exact Except.ok.inj (hfirst.symm.trans hsecond)

theorem HasText.not_haltsAt {halt : Halt} (h : HasText setting look reference text)
    (hhalt : halt ≠ .depth) : ¬HaltsAt setting look reference halt := by
  rintro ⟨more, hmore⟩
  obtain ⟨depth, hdepth⟩ := h
  have hfirst := resolveReference_of_le (Nat.le_max_left depth more) hdepth (by simp)
  have hsecond := resolveReference_of_le (Nat.le_max_right depth more) hmore (by simpa using hhalt)
  cases hfirst.symm.trans hsecond

theorem Setting.agrees_isolated (setting : Setting) (place : Place) (name : String) :
    AgreesUnless .leak (setting.agreed place name) (setting.isolated place name) := by
  cases place with
  | outside => exact .refl _
  | inside arguments => exact .refl _
  | behind arguments =>
    unfold Setting.agreed
    dsimp only
    split
    · exact .refl _
    · exact Or.inl rfl

theorem Setting.agrees_leaking (setting : Setting) (place : Place) (name : String) :
    AgreesUnless .leak (setting.agreed place name) (setting.leaking place name) := by
  cases place with
  | outside => exact .refl _
  | inside arguments => exact .refl _
  | behind arguments =>
    unfold Setting.agreed
    dsimp only
    split
    · rename_i hparam
      have hleaking : setting.leaking (.behind arguments) name =
          .ok (Setting.argumentConstant arguments name) := by
        unfold Setting.leaking Setting.variableConstant Place.held?
        dsimp only
        rw [hparam]
        rfl
      rw [hleaking]
      exact .refl _
    · exact Or.inl rfl

theorem HasText.isolated (h : HasText setting setting.leaking reference text)
    (hleak : ¬HaltsAt setting setting.agreed reference .leak) :
    HasText setting setting.isolated reference text := by
  obtain ⟨depth, hdepth⟩ := h
  have hagreed : resolveReference setting setting.agreed depth reference .outside ≠
      .error .leak := fun h => hleak ⟨depth, h⟩
  have hleaking := (agrees_resolveReference setting.agrees_leaking depth reference _).eq hagreed
  have hisolated := (agrees_resolveReference setting.agrees_isolated depth reference _).eq hagreed
  exact ⟨depth, hisolated.symm.trans (hleaking.trans hdepth)⟩

end

end TemplateMessages.Fluent
