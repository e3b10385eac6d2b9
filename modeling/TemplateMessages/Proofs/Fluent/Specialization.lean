import TemplateMessages.Fluent.Resource
import TemplateMessages.Proofs.Expression.PlainName
import TemplateMessages.Proofs.Fluent.ConstantExpansion
import TemplateMessages.Proofs.Fluent.RuntimeText

set_option autoImplicit false

/-!
# Names in place of texts

Code for a call whose params are names has the text as its value that the call has when the names are
replaced by their texts first, as long as no selection and no function is reached. The two
expansions take the same steps, fail at the same place, and give values that stand for the same text.
-/

namespace TemplateMessages.Fluent

open TemplateMessages.Expression (evaluate isIdentifier isWord_of_evaluate quoted)
open TemplateMessages.Script.Sum (Names IsReserved run)
open TemplateMessages.Translation (TranslationError Context)

mutual

def inlineReferences? : Inline → Option (List Reference)
  | .string _ => some []
  | .number _ => some []
  | .variable _ => some []
  | .message id attr => some [.message id attr]
  | .term id attr none => some [.term id attr]
  | .term id attr (some (.mk _ named)) => (namedReferences? named).map (.term id attr :: ·)
  | .function _ _ => none
  | .placeable expression => expressionReferences? expression

def namedReferences? : List (String × Inline) → Option (List Reference)
  | [] => some []
  | (_, value) :: named => do return (← inlineReferences? value) ++ (← namedReferences? named)

def expressionReferences? : Expression → Option (List Reference)
  | .inline value => inlineReferences? value
  | .select _ _ => none

def patternReferences? : List Element → Option (List Reference)
  | [] => some []
  | .text _ :: elements => patternReferences? elements
  | .placeable expression :: elements => do
    return (← expressionReferences? expression) ++ (← patternReferences? elements)

end

/-- Expanding the first pattern may lead to the second one. -/
inductive Catalog.Reaches (catalog : Catalog) : Reference → Reference → Prop
  | refl (reference : Reference) : Reaches catalog reference reference
  | step {reference next last : Reference} {pattern : Pattern} {references : List Reference}
      (hpattern : catalog.pattern reference = .ok pattern)
      (hreferences : patternReferences? pattern = some references) (hnext : next ∈ references)
      (hlast : Reaches catalog next last) : Reaches catalog reference last

/-- No pattern that is reached has a selection or a function. -/
def Catalog.Straight (catalog : Catalog) (reference : Reference) : Prop :=
  ∀ reached pattern, catalog.Reaches reference reached → catalog.pattern reached = .ok pattern →
    (patternReferences? pattern).isSome

theorem Catalog.Straight.next {catalog : Catalog} {reference next : Reference} {pattern : Pattern}
    {references : List Reference} (h : catalog.Straight reference)
    (hpattern : catalog.pattern reference = .ok pattern)
    (hreferences : patternReferences? pattern = some references) (hnext : next ∈ references) :
    catalog.Straight next :=
  fun reached other hreached => h reached other (.step hpattern hreferences hnext hreached)

def Catalog.isClosed (catalog : Catalog) (references : List Reference) : Bool :=
  references.all fun reference =>
    match catalog.pattern reference with
    | .error _ => true
    | .ok pattern => (patternReferences? pattern).any fun next => next.all references.contains

theorem Catalog.straight_of_isClosed {catalog : Catalog} {references : List Reference}
    (h : catalog.isClosed references = true) {reference : Reference}
    (hmem : reference ∈ references) : catalog.Straight reference := by
  have hclosed {reference : Reference} (hmem : reference ∈ references) {pattern : Pattern}
      (hpattern : catalog.pattern reference = .ok pattern) :
      ∃ next, patternReferences? pattern = some next ∧ ∀ other ∈ next, other ∈ references := by
    have hone := List.all_eq_true.mp h reference hmem
    rw [hpattern] at hone
    dsimp only at hone
    cases hnext : patternReferences? pattern with
    | none =>
      rw [hnext] at hone
      cases hone
    | some next =>
      rw [hnext] at hone
      refine ⟨next, rfl, fun other hother => ?_⟩
      exact List.contains_iff_mem.mp (List.all_eq_true.mp hone other hother)
  intro reached pattern hreached hpattern
  induction hreached with
  | refl reference =>
    obtain ⟨next, hnext, _⟩ := hclosed hmem hpattern
    rw [hnext]
    rfl
  | step hstep hreferences hnext _ ih =>
    obtain ⟨next, hfound, hall⟩ := hclosed hmem hstep
    obtain rfl := Option.some.inj (hfound.symm.trans hreferences)
    exact ih (hall _ hnext) hpattern

def Agree {α β : Type} (R : α → β → Prop) (first : Expanding α) (second : Expanding β) : Prop :=
  ∀ count, (∃ error, first count = .error error ∧ second count = .error error) ∨
    ∃ result other after, first count = .ok (result, after) ∧ second count = .ok (other, after) ∧
      R result other

section

variable {α β γ δ : Type} {R : α → β → Prop} {S : γ → δ → Prop}

theorem agree_pure {result : α} {other : β} (h : R result other) :
    Agree R (pure result) (pure other) :=
  fun count => Or.inr ⟨result, other, count, rfl, rfl, h⟩

theorem agree_throw (error : TranslationError) : Agree R (throw error) (throw error) :=
  fun _ => Or.inl ⟨error, rfl, rfl⟩

theorem Agree.bind {first : Expanding α} {second : Expanding β} {next : α → Expanding γ}
    {further : β → Expanding δ} (h : Agree R first second)
    (hnext : ∀ result other, R result other → Agree S (next result) (further other)) :
    Agree S (first >>= next) (second >>= further) := by
  intro count
  change (∃ error, (first count >>= fun pair => next pair.1 pair.2) = .error error ∧
      (second count >>= fun pair => further pair.1 pair.2) = .error error) ∨
    ∃ result other after, (first count >>= fun pair => next pair.1 pair.2) = .ok (result, after) ∧
      (second count >>= fun pair => further pair.1 pair.2) = .ok (other, after) ∧ S result other
  rcases h count with ⟨error, hfirst, hsecond⟩ | ⟨result, other, after, hfirst, hsecond, hrelated⟩
  · rw [hfirst, hsecond]
    exact Or.inl ⟨error, rfl, rfl⟩
  · rw [hfirst, hsecond]
    exact hnext result other hrelated after

theorem Agree.behind (step : Expanding α) {next : α → Expanding γ} {further : α → Expanding δ}
    (h : ∀ result, Agree S (next result) (further result)) :
    Agree S (step >>= next) (step >>= further) := by
  have hsame : Agree Eq step step := by
    intro count
    cases hstep : step count with
    | error error => exact Or.inl ⟨error, rfl, rfl⟩
    | ok pair => exact Or.inr ⟨pair.1, pair.1, pair.2, rfl, rfl, rfl⟩
  refine hsame.bind ?_
  rintro result _ rfl
  exact h result

theorem Agree.ite {condition : Prop} [Decidable condition] {first third : Expanding α}
    {second fourth : Expanding β} (h : Agree R first second) (h' : Agree R third fourth) :
    Agree R (if condition then first else third) (if condition then second else fourth) := by
  split
  · exact h
  · exact h'

theorem agree_liftM {first : Except TranslationError α} {second : Except TranslationError β}
    (h : (∃ error, first = .error error ∧ second = .error error) ∨
      ∃ result other, first = .ok result ∧ second = .ok other ∧ R result other) :
    Agree R (liftM first : Expanding α) (liftM second : Expanding β) := by
  rcases h with ⟨error, rfl, rfl⟩ | ⟨result, other, rfl, rfl, hrelated⟩
  · exact agree_throw error
  · exact agree_pure hrelated

end

variable {names : Names}

def Renders (names : Names) (value constant : Value) : Prop :=
  ∃ text, value.Stands names text ∧ constant.constantText? = some text

def RendersText (names : Names) (value constant : Value) : Prop :=
  ∃ text, value.Stands names text ∧ constant = .text text

def ArgumentsRender (names : Names) : Option (Table Value) → Option (Table Value) → Prop :=
  Option.Rel (Table.Related (Renders names))

theorem renders_text (names : Names) (text : String) : Renders names (.text text) (.text text) :=
  ⟨text, rfl, rfl⟩

theorem renders_numberValue (names : Names) (text : String) :
    Renders names (numberValue text) (numberValue text) := by
  unfold numberValue
  split
  · exact ⟨_, rfl, rfl⟩
  · exact renders_text names text

theorem renders_concat {parts constants : List Value}
    (h : List.Forall₂ (Renders names) parts constants) :
    RendersText names (Value.concat parts) (Value.concat constants) := by
  obtain ⟨texts, hparts, hconstants⟩ : ∃ texts, StandFor names parts texts ∧
      JoinTo constants (String.join texts) := by
    induction h with
    | nil => exact ⟨[], .nil, Or.inl ⟨rfl, String.join_nil⟩⟩
    | cons hfirst _ ih =>
      obtain ⟨text, hstands, htext⟩ := hfirst
      obtain ⟨texts, hparts, hconstants⟩ := ih
      refine ⟨text :: texts, .cons hstands hparts, ?_⟩
      rw [String.join_cons]
      exact hconstants.cons htext
  exact ⟨String.join texts, stands_concat hparts, hconstants.concat⟩

def AgreeOn (names : Names) (references : List Reference)
    (follow further : Reference → Option (Table Value) → Expanding Value) : Prop :=
  ∀ reference ∈ references, ∀ arguments given, ArgumentsRender names arguments given →
    Agree (Renders names) (follow reference arguments) (further reference given)

section

variable {scope : Scope} {constants : Table Value}
  {follow further : Reference → Option (Table Value) → Expanding Value}
  {arguments given : Option (Table Value)} {references : List Reference}

theorem AgreeOn.of_subset {others : List Reference} (h : AgreeOn names references follow further)
    (hsubset : others ⊆ references) : AgreeOn names others follow further :=
  fun reference hmem => h reference (hsubset hmem)

theorem agree_variableValue (hparams : Table.Related (Renders names) scope.params constants)
    (hgiven : ArgumentsRender names arguments given) (name : String) :
    (∃ error, variableValue scope arguments name = .error error ∧
        variableValue { scope with params := constants } given name = .error error) ∨
      ∃ value constant, variableValue scope arguments name = .ok value ∧
        variableValue { scope with params := constants } given name = .ok constant ∧
        Renders names value constant := by
  cases hgiven with
  | none =>
    have hget := hparams.get? name
    unfold variableValue
    dsimp only
    generalize scope.params.get? name = value? at hget ⊢
    generalize constants.get? name = constant? at hget ⊢
    cases hget with
    | none => exact Or.inl ⟨_, rfl, rfl⟩
    | some hfound => exact Or.inr ⟨_, _, rfl, rfl, hfound⟩
  | @some table other htable =>
    have hget := htable.get? name
    refine Or.inr ⟨_, _, rfl, rfl, ?_⟩
    generalize table.get? name = value? at hget ⊢
    generalize other.get? name = constant? at hget ⊢
    cases hget with
    | none => exact renders_text names _
    | some hfound => exact hfound

mutual

theorem agree_expandInline (hparams : Table.Related (Renders names) scope.params constants)
    (hgiven : ArgumentsRender names arguments given) : (inline : Inline) →
      (references : List Reference) → inlineReferences? inline = some references →
      AgreeOn names references follow further →
      Agree (Renders names) (expandInline scope follow arguments inline)
        (expandInline { scope with params := constants } further given inline)
  | .string raw, _, _, _ => by
    rw [expandInline, expandInline]
    exact agree_pure (renders_text names _)
  | .number text, _, _, _ => by
    rw [expandInline, expandInline]
    exact agree_pure (renders_numberValue names text)
  | .variable name, _, _, _ => by
    rw [expandInline, expandInline]
    exact agree_liftM (agree_variableValue hparams hgiven name)
  | .message id attr, _, href, hfollow => by
    obtain rfl := Option.some.inj href
    rw [expandInline, expandInline]
    exact hfollow _ List.mem_cons_self _ _ .none
  | .term id attr none, _, href, hfollow => by
    obtain rfl := Option.some.inj href
    have hterm := hfollow _ List.mem_cons_self (some []) (some []) (.some .nil)
    rw [expandInline, expandInline]
    exact (Agree.behind _ fun _ => hterm).ite hterm
  | .term id attr (some (.mk positional named)), _, href, hfollow => by
    rw [inlineReferences?] at href
    obtain ⟨inner, hinner, rfl⟩ := Option.map_eq_some_iff.mp href
    have hnamed := agree_expandNamed hparams hgiven named inner hinner
      (hfollow.of_subset (List.subset_cons_self _ _))
    rw [expandInline, expandInline]
    have hterm := hnamed.bind fun values others hvalues =>
      hfollow _ List.mem_cons_self _ _ (.some hvalues.ofList)
    exact (Agree.behind _ fun _ => hterm).ite hterm
  | .placeable expression, references, href, hfollow => by
    rw [inlineReferences?] at href
    rw [expandInline, expandInline]
    exact agree_expandExpression hparams hgiven expression references href hfollow

theorem agree_expandNamed (hparams : Table.Related (Renders names) scope.params constants)
    (hgiven : ArgumentsRender names arguments given) : (named : List (String × Inline)) →
      (references : List Reference) → namedReferences? named = some references →
      AgreeOn names references follow further →
      Agree (Table.Related (Renders names)) (expandNamed scope follow arguments named)
        (expandNamed { scope with params := constants } further given named)
  | [], _, _, _ => by
    rw [expandNamed, expandNamed]
    exact agree_pure .nil
  | (name, value) :: named, _, href, hfollow => by
    rw [namedReferences?] at href
    obtain ⟨first, hfirst, hbehind⟩ := Option.bind_eq_some_iff.mp href
    obtain ⟨rest, hrest, heq⟩ := Option.bind_eq_some_iff.mp hbehind
    obtain rfl := Option.some.inj heq
    have hvalue := agree_expandInline hparams hgiven value first hfirst
      (hfollow.of_subset (List.subset_append_left _ _))
    have hnamed := agree_expandNamed hparams hgiven named rest hrest
      (hfollow.of_subset (List.subset_append_right _ _))
    rw [expandNamed, expandNamed]
    exact hvalue.bind fun value constant hconstant => hnamed.bind fun values others hvalues =>
      agree_pure (.cons ⟨rfl, hconstant⟩ hvalues)

theorem agree_expandExpression (hparams : Table.Related (Renders names) scope.params constants)
    (hgiven : ArgumentsRender names arguments given) : (expression : Expression) →
      (references : List Reference) → expressionReferences? expression = some references →
      AgreeOn names references follow further →
      Agree (Renders names) (expandExpression scope follow arguments expression)
        (expandExpression { scope with params := constants } further given expression)
  | .inline value, references, href, hfollow => by
    rw [expressionReferences?] at href
    rw [expandExpression, expandExpression]
    exact agree_expandInline hparams hgiven value references href hfollow

theorem agree_expandElements (hparams : Table.Related (Renders names) scope.params constants)
    (hgiven : ArgumentsRender names arguments given) (isolate : Bool) : (elements : List Element) →
      (references : List Reference) → patternReferences? elements = some references →
      AgreeOn names references follow further →
      Agree (List.Forall₂ (Renders names)) (expandElements scope follow arguments isolate elements)
        (expandElements { scope with params := constants } further given isolate elements)
  | [], _, _, _ => by
    rw [expandElements, expandElements]
    exact agree_pure .nil
  | .text value :: elements, references, href, hfollow => by
    rw [patternReferences?] at href
    have hrest := agree_expandElements hparams hgiven isolate elements references href hfollow
    rw [expandElements, expandElements]
    exact hrest.bind fun parts others hparts => agree_pure (.cons (renders_text names value) hparts)
  | .placeable expression :: elements, _, href, hfollow => by
    rw [patternReferences?] at href
    obtain ⟨first, hfirst, hbehind⟩ := Option.bind_eq_some_iff.mp href
    obtain ⟨rest, hrest, heq⟩ := Option.bind_eq_some_iff.mp hbehind
    obtain rfl := Option.some.inj heq
    have hvalue := agree_expandExpression hparams hgiven expression first hfirst
      (hfollow.of_subset (List.subset_append_left _ _))
    have helements := agree_expandElements hparams hgiven isolate elements rest hrest
      (hfollow.of_subset (List.subset_append_right _ _))
    rw [expandElements, expandElements]
    refine Agree.behind _ fun _ => hvalue.bind fun value constant hconstant =>
      helements.bind fun parts others hparts => ?_
    cases isolate with
    | false => exact agree_pure (.cons hconstant hparts)
    | true =>
      exact agree_pure (.cons (renders_text names _) (.cons hconstant
        (.cons (renders_text names _) hparts)))

end

theorem agree_expandReference (hparams : Table.Related (Renders names) scope.params constants)
    (depth : Nat) (around : List String) {reference : Reference}
    (hreference : scope.catalog.Straight reference) (hgiven : ArgumentsRender names arguments given) :
    Agree (RendersText names) (expandReference scope around depth reference arguments)
      (expandReference { scope with params := constants } around depth reference given) := by
  induction depth generalizing around reference arguments given with
  | zero => exact agree_throw _
  | succ depth ih =>
    rw [expandReference, expandReference]
    cases hpattern : scope.catalog.pattern reference with
    | error error => exact agree_throw error
    | ok pattern =>
      obtain ⟨references, hreferences⟩ :=
        Option.isSome_iff_exists.mp (hreference reference pattern (.refl reference) hpattern)
      have hinside : AgreeOn names references
          (expandReference scope (reference.name :: around) depth)
          (expandReference { scope with params := constants } (reference.name :: around) depth) := by
        intro next hnext arguments given hgiven count
        rcases ih (reference.name :: around) (hreference.next hpattern hreferences hnext) hgiven count
          with herror | ⟨value, constant, after, hvalue, hconstant, text, hstands, rfl⟩
        · exact Or.inl herror
        · exact Or.inr ⟨value, .text text, after, hvalue, hconstant, text, hstands, rfl⟩
      have hparts := agree_expandElements hparams hgiven (scope.isolating && 1 < pattern.length)
        pattern references hreferences hinside
      have hvalue := hparts.bind fun parts others hrelated => agree_pure (renders_concat hrelated)
      exact (Agree.behind _ fun _ => hvalue).ite hvalue

theorem expand_agree (scope : Scope)
    (hparams : Table.Related (Renders names) scope.params constants)
    {reference : Reference} (hreference : scope.catalog.Straight reference) :
    (∃ error, expand scope reference = .error error ∧
        expand { scope with params := constants } reference = .error error) ∨
      ∃ value text, expand scope reference = .ok value ∧
        expand { scope with params := constants } reference = .ok (.text text) ∧
        value.Stands names text := by
  have hagree := agree_expandReference hparams (maxPlaceables + 1) [] hreference .none
  unfold expand StateT.run'
  rcases hagree 0 with ⟨error, hfirst, hsecond⟩ | ⟨value, _, after, hfirst, hsecond, text, hstands, rfl⟩
  · rw [hfirst, hsecond]
    exact Or.inl ⟨error, rfl, rfl⟩
  · rw [hfirst, hsecond]
    exact Or.inr ⟨value, text, rfl, rfl, hstands⟩

end

/-- A param that is a constant string, or a plain name. -/
def IsTextOrName (source : String) : Prop :=
  (∃ text, constantOf? source = some (.text text)) ∨
    isIdentifier source.toList = true ∧ ¬IsReserved source.toList

/-- Every name has its text as its value. -/
def textNames (texts : String → String) : Names :=
  fun name => some (.string (texts (String.ofList name)))

def Value.specialize (texts : String → String) : Value → Value
  | .code name => .text (texts name)
  | value => value

def specialize (texts : String → String) (params : Table Value) : Table Value :=
  params.map fun (name, value) => (name, value.specialize texts)

/-- The code for a call whose params have these values. -/
def codeWith (catalogs : LocaleCatalogs) (isolating : Bool) (context : Context)
    (arguments : Call.Arguments) (params : Except TranslationError (Table Value)) :
    Except TranslationError String := do
  let (id, attr) := splitKey arguments.key
  match find? catalogs context id arguments.locale with
  | none => throw (.unknownMessage arguments.key)
  | some (locale, catalog) =>
    let reference := Reference.message id attr
    let _ ← catalog.pattern reference
    let params ← params
    let value ← expand ⟨catalog, locale, arguments.key, params, isolating⟩ reference
    return resultCode value

variable {catalogs : LocaleCatalogs} {isolating : Bool} {context : Context}
  {arguments : Call.Arguments}

theorem translationCode_eq_codeWith :
    translationCode catalogs isolating context arguments =
      codeWith catalogs isolating context arguments (paramValues arguments.params) :=
  rfl

theorem renders_paramValue {source : String} (h : IsTextOrName source) (texts : String → String) :
    Renders (textNames texts) (paramValue source) ((paramValue source).specialize texts) := by
  rcases h with ⟨text, hconstant⟩ | ⟨hname, hreserved⟩
  · rw [paramValue_of_constantOf? hconstant]
    exact renders_text _ text
  · have hcode : paramValue source = .code source := by
      unfold paramValue
      split
      · rename_i heval
        cases isWord_of_evaluate hname heval
      · rename_i heval
        cases isWord_of_evaluate hname heval
      · rfl
    have hvalue : textNames texts source.toList = some (.string (texts source)) := by
      rw [textNames, String.ofList_toList]
    rw [hcode]
    exact ⟨texts source, Value.stands_name hname hreserved hvalue, rfl⟩

theorem related_specialize {params : Option String} {values : Table Value}
    (h : ∀ source ∈ paramSources params, IsTextOrName source)
    (hvalues : paramValues params = .ok values) (texts : String → String) :
    Table.Related (Renders (textNames texts)) values (specialize texts values) := by
  have hentries : ∀ entry ∈ values,
      Renders (textNames texts) entry.2 (entry.2.specialize texts) := by
    cases params with
    | none =>
      cases hvalues
      intro entry hentry
      cases hentry
    | some params =>
      unfold paramValues at hvalues
      dsimp only at hvalues
      split at hvalues
      · cases hvalues
      · rename_i entries hfound
        cases hvalues
        intro entry hentry
        obtain ⟨given, hgiven, rfl⟩ := List.mem_map.mp (Table.mem_ofList hentry)
        apply renders_paramValue
        apply h
        rw [paramSources, Option.bind_some, hfound]
        exact List.mem_map_of_mem hgiven
  unfold Table.Related specialize
  rw [List.forall₂_map_right_iff, List.forall₂_same]
  exact fun entry hentry => ⟨rfl, hentries entry hentry⟩

/-- Code for a call whose params are strings and names has the text as its value that the call has
with the texts of the names in their place, and it fails just when that call does. -/
theorem run_translationCode (isolating : Bool) (texts : String → String)
    (hparams : ∀ source ∈ paramSources arguments.params, IsTextOrName source)
    (hpatterns : ∀ locale catalog,
      find? catalogs context (splitKey arguments.key).1 arguments.locale = some (locale, catalog) →
        catalog.Straight (keyReference arguments.key)) :
    (∃ error, translationCode catalogs isolating context arguments = .error error ∧
        codeWith catalogs isolating context arguments
          ((paramValues arguments.params).map (specialize texts)) = .error error) ∨
      ∃ code text, translationCode catalogs isolating context arguments = .ok code ∧
        codeWith catalogs isolating context arguments
          ((paramValues arguments.params).map (specialize texts)) = .ok (quoted text) ∧
        run (textNames texts) code = some (.string text) := by
  rw [translationCode_eq_codeWith]
  unfold codeWith
  dsimp only
  cases hfind : find? catalogs context (splitKey arguments.key).1 arguments.locale with
  | none => exact Or.inl ⟨_, rfl, rfl⟩
  | some found =>
    obtain ⟨locale, catalog⟩ := found
    have hstraight := hpatterns locale catalog hfind
    rw [keyReference] at hstraight
    dsimp only
    cases hpattern : catalog.pattern (.message (splitKey arguments.key).1 (splitKey arguments.key).2) with
    | error error => exact Or.inl ⟨error, rfl, rfl⟩
    | ok pattern =>
      cases hvalues : paramValues arguments.params with
      | error error => exact Or.inl ⟨error, rfl, rfl⟩
      | ok params =>
        have hrelated := related_specialize hparams hvalues texts
        dsimp only [bind, Except.bind, Except.map]
        rcases expand_agree ⟨catalog, locale, arguments.key, params, isolating⟩ hrelated
          hstraight with ⟨error, hfirst, hsecond⟩ | ⟨value, text, hfirst, hsecond, hstands⟩
        · rw [hfirst, hsecond]
          exact Or.inl ⟨error, rfl, rfl⟩
        · rw [hfirst, hsecond]
          exact Or.inr ⟨resultCode value, text, rfl, rfl, hstands.resultCode⟩

/-- A message in a message, a term with an argument, and a name twice. -/
def helloCatalog : Catalog :=
  (Fluent.parse ("-brand = \x7b $owner \x7d's Acme\n" ++
    "inner = \x7b $user \x7d of \x7b -brand(owner: \"Ann\") \x7d\n" ++
    "hello = \x7b $mood \x7d\x7b inner \x7d, \x7b $user \x7d").toList).1

def helloArguments : Call.Arguments :=
  ⟨"hello", some "\x7b user: who, mood: \"It's \" \x7d", none⟩

theorem run_translationCode_hello :
    (∀ source ∈ paramSources helloArguments.params, IsTextOrName source) ∧
      helloCatalog.Straight (keyReference "hello") ∧
      translationCode [("en", helloCatalog)] false ⟨"en", "", []⟩ helloArguments =
        .ok "'It\\'s ' + ('' + who + ' of Ann\\'s Acme') + ', ' + who" ∧
      ∃ text, codeWith [("en", helloCatalog)] false ⟨"en", "", []⟩ helloArguments
          ((paramValues helloArguments.params).map (specialize fun _ => "O'Hara")) =
            .ok (quoted text) ∧
        run (textNames fun _ => "O'Hara")
          "'It\\'s ' + ('' + who + ' of Ann\\'s Acme') + ', ' + who" = some (.string text) := by
  have hsources : paramSources helloArguments.params = ["who", "\"It's \""] := by decide +kernel
  have hparams : ∀ source ∈ paramSources helloArguments.params, IsTextOrName source := by
    rw [hsources]
    intro source hsource
    rcases List.mem_cons.mp hsource with rfl | hsource
    · exact Or.inr ⟨by decide, by decide⟩
    · rw [List.mem_singleton.mp hsource]
      exact Or.inl ⟨"It's ", by decide +kernel⟩
  have hclosed : helloCatalog.isClosed
      [keyReference "hello", .message "inner" none, .term "brand" none] = true := by
    decide +kernel
  have hstraight : helloCatalog.Straight (keyReference "hello") :=
    Catalog.straight_of_isClosed hclosed List.mem_cons_self
  have hcode : translationCode [("en", helloCatalog)] false ⟨"en", "", []⟩ helloArguments =
      .ok "'It\\'s ' + ('' + who + ' of Ann\\'s Acme') + ', ' + who" := by
    decide +kernel
  have hpatterns : ∀ locale catalog,
      find? [("en", helloCatalog)] ⟨"en", "", []⟩ (splitKey helloArguments.key).1
        helloArguments.locale = some (locale, catalog) →
          catalog.Straight (keyReference helloArguments.key) := by
    intro locale catalog hfind
    obtain ⟨entry, hentry, rfl⟩ := mem_of_find? hfind
    obtain rfl := List.mem_singleton.mp hentry
    exact hstraight
  refine ⟨hparams, hstraight, hcode, ?_⟩
  rcases run_translationCode false (fun _ => "O'Hara") hparams hpatterns with
    ⟨error, herror, _⟩ | ⟨code, text, hfirst, hsecond, hrun⟩
  · cases hcode.symm.trans herror
  · obtain rfl := Except.ok.inj (hcode.symm.trans hfirst)
    exact ⟨text, hsecond, hrun⟩

end TemplateMessages.Fluent
