import TemplateMessages.Fluent.Resource
import TemplateMessages.Proofs.Fluent.MessageValue
import TemplateMessages.Proofs.Fluent.PatternText
import TemplateMessages.Proofs.Script.StringLiteral

set_option autoImplicit false

/-!
# Expansion with constant params

When all params are strings and numbers, what a message expands to is the text of its pattern as a
string literal. The values of an expansion follow the constants of the resolution step by step, up
to the first formatting function.
-/

namespace TemplateMessages.Fluent

open TemplateMessages.Expression (objectEntries evaluate quoted)
open TemplateMessages.Number (Binary64)
open TemplateMessages.Translation (TranslationError Context)

def Constant.value : Constant → Value
  | text value => .text value
  | number value => .number value

/-- A result of the expansion is related to the result of the resolution, unless that stops at a
formatting function. -/
def Follows {α β : Type} (R : α → β → Prop) (expanding : Expanding α) (resolved : Except Halt β) :
    Prop :=
  ∀ count result after, expanding count = .ok (result, after) →
    resolved = .error .formatting ∨ ∃ found, resolved = .ok found ∧ R result found

section

variable {α β γ δ : Type} {R : α → β → Prop} {S : γ → δ → Prop}

theorem follows_pure {result : α} {found : β} (h : R result found) :
    Follows R (pure result) (.ok found) := by
  rintro count _ _ ⟨⟩
  exact Or.inr ⟨found, rfl, h⟩

theorem follows_throw (error : TranslationError) (resolved : Except Halt β) :
    Follows R (throw error) resolved := by
  intro count result after h
  cases h

theorem Follows.bind {expanding : Expanding α} {resolved : Except Halt β} {next : α → Expanding γ}
    {other : β → Except Halt δ} (h : Follows R expanding resolved)
    (hnext : ∀ result found, R result found → Follows S (next result) (other found)) :
    Follows S (expanding >>= next) (resolved >>= other) := by
  intro count result after heq
  change (expanding count >>= fun pair => next pair.1 pair.2) = .ok (result, after) at heq
  cases hfirst : expanding count with
  | error error =>
    rw [hfirst] at heq
    cases heq
  | ok pair =>
    obtain ⟨first, middle⟩ := pair
    rw [hfirst] at heq
    rcases h count first middle hfirst with rfl | ⟨found, rfl, hfound⟩
    · exact Or.inl rfl
    · exact hnext first found hfound middle result after heq

theorem Follows.behind {expanding : Expanding α} {resolved : Except Halt δ} {next : α → Expanding γ}
    (h : ∀ result, Follows S (next result) resolved) : Follows S (expanding >>= next) resolved := by
  intro count result after heq
  change (expanding count >>= fun pair => next pair.1 pair.2) = .ok (result, after) at heq
  cases hfirst : expanding count with
  | error error =>
    rw [hfirst] at heq
    cases heq
  | ok pair =>
    obtain ⟨first, middle⟩ := pair
    rw [hfirst] at heq
    exact h first middle result after heq

theorem follows_liftM {computed : Except TranslationError α} {resolved : Except Halt β}
    (h : ∀ result, computed = .ok result → ∃ found, resolved = .ok found ∧ R result found) :
    Follows R (liftM computed : Expanding α) resolved := by
  intro count result after heq
  cases computed with
  | error error => cases heq
  | ok value =>
    cases heq
    exact Or.inr (h result rfl)

theorem follows_liftM_bind {computed : Except TranslationError α} {next : α → Expanding γ}
    {resolved : Except Halt δ}
    (h : ∀ result, computed = .ok result → Follows S (next result) resolved) :
    Follows S ((liftM computed : Expanding α) >>= next) resolved := by
  cases computed with
  | error error => exact follows_throw error resolved
  | ok result => exact h result rfl

theorem Follows.map {expanding : Expanding α} {resolved : Except Halt β} {f : β → δ}
    {T : α → δ → Prop} (h : Follows R expanding resolved)
    (hf : ∀ result found, R result found → T result (f found)) :
    Follows T expanding (resolved.map f) := by
  intro count result after heq
  rcases h count result after heq with rfl | ⟨found, rfl, hfound⟩
  · exact Or.inl rfl
  · exact Or.inr ⟨f found, rfl, hf result found hfound⟩

theorem Follows.into {expanding : Expanding α} {resolved : Except Halt β} {f : α → γ}
    {T : γ → β → Prop} (h : Follows R expanding resolved)
    (hf : ∀ result found, R result found → T (f result) found) :
    Follows T (expanding >>= fun result => pure (f result)) resolved := by
  have hbind : Follows T (expanding >>= fun result => pure (f result)) (resolved >>= .ok) :=
    h.bind fun result found hfound => follows_pure (hf result found hfound)
  rwa [show resolved >>= Except.ok = resolved from bind_pure resolved] at hbind

theorem follows_formatting (expanding : Expanding α) :
    Follows R expanding (.error .formatting) :=
  fun _ _ _ _ => Or.inl rfl

end

def IsConstant (value : Value) (constant : Constant) : Prop :=
  value = constant.value

def IsText (value : Value) (text : String) : Prop :=
  value = .text text

/-- Nothing but one text is left of the parts when they are joined. -/
def JoinTo (parts : List Value) (text : String) : Prop :=
  Value.joinConstants parts = [] ∧ text = "" ∨ Value.joinConstants parts = [.text text]

theorem Follows.constant {expanding : Expanding Value} {resolved : Except Halt String}
    (h : Follows IsText expanding resolved) : Follows IsConstant expanding (resolved.map .text) :=
  h.map fun _ _ htext => htext

theorem IsConstant.constantText? {value : Value} {constant : Constant}
    (h : IsConstant value constant) : value.constantText? = some constant.printed := by
  rw [h]
  cases constant <;> rfl

theorem JoinTo.cons {value : Value} {parts : List Value} {front text : String}
    (hvalue : value.constantText? = some front) (h : JoinTo parts text) :
    JoinTo (value :: parts) (front ++ text) := by
  unfold JoinTo
  rw [Value.joinConstants, hvalue]
  rcases h with ⟨hjoined, rfl⟩ | hjoined
  · rw [hjoined, String.append_empty]
    exact Or.inr rfl
  · rw [hjoined]
    exact Or.inr rfl

theorem JoinTo.concat {parts : List Value} {text : String} (h : JoinTo parts text) :
    IsText (Value.concat parts) text := by
  unfold IsText Value.concat
  rcases h with ⟨hjoined, rfl⟩ | hjoined
  · rw [hjoined]
    rfl
  · rw [hjoined, List.filter_cons]
    by_cases hempty : text = ""
    · subst hempty
      rfl
    · simp [Value.isEmptyText, hempty]

/-- The setting of a scope whose params are the given constants. -/
def Scope.setting (scope : Scope) (params : Table Constant) : Setting :=
  ⟨scope.catalog, scope.locale, params, scope.isolating⟩

/-- The arguments of a term, where there are any, are those of the place. -/
def ConstantArguments (arguments : Option (Table Value)) (place : Place) : Prop :=
  Option.Rel (Table.Related IsConstant) arguments place.held?

theorem ConstantArguments.toMessage (place : Place) : ConstantArguments none place.toMessage := by
  cases place <;> exact .none

/-- The params are constants, and what a reference expands to is its text. -/
structure Constants (scope : Scope) (params : Table Constant)
    (follow : Reference → Option (Table Value) → Expanding Value)
    (resolve : Reference → Place → Except Halt String) : Prop where
  params : Table.Related IsConstant scope.params params
  follow : ∀ reference arguments place, ConstantArguments arguments place →
    Follows IsText (follow reference arguments) (resolve reference place)

section

variable {scope : Scope} {params : Table Constant}
  {follow : Reference → Option (Table Value) → Expanding Value}
  {resolve : Reference → Place → Except Halt String}
  {arguments : Option (Table Value)} {place : Place}

theorem isConstant_variableValue (hparams : Table.Related IsConstant scope.params params)
    (hgiven : ConstantArguments arguments place) {name : String} {value : Value}
    (h : variableValue scope arguments name = .ok value) :
    ∃ found, (scope.setting params).leaking place name = .ok found ∧
      IsConstant value found := by
  unfold Setting.leaking
  unfold ConstantArguments at hgiven
  generalize place.held? = held at hgiven ⊢
  cases hgiven with
  | none =>
    have hget := hparams.get? name
    unfold variableValue at h
    unfold Setting.variableConstant Scope.setting
    dsimp only at h ⊢
    generalize scope.params.get? name = value? at h hget
    generalize params.get? name = constant? at hget ⊢
    cases hget with
    | none => cases h
    | @some found constant hfound =>
      cases h
      exact ⟨constant, rfl, hfound⟩
  | @some table other htable =>
    have hget := htable.get? name
    cases h
    refine ⟨_, rfl, ?_⟩
    unfold Setting.argumentConstant
    generalize table.get? name = value? at hget ⊢
    generalize other.get? name = constant? at hget ⊢
    cases hget with
    | none => rfl
    | some hfound => exact hfound

theorem isConstant_numberValue (text : String) :
    IsConstant (numberValue text) (numeralConstant text) := by
  unfold IsConstant numberValue numeralConstant
  cases Binary64.ofText? text.toList <;> rfl

theorem category_setting {number : Binary64} {category : Plural.Category}
    (h : scope.category number = .ok category) :
    (scope.setting params).category number = some category := by
  unfold Scope.category at h
  unfold Setting.category Scope.setting
  dsimp only
  cases hrules : Plural.cardinalRules? scope.locale with
  | none =>
    rw [hrules] at h
    cases h
  | some rules =>
    rw [hrules] at h
    cases h
    rfl

theorem eq_of_chosen? (params : Table Constant) {constant : Constant} {variants : List Variant}
    {default : Nat} {chosen : Option Nat}
    (h : scope.chosen? constant.value variants default = .ok chosen) :
    chosen = some (chosenIndex variants default ((scope.setting params).selects constant)) := by
  cases constant with
  | text text =>
    cases h
    congr 2
    funext key
    cases key <;> rfl
  | number number =>
    unfold Scope.chosen? Constant.value Value.countable? at h
    dsimp only at h
    cases hcategory : scope.category number with
    | error error =>
      rw [hcategory] at h
      cases h
    | ok category =>
      rw [hcategory] at h
      cases h
      refine congrArg (fun matching => some (chosenIndex variants default matching)) ?_
      funext key
      cases key with
      | number text => rfl
      | name id =>
        change (id == category.name) =
          ((scope.setting params).category number).any (id == ·.name)
        rw [category_setting hcategory]
        rfl

theorem resolveFirst_eq_none {look : Place → String → Except Halt Constant}
    (kind : VariantKey → Bool → Bool) {variants : List Variant}
    (h : variants.findIdx? (fun variant => kind variant.key variant.isDefault) = none) :
    resolveFirst (scope.setting params) look resolve place kind variants = none := by
  induction variants with
  | nil => rw [resolveFirst]
  | cons variant variants ih =>
    obtain ⟨key, isDefault, value⟩ := variant
    rw [List.findIdx?_cons] at h
    split at h
    · cases h
    · rename_i hkind
      change ¬kind key isDefault = true at hkind
      rw [resolveFirst, if_neg hkind]
      exact ih (Option.map_eq_none_iff.mp h)

mutual

theorem follows_expandInline (around : Constants scope params follow resolve)
    (hgiven : ConstantArguments arguments place) : (inline : Inline) →
      Follows IsConstant (expandInline scope follow arguments inline)
        (resolveInline (scope.setting params) (scope.setting params).leaking resolve place inline)
  | .string raw => by
    rw [expandInline, resolveInline]
    exact follows_pure rfl
  | .number text => by
    rw [expandInline, resolveInline]
    exact follows_pure (isConstant_numberValue text)
  | .variable name => by
    rw [expandInline, resolveInline]
    exact follows_liftM fun value h => isConstant_variableValue around.params hgiven h
  | .message id attr => by
    rw [expandInline, resolveInline]
    exact (around.follow _ _ _ (.toMessage place)).constant
  | .term id attr none => by
    rw [expandInline, resolveInline]
    split
    · exact Follows.behind fun _ => (around.follow _ _ (.inside []) (.some .nil)).constant
    · exact (around.follow _ _ (.inside []) (.some .nil)).constant
  | .term id attr (some (.mk positional named)) => by
    have hnamed := follows_expandNamed around hgiven named
    rw [expandInline, resolveInline]
    have hterm := hnamed.bind fun values constants hvalues =>
      (around.follow (.term id attr) _ (.inside _) (.some hvalues.ofList)).constant
    split
    · exact Follows.behind fun _ => hterm
    · exact hterm
  | .function name (.mk positional named) => by
    rw [expandInline.eq_def, resolveInline]
    dsimp only
    cases formatter? name with
    | none => exact follows_throw _ _
    | some formatter => exact follows_formatting _
  | .placeable expression => by
    rw [expandInline, resolveInline]
    exact follows_expandExpression around hgiven expression

theorem follows_expandNamed (around : Constants scope params follow resolve)
    (hgiven : ConstantArguments arguments place) : (named : List (String × Inline)) →
      Follows (Table.Related IsConstant) (expandNamed scope follow arguments named)
        (resolveNamed (scope.setting params) (scope.setting params).leaking resolve place named)
  | [] => by
    rw [expandNamed, resolveNamed]
    exact follows_pure .nil
  | (name, value) :: named => by
    have hvalue := follows_expandInline around hgiven value
    have hnamed := follows_expandNamed around hgiven named
    rw [expandNamed, resolveNamed]
    exact hvalue.bind fun value constant hconstant => hnamed.bind fun values constants hvalues =>
      follows_pure (.cons ⟨rfl, hconstant⟩ hvalues)

theorem follows_expandExpression (around : Constants scope params follow resolve)
    (hgiven : ConstantArguments arguments place) : (expression : Expression) →
      Follows IsConstant (expandExpression scope follow arguments expression)
        (resolveExpression (scope.setting params) (scope.setting params).leaking resolve place
          expression)
  | .inline value => by
    rw [expandExpression, resolveExpression]
    exact follows_expandInline around hgiven value
  | .select selector variants => by
    have hselector := follows_expandInline around hgiven selector
    have hvariant (kind : VariantKey → Bool → Bool) (index : Nat) :=
      follows_expandVariant around hgiven kind index variants
    rw [expandExpression, resolveExpression]
    refine hselector.bind fun value constant hconstant => ?_
    rw [hconstant]
    cases hdefault : variants.findIdx? (·.isDefault) with
    | none => exact follows_throw _ _
    | some default =>
      obtain ⟨text, hfirst, htext⟩ := hvariant (fun _ isDefault => isDefault) default hdefault
      refine follows_liftM_bind fun chosen hchosen => ?_
      rw [eq_of_chosen? params hchosen, chosenIndex]
      dsimp only
      cases hindex : variants.findIdx? (fun variant =>
          (scope.setting params).selects constant variant.key) with
      | none =>
        rw [resolveFirst_eq_none (fun key _ => (scope.setting params).selects constant key)
          hindex, hfirst]
        exact htext.constant
      | some index =>
        obtain ⟨found, hfound, hvalue⟩ :=
          hvariant (fun key _ => (scope.setting params).selects constant key) index hindex
        rw [hfound]
        exact hvalue.constant

theorem follows_expandVariant (around : Constants scope params follow resolve)
    (hgiven : ConstantArguments arguments place) (kind : VariantKey → Bool → Bool) :
    (index : Nat) → (variants : List Variant) →
      variants.findIdx? (fun variant => kind variant.key variant.isDefault) = some index →
        ∃ text, resolveFirst (scope.setting params) (scope.setting params).leaking resolve place kind
            variants = some text ∧
          Follows IsText (expandVariant scope follow arguments index variants) text
  | _, [], h => nomatch h
  | index, .mk key isDefault value :: variants, h => by
    have helements := follows_expandElements around hgiven
      (scope.isolating && 1 < value.length) value
    have hrest (later : Nat) := follows_expandVariant around hgiven kind later variants
    rw [List.findIdx?_cons] at h
    rw [resolveFirst]
    split at h
    · rename_i hkind
      change kind key isDefault = true at hkind
      obtain rfl := Option.some.inj h
      rw [if_pos hkind, expandVariant]
      exact ⟨_, rfl, helements.into fun parts text hparts => hparts.concat⟩
    · rename_i hkind
      change ¬kind key isDefault = true at hkind
      obtain ⟨later, hlater, rfl⟩ := Option.map_eq_some_iff.mp h
      rw [if_neg hkind, expandVariant]
      exact hrest later hlater

theorem follows_expandElements (around : Constants scope params follow resolve)
    (hgiven : ConstantArguments arguments place) (isolate : Bool) : (elements : List Element) →
      Follows JoinTo (expandElements scope follow arguments isolate elements)
        (resolveElements (scope.setting params) (scope.setting params).leaking resolve place isolate
          elements)
  | [] => by
    rw [expandElements, resolveElements]
    exact follows_pure (Or.inl ⟨rfl, rfl⟩)
  | .text value :: elements => by
    have hrest := follows_expandElements around hgiven isolate elements
    rw [expandElements, resolveElements]
    exact hrest.bind fun parts text hparts => follows_pure (hparts.cons rfl)
  | .placeable expression :: elements => by
    have hvalue := follows_expandExpression around hgiven expression
    have hrest := follows_expandElements around hgiven isolate elements
    rw [expandElements, resolveElements]
    refine Follows.behind fun _ => hvalue.bind fun value constant hconstant =>
      hrest.bind fun parts text hparts => ?_
    unfold placeableText
    cases isolate with
    | false => exact follows_pure (hparts.cons hconstant.constantText?)
    | true =>
      have hend : JoinTo (.text isolateEnd :: parts) (isolateEnd ++ text) := hparts.cons rfl
      have hmarked : JoinTo (.text isolateStart :: value :: .text isolateEnd :: parts)
          (isolateStart ++ constant.printed ++ isolateEnd ++ text) := by
        rw [String.append_assoc, String.append_assoc]
        exact (hend.cons hconstant.constantText?).cons rfl
      exact follows_pure hmarked

end

end

section

variable {scope : Scope} {params : Table Constant}

theorem follows_expandReference (hparams : Table.Related IsConstant scope.params params)
    (depth : Nat) (names : List String) (reference : Reference)
    {arguments : Option (Table Value)} {place : Place}
    (hgiven : ConstantArguments arguments place) :
    Follows IsText (expandReference scope names depth reference arguments)
      (resolveReference (scope.setting params) (scope.setting params).leaking depth reference
        place) := by
  induction depth generalizing names reference arguments place with
  | zero => exact follows_throw _ _
  | succ depth ih =>
    have hinside : Constants scope params (expandReference scope (reference.name :: names) depth)
        (resolveReference (scope.setting params) (scope.setting params).leaking depth) :=
      ⟨hparams, fun other _ _ hother => ih (reference.name :: names) other hother⟩
    rw [expandReference, resolveReference]
    refine follows_liftM_bind fun pattern hpattern => ?_
    have hparts := follows_expandElements hinside hgiven (scope.isolating && 1 < pattern.length)
      pattern
    have hcatalog : (scope.setting params).catalog.pattern reference = .ok pattern := hpattern
    rw [hcatalog]
    split
    · exact Follows.behind fun _ => hparts.into fun parts text h => h.concat
    · exact hparts.into fun parts text h => h.concat

theorem text_of_expand (hparams : Table.Related IsConstant scope.params params)
    {reference : Reference} {value : Value} (h : expand scope reference = .ok value) :
    HaltsAt (scope.setting params) (scope.setting params).leaking reference .formatting ∨
      ∃ text, HasText (scope.setting params) (scope.setting params).leaking reference text ∧
        value = .text text := by
  have hfollows := follows_expandReference hparams (maxPlaceables + 1) [] reference
    (show ConstantArguments none .outside from .none)
  rw [expand, StateT.run'] at h
  cases hrun : expandReference scope [] (maxPlaceables + 1) reference none 0 with
  | error error =>
    rw [hrun] at h
    cases h
  | ok result =>
    rw [hrun] at h
    cases h
    rcases hfollows 0 _ _ hrun with hreached | ⟨text, htext, hvalue⟩
    · exact Or.inl ⟨_, hreached⟩
    · exact Or.inr ⟨text, ⟨_, htext⟩, hvalue⟩

end

variable {catalogs : LocaleCatalogs} {isolating : Bool} {context : Context}
  {arguments : Call.Arguments}

theorem paramValue_of_constantOf? {source : String} {constant : Constant}
    (h : constantOf? source = some constant) : paramValue source = constant.value := by
  unfold constantOf? at h
  unfold paramValue
  cases heval : evaluate source with
  | error error =>
    rw [heval] at h
    cases h
  | ok literal =>
    rw [heval] at h
    cases literal with
    | string text =>
      obtain rfl := Option.some.inj h
      rfl
    | number number =>
      obtain rfl := Option.some.inj h
      rfl
    | _ => cases h

theorem related_constants {entries : List (String × String)} {constants : Table Constant}
    (h : entries.mapM (fun (name, source) => (constantOf? source).map (name, ·)) =
      some constants) :
    Table.Related IsConstant (entries.map fun (name, raw) => (name, paramValue raw)) constants := by
  induction entries generalizing constants with
  | nil =>
    rw [List.mapM_nil] at h
    obtain rfl := Option.some.inj h
    exact .nil
  | cons entry entries ih =>
    rw [List.mapM_cons] at h
    obtain ⟨first, hfirst, hrest⟩ := Option.bind_eq_some_iff.mp h
    obtain ⟨others, hothers, heq⟩ := Option.bind_eq_some_iff.mp hrest
    obtain ⟨constant, hconstant, rfl⟩ := Option.map_eq_some_iff.mp hfirst
    obtain rfl := Option.some.inj heq
    exact .cons ⟨rfl, paramValue_of_constantOf? hconstant⟩ (ih hothers)

theorem related_paramValues {source : Option String} {constants : Table Constant}
    {values : Table Value} (h : constantParams? source = some constants)
    (hvalues : paramValues source = .ok values) : Table.Related IsConstant values constants := by
  cases source with
  | none =>
    cases h
    cases hvalues
    exact .nil
  | some source =>
    obtain ⟨entries, hentries, hrest⟩ := Option.bind_eq_some_iff.mp h
    obtain ⟨read, hread, heq⟩ := Option.bind_eq_some_iff.mp hrest
    obtain rfl := Option.some.inj heq
    unfold paramValues at hvalues
    dsimp only at hvalues
    rw [hentries] at hvalues
    cases hvalues
    exact (related_constants hread).ofList

/-- With params that are strings and numbers, and unless a formatting function is reached, the code
for a call is the text of its message as a string literal, where messages behind terms see the
params. That is the text in which terms are isolated just when both texts are the same, as they are
when no variable leaks. -/
theorem translationCode_of_constants {code : String} {params : Table Constant}
    (hparams : constantParams? arguments.params = some params)
    (h : translationCode catalogs isolating context arguments = .ok code) :
    ∃ locale catalog,
      find? catalogs context (splitKey arguments.key).1 arguments.locale =
        some (locale, catalog) ∧
      let setting : Setting := ⟨catalog, locale, params, isolating⟩
      let reference := keyReference arguments.key
      ¬HaltsAt setting setting.leaking reference .formatting →
        (∃ text, HasText setting setting.leaking reference text ∧ code = quoted text) ∧
        (∀ text, HasText setting setting.isolated reference text →
          (code = quoted text ↔ HasText setting setting.leaking reference text)) ∧
        (¬HaltsAt setting setting.agreed reference .leak →
          ∃ text, HasText setting setting.isolated reference text ∧ code = quoted text) := by
  rw [translationCode_eq] at h
  cases hvalue : messageValue catalogs isolating context arguments with
  | error error =>
    rw [hvalue] at h
    cases h
  | ok value =>
    rw [hvalue] at h
    cases h
    obtain ⟨locale, catalog, values, hfind, hvalues, hexpand⟩ := expand_of_messageValue hvalue
    refine ⟨locale, catalog, hfind, fun hformatting => ?_⟩
    have hrelated := related_paramValues hparams hvalues
    rcases text_of_expand hrelated hexpand with hreached | ⟨text, htext, rfl⟩
    · exact absurd hreached hformatting
    · refine ⟨⟨text, htext, rfl⟩, fun other _ => ?_, fun hleak => ?_⟩
      · constructor
        · intro hcode
          obtain rfl : text = other := Script.quoted_injective hcode
          exact htext
        · intro hother
          rw [hother.unique htext]
          rfl
      · exact ⟨text, htext.isolated hleak, rfl⟩

/-- A message that is reached through a term asks for a param. -/
def leakCatalog : Catalog :=
  (Fluent.parse "-t = \x7b m \x7d\nm = \x7b $x \x7d\nk = \x7b -t \x7d\n".toList).1

def leakArguments : Call.Arguments :=
  ⟨"k", some "\x7b x: 'leak' \x7d", none⟩

theorem find?_leakCatalog {locale : String} {catalog : Catalog}
    (h : find? [("en", leakCatalog)] ⟨"en", "", []⟩ "k" none = some (locale, catalog)) :
    locale = "en" ∧ catalog = leakCatalog := by
  have hlocale : (find? [("en", leakCatalog)] ⟨"en", "", []⟩ "k" none).map (·.1) = some "en" := by
    decide +kernel
  rw [h] at hlocale
  obtain ⟨entry, hentry, rfl⟩ := mem_of_find? h
  obtain rfl := List.mem_singleton.mp hentry
  exact ⟨Option.some.inj hlocale, rfl⟩

theorem translationCode_of_constants_leak :
    let setting : Setting := ⟨leakCatalog, "en", [("x", .text "leak")], false⟩
    constantParams? leakArguments.params = some setting.params ∧
      translationCode [("en", leakCatalog)] false ⟨"en", "", []⟩ leakArguments =
        .ok (quoted "leak") ∧
      HasText setting setting.leaking (keyReference "k") "leak" ∧
      HasText setting setting.isolated (keyReference "k") "\x7b$x\x7d" ∧
      quoted "leak" ≠ quoted "\x7b$x\x7d" := by
  intro setting
  have hparams : constantParams? leakArguments.params = some setting.params := by
    decide +kernel
  have hcode : translationCode [("en", leakCatalog)] false ⟨"en", "", []⟩ leakArguments =
      .ok (quoted "leak") := by
    decide +kernel
  have hleaking : HasText setting setting.leaking (keyReference "k") "leak" :=
    ⟨3, by decide +kernel⟩
  have hisolated : HasText setting setting.isolated (keyReference "k") "\x7b$x\x7d" :=
    ⟨3, by decide +kernel⟩
  refine ⟨hparams, hcode, hleaking, hisolated, fun heq => ?_⟩
  obtain ⟨locale, catalog, hfind, hresolved⟩ := translationCode_of_constants hparams hcode
  obtain ⟨rfl, rfl⟩ := find?_leakCatalog hfind
  obtain ⟨_, hiff, _⟩ := hresolved (hleaking.not_haltsAt (by decide))
  exact absurd (((hiff _ hisolated).mp heq).unique hleaking) (by decide)

end TemplateMessages.Fluent
