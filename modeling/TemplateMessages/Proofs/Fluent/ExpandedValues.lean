import TemplateMessages.Proofs.Fluent.ValueCode
import TemplateMessages.Proofs.Table

set_option autoImplicit false

/-!
# Values that patterns expand to

Whatever a pattern of a catalog expands to is built of constants and of the source texts of the
params. The induction is on the syntax inside one pattern and on the depth of references across
patterns.
-/

namespace TemplateMessages.Fluent

open TemplateMessages.Translation (TranslationError)

/-- Every result of an expansion has a property. -/
def Yields {α : Type} (P : α → Prop) (expanding : Expanding α) : Prop :=
  ∀ count result after, expanding count = .ok (result, after) → P result

section

variable {α β : Type} {P : α → Prop} {Q : β → Prop}

theorem yields_pure {result : α} (h : P result) : Yields P (pure result) := by
  rintro count _ _ ⟨⟩
  exact h

theorem yields_throw (error : TranslationError) : Yields P (throw error) := by
  intro count result after h
  cases h

theorem yields_throw_bind (error : TranslationError) (next : α → Expanding β) :
    Yields Q (throw error >>= next) := by
  intro count result after h
  cases h

theorem Yields.bind {expanding : Expanding α} {next : α → Expanding β} (h : Yields P expanding)
    (hnext : ∀ result, P result → Yields Q (next result)) : Yields Q (expanding >>= next) := by
  intro count result after heq
  change (expanding count >>= fun pair => next pair.1 pair.2) = .ok (result, after) at heq
  cases hfirst : expanding count with
  | error error =>
    rw [hfirst] at heq
    cases heq
  | ok pair =>
    obtain ⟨first, middle⟩ := pair
    rw [hfirst] at heq
    exact hnext first (h count first middle hfirst) middle result after heq

theorem yields_liftM {computed : Except TranslationError α}
    (h : ∀ result, computed = .ok result → P result) :
    Yields P (liftM computed : Expanding α) := by
  intro count result after heq
  cases computed with
  | error error => cases heq
  | ok value =>
    cases heq
    exact h result rfl

theorem yields_true (expanding : Expanding α) : Yields (fun _ => True) expanding :=
  fun _ _ _ _ => trivial

end

variable {sources : List String}

theorem built_joinConstants {parts : List Value} (h : ∀ part ∈ parts, part.Built sources) :
    ∀ part ∈ Value.joinConstants parts, part.Built sources := by
  induction parts with
  | nil => exact h
  | cons value parts ih =>
    have hjoined := ih fun part hpart => h part (.tail _ hpart)
    intro part hpart
    rw [Value.joinConstants] at hpart
    split at hpart
    · rcases List.mem_cons.mp hpart with rfl | htail
      · exact h part List.mem_cons_self
      · exact hjoined part htail
    · rename_i back joined _ heq
      rcases List.mem_cons.mp hpart with rfl | htail
      · exact .text _
      · apply hjoined
        rw [heq]
        exact .tail _ htail
    · rcases List.mem_cons.mp hpart with rfl | htail
      · exact .text _
      · exact hjoined part htail

theorem built_concat {parts : List Value} (h : ∀ part ∈ parts, part.Built sources) :
    (Value.concat parts).Built sources := by
  have hkept : ∀ part ∈ (Value.joinConstants parts).filter (!·.isEmptyText), part.Built sources :=
    fun part hpart => built_joinConstants h part ((List.mem_filter.mp hpart).1)
  unfold Value.concat
  split
  · exact .text ""
  · rename_i value heq
    apply hkept
    rw [heq]
    exact List.mem_singleton_self value
  · rename_i hnil hsingle
    generalize (Value.joinConstants parts).filter (!·.isEmptyText) = kept at *
    refine .sum ?_ hkept
    match kept with
    | [] => exact absurd rfl hnil
    | [value] => exact absurd rfl (hsingle value)
    | _ :: _ :: _ =>
      simp only [List.length_cons]
      omega

/-- The arguments of a term are built of the source texts. -/
def BuiltArguments (sources : List String) (arguments : Option (Table Value)) : Prop :=
  ∀ table, arguments = some table → ∀ entry ∈ table, entry.2.Built sources

theorem builtArguments_none : BuiltArguments sources none := by
  rintro table ⟨⟩

theorem built_numberValue (text : String) : (numberValue text).Built sources := by
  unfold numberValue
  split
  · exact .number _
  · exact .text _

theorem plainPattern_of_variant {key : VariantKey} {isDefault : Bool} {value : Pattern}
    (h : (Variant.mk key isDefault value).Plain) : PlainPattern value := by
  cases h with
  | mk _ hkey hvalue => exact hvalue

section

variable {scope : Scope} {follow : Reference → Option (Table Value) → Expanding Value}
  {arguments : Option (Table Value)}

/-- The params are built of the source texts, and so is what a reference expands to. -/
structure Surroundings (sources : List String) (scope : Scope)
    (follow : Reference → Option (Table Value) → Expanding Value) : Prop where
  params : ∀ entry ∈ scope.params, entry.2.Built sources
  follow : ∀ reference given, BuiltArguments sources given →
    Yields (Value.Built sources) (follow reference given)

theorem built_variableValue (hparams : ∀ entry ∈ scope.params, entry.2.Built sources)
    (harguments : BuiltArguments sources arguments) {name : String} {value : Value}
    (h : variableValue scope arguments name = .ok value) : value.Built sources := by
  cases arguments with
  | none =>
    unfold variableValue at h
    dsimp only at h
    split at h
    · rename_i found hget
      cases h
      obtain ⟨entry, hentry, rfl⟩ := Table.mem_of_get? hget
      exact hparams entry hentry
    · cases h
  | some table =>
    cases h
    cases hget : table.get? name with
    | none => exact .text _
    | some found =>
      obtain ⟨entry, hentry, rfl⟩ := Table.mem_of_get? hget
      exact harguments table rfl entry hentry

mutual

theorem yields_expandInline (around : Surroundings sources scope follow)
    (harguments : BuiltArguments sources arguments) :
    (inline : Inline) → inline.Plain →
      Yields (Value.Built sources) (expandInline scope follow arguments inline)
  | .string raw, _ => by
    rw [expandInline]
    exact yields_pure (.text _)
  | .number text, _ => by
    rw [expandInline]
    exact yields_pure (built_numberValue text)
  | .variable name, _ => by
    rw [expandInline]
    exact yields_liftM fun value h => built_variableValue around.params harguments h
  | .message id attr, _ => by
    rw [expandInline]
    exact around.follow _ _ builtArguments_none
  | .term id attr none, _ => by
    have hnone : BuiltArguments sources (some []) := by
      rintro table ⟨⟩ entry hentry
      cases hentry
    rw [expandInline]
    split
    · exact yields_throw_bind _ _
    · exact around.follow _ _ hnone
  | .term id attr (some (.mk positional named)), h => by
    cases h with
    | term _ _ hgiven =>
      have hplain := hgiven _ rfl
      obtain ⟨_, hnames, hnamed⟩ := hplain
      have hvalues := yields_expandNamed around harguments named hnames hnamed
      rw [expandInline]
      split
      · exact yields_throw_bind _ _
      · refine hvalues.bind fun values hbuilt => around.follow _ _ ?_
        rintro table ⟨⟩ entry hentry
        exact (hbuilt entry (Table.mem_ofList hentry)).2
  | .function name (.mk positional named), h => by
    cases h with
    | function _ hgiven =>
      obtain ⟨hpositional, hnames, hnamed⟩ := hgiven
      have hvalues := yields_expandNamed around harguments named hnames hnamed
      rw [expandInline.eq_def]
      dsimp only
      split
      · exact yields_throw _
      · rename_i formatter hformatter
        match positional with
        | [] => exact yields_throw _
        | first :: _ =>
          have hfirst := yields_expandInline around harguments first
            (hpositional first List.mem_cons_self)
          refine hfirst.bind fun argument hargument => hvalues.bind fun options hoptions => ?_
          exact yields_pure (.formatted scope.locale hformatter hargument
            (fun option h => (hoptions option h).1) fun option h => (hoptions option h).2)
  | .placeable expression, h => by
    cases h with
    | placeable hexpression =>
      rw [expandInline]
      exact yields_expandExpression around harguments expression hexpression

theorem yields_expandNamed (around : Surroundings sources scope follow)
    (harguments : BuiltArguments sources arguments) :
    (named : List (String × Inline)) → (∀ entry ∈ named, IsPlain entry.1) →
      (∀ entry ∈ named, entry.2.Plain) →
      Yields (fun values => ∀ entry ∈ values, IsPlain entry.1 ∧ entry.2.Built sources)
        (expandNamed scope follow arguments named)
  | [], _, _ => by
    rw [expandNamed]
    exact yields_pure fun entry hentry => nomatch hentry
  | (name, value) :: named, hnames, hnamed => by
    have hvalue := yields_expandInline around harguments value (hnamed _ List.mem_cons_self)
    have hvalues := yields_expandNamed around harguments named
      (fun entry hentry => hnames entry (.tail _ hentry))
      fun entry hentry => hnamed entry (.tail _ hentry)
    rw [expandNamed]
    refine hvalue.bind fun result hresult => hvalues.bind fun results hresults => yields_pure ?_
    intro entry hentry
    rcases List.mem_cons.mp hentry with rfl | htail
    · exact ⟨hnames (name, value) List.mem_cons_self, hresult⟩
    · exact hresults entry htail

theorem yields_expandExpression (around : Surroundings sources scope follow)
    (harguments : BuiltArguments sources arguments) :
    (expression : Expression) → expression.Plain →
      Yields (Value.Built sources) (expandExpression scope follow arguments expression)
  | .inline value, h => by
    cases h with
    | inline hvalue =>
      rw [expandExpression]
      exact yields_expandInline around harguments value hvalue
  | .select selector variants, h => by
    cases h with
    | select hselector hvariants =>
      have hselected := yields_expandInline around harguments selector hselector
      have harms := yields_expandVariants around harguments variants hvariants
      have hchosen (index : Nat) := yields_expandVariant around harguments index variants hvariants
      have hkeys : ∀ variant ∈ variants, variant.key.IsPlain := by
        intro variant hvariant
        cases hvariants variant hvariant with
        | mk isDefault hkey hvalue => exact hkey
      rw [expandExpression]
      refine hselected.bind fun value hvalue => ?_
      split
      · exact yields_throw _
      · rename_i default _
        refine (yields_true _).bind fun chosen _ => ?_
        cases chosen with
        | some index => exact hchosen index
        | none =>
          exact harms.bind fun arms hbuilt =>
            yields_pure (.selection scope.locale default hvalue hkeys hbuilt)

theorem yields_expandVariant (around : Surroundings sources scope follow)
    (harguments : BuiltArguments sources arguments) :
    (index : Nat) → (variants : List Variant) → (∀ variant ∈ variants, variant.Plain) →
      Yields (Value.Built sources) (expandVariant scope follow arguments index variants)
  | 0, [], _ => by
    rw [expandVariant]
    exact yields_pure (.text "")
  | index + 1, [], _ => by
    rw [expandVariant]
    exact yields_pure (.text "")
  | 0, .mk key isDefault value :: variants, h => by
    have hpattern := plainPattern_of_variant (h _ List.mem_cons_self)
    have hparts := yields_expandElements around harguments
      (scope.isolating && 1 < value.length) value hpattern
    rw [expandVariant]
    exact hparts.bind fun parts hbuilt => yields_pure (built_concat hbuilt)
  | index + 1, variant :: variants, h => by
    rw [expandVariant]
    exact yields_expandVariant around harguments index variants fun other hother =>
      h other (.tail _ hother)

theorem yields_expandVariants (around : Surroundings sources scope follow)
    (harguments : BuiltArguments sources arguments) :
    (variants : List Variant) → (∀ variant ∈ variants, variant.Plain) →
      Yields (fun values => ∀ value ∈ values, value.Built sources)
        (expandVariants scope follow arguments variants)
  | [], _ => by
    rw [expandVariants]
    exact yields_pure fun value hvalue => nomatch hvalue
  | .mk key isDefault value :: variants, h => by
    have hpattern := plainPattern_of_variant (h _ List.mem_cons_self)
    have hparts := yields_expandElements around harguments
      (scope.isolating && 1 < value.length) value hpattern
    have hothers := yields_expandVariants around harguments variants fun other hother =>
      h other (.tail _ hother)
    rw [expandVariants]
    refine hparts.bind fun parts hbuilt => hothers.bind fun values hvalues => yields_pure ?_
    intro result hresult
    rcases List.mem_cons.mp hresult with rfl | htail
    · exact built_concat hbuilt
    · exact hvalues result htail

theorem yields_expandElements (around : Surroundings sources scope follow)
    (harguments : BuiltArguments sources arguments) (isolate : Bool) :
    (elements : List Element) → PlainPattern elements →
      Yields (fun parts => ∀ part ∈ parts, part.Built sources)
        (expandElements scope follow arguments isolate elements)
  | [], _ => by
    rw [expandElements]
    exact yields_pure fun part hpart => nomatch hpart
  | .text value :: elements, h => by
    have hothers := yields_expandElements around harguments isolate elements fun other hother =>
      h other (.tail _ hother)
    rw [expandElements]
    refine hothers.bind fun parts hbuilt => yields_pure ?_
    intro part hpart
    rcases List.mem_cons.mp hpart with rfl | htail
    · exact .text value
    · exact hbuilt part htail
  | .placeable expression :: elements, h => by
    have hexpression : expression.Plain := by
      cases h _ List.mem_cons_self with
      | placeable hexpression => exact hexpression
    have hvalue := yields_expandExpression around harguments expression hexpression
    have hothers := yields_expandElements around harguments isolate elements fun other hother =>
      h other (.tail _ hother)
    rw [expandElements]
    refine (yields_true _).bind fun _ _ => hvalue.bind fun value hbuilt =>
      hothers.bind fun parts hparts => ?_
    have hvalues : ∀ part ∈ value :: parts, part.Built sources := by
      intro part hpart
      rcases List.mem_cons.mp hpart with rfl | htail
      · exact hbuilt
      · exact hparts part htail
    split
    · apply yields_pure
      intro part hpart
      simp only [List.mem_cons] at hpart
      rcases hpart with rfl | rfl | rfl | hpart
      · exact .text _
      · exact hbuilt
      · exact .text _
      · exact hparts part hpart
    · exact yields_pure hvalues

end

end

theorem plainPattern_attribute? {attributes : List (String × Pattern)} {name : String}
    {pattern : Pattern} (h : PlainAttributes attributes)
    (hfound : attribute? attributes name = some pattern) : PlainPattern pattern := by
  obtain ⟨attr, hattr, rfl⟩ := Option.map_eq_some_iff.mp hfound
  exact h attr (List.mem_of_find?_eq_some hattr)

theorem Catalog.Plain.pattern {catalog : Catalog} (h : catalog.Plain) {reference : Reference}
    {pattern : Pattern} (hfound : catalog.pattern reference = .ok pattern) :
    PlainPattern pattern := by
  cases reference with
  | message id attr =>
    unfold Catalog.pattern at hfound
    dsimp only at hfound
    split at hfound
    · cases hfound
    · rename_i message hget
      obtain ⟨entry, hentry, rfl⟩ := Table.mem_of_get? hget
      split at hfound
      · split at hfound
        · rename_i hattr
          cases hfound
          exact plainPattern_attribute? (h.attributes entry hentry) hattr
        · cases hfound
      · split at hfound
        · rename_i hvalue
          cases hfound
          exact h.value entry hentry _ hvalue
        · cases hfound
  | term id attr =>
    unfold Catalog.pattern at hfound
    dsimp only at hfound
    split at hfound
    · cases hfound
    · rename_i term hget
      obtain ⟨entry, hentry, rfl⟩ := Table.mem_of_get? hget
      split at hfound
      · split at hfound
        · rename_i hattr
          cases hfound
          exact plainPattern_attribute? (h.termAttributes entry hentry) hattr
        · cases hfound
      · cases hfound
        exact h.termValue entry hentry

theorem yields_expandReference {scope : Scope} (hcatalog : scope.catalog.Plain)
    (hparams : ∀ entry ∈ scope.params, entry.2.Built sources) (depth : Nat)
    (around : List String) (reference : Reference) {arguments : Option (Table Value)}
    (harguments : BuiltArguments sources arguments) :
    Yields (Value.Built sources) (expandReference scope around depth reference arguments) := by
  induction depth generalizing around reference arguments with
  | zero => exact yields_throw _
  | succ depth ih =>
    have hinside : Surroundings sources scope
        (expandReference scope (reference.name :: around) depth) :=
      ⟨hparams, fun other given hgiven => ih (reference.name :: around) other hgiven⟩
    rw [expandReference]
    refine (yields_liftM fun pattern h => hcatalog.pattern h).bind fun pattern hpattern => ?_
    have hparts := yields_expandElements hinside harguments (scope.isolating && 1 < pattern.length)
      pattern hpattern
    split
    · exact yields_throw_bind _ _
    · exact hparts.bind fun parts hbuilt => yields_pure (built_concat hbuilt)

/-- The value of a message is built of constants and source texts. -/
theorem built_of_expand {scope : Scope} {reference : Reference} {value : Value}
    (hcatalog : scope.catalog.Plain) (hparams : ∀ entry ∈ scope.params, entry.2.Built sources)
    (h : expand scope reference = .ok value) : value.Built sources := by
  have hyields := yields_expandReference hcatalog hparams (maxPlaceables + 1) [] reference
    builtArguments_none
  rw [expand, StateT.run'] at h
  cases hrun : expandReference scope [] (maxPlaceables + 1) reference none 0 with
  | error error =>
    rw [hrun] at h
    cases h
  | ok result =>
    rw [hrun] at h
    cases h
    exact hyields 0 _ _ hrun

end TemplateMessages.Fluent
