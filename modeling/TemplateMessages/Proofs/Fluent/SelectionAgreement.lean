import TemplateMessages.Proofs.Fluent.SelectorCode

set_option autoImplicit false

/-!
# Selection when a template is built and when it renders

A constant selector takes the first variant that matches, the default one among them. The generated
code leaves the default one out, so it goes on to a later variant when the default one is the first
that matches.
-/

namespace TemplateMessages.Fluent

open TemplateMessages.Translation (TranslationError)

/-- The default variant is the first that matches, and a later one matches too. -/
def DefaultHides (matching : VariantKey → Bool) (variants : List Variant) (default : Nat) : Prop :=
  variants.findIdx? (fun variant => matching variant.key) = some default ∧
    ∃ later ∈ variants.drop (default + 1), matching later.key = true

section

variable {matching : VariantKey → Bool} {variants : List Variant} {default index : Nat}

theorem returnedIndex_of_none
    (h : variants.findIdx? (fun variant => matching variant.key) = none) :
    returnedIndex default matching index variants = default := by
  induction variants generalizing index with
  | nil => rfl
  | cons variant variants ih =>
    rw [List.findIdx?_cons] at h
    split at h
    · cases h
    · rename_i hmatch
      rw [returnedIndex, if_neg (fun hboth => hmatch hboth.2)]
      exact ih (Option.map_eq_none_iff.mp h)

theorem returnedIndex_of_some {first : Nat}
    (h : variants.findIdx? (fun variant => matching variant.key) = some first) :
    returnedIndex default matching index variants =
      if index + first ≠ default then index + first
      else returnedIndex default matching (index + first + 1) (variants.drop (first + 1)) := by
  induction variants generalizing index first with
  | nil => cases h
  | cons variant variants ih =>
    rw [List.findIdx?_cons] at h
    split at h
    · rename_i hmatch
      obtain rfl := Option.some.inj h
      simp only [returnedIndex, Nat.add_zero]
      by_cases hdefault : index = default
      · rw [if_neg (fun hboth => hboth.1 hdefault), if_neg (fun hne => hne hdefault)]
        rfl
      · rw [if_pos ⟨hdefault, hmatch⟩, if_pos hdefault]
    · rename_i hmatch
      obtain ⟨later, hlater, rfl⟩ := Option.map_eq_some_iff.mp h
      rw [returnedIndex, if_neg (fun hboth => hmatch hboth.2), ih hlater]
      rw [List.drop_succ_cons, Nat.add_assoc index 1 later, Nat.add_comm 1 later]

theorem returnedIndex_eq_default_iff (hindex : default < index) :
    returnedIndex default matching index variants = default ↔
      ∀ variant ∈ variants, matching variant.key = false := by
  cases hfirst : variants.findIdx? (fun variant => matching variant.key) with
  | none =>
    rw [returnedIndex_of_none hfirst]
    simpa [List.findIdx?_eq_none_iff] using hfirst
  | some first =>
    rw [returnedIndex_of_some hfirst, if_pos (by omega)]
    have hany : variants.any (fun variant => matching variant.key) = true := by
      rw [← List.findIdx?_isSome, hfirst]
      rfl
    obtain ⟨variant, hvariant, hmatch⟩ := List.any_eq_true.mp hany
    constructor
    · intro heq
      omega
    · intro hnone
      rw [hnone variant hvariant] at hmatch
      cases hmatch

theorem chosenIndex_eq_returnedIndex_iff :
    chosenIndex variants default matching = returnedIndex default matching 0 variants ↔
      ¬DefaultHides matching variants default := by
  unfold chosenIndex DefaultHides
  cases hfirst : variants.findIdx? (fun variant => matching variant.key) with
  | none =>
    rw [returnedIndex_of_none hfirst]
    simp
  | some first =>
    rw [returnedIndex_of_some hfirst, Nat.zero_add, Option.getD_some]
    by_cases hdefault : first = default
    · subst hdefault
      rw [if_neg (by simp), eq_comm, returnedIndex_eq_default_iff (Nat.lt_succ_self _)]
      simp
    · rw [if_pos hdefault]
      simp [hdefault]

end

section

variable {scope : Scope} {follow : Reference → Option (Table Value) → Expanding Value}
  {arguments : Option (Table Value)} {name : String} {variants : List Variant} {default : Nat}

theorem liftM_ok_bind {α β : Type} (a : α) (f : α → Expanding β) :
    ((liftM (Except.ok a : Except TranslationError α) : Expanding α) >>= f) = f a :=
  rfl

theorem chosen?_of_subject {value : Value} {names : Script.Names} {matching : VariantKey → Bool}
    (subject : Subject scope value names matching) :
    scope.chosen? value variants default =
      .ok (some (chosenIndex variants default matching)) := by
  cases subject with
  | number found =>
    simp only [Scope.chosen?, Value.countable?, found]
    rfl
  | text value => rfl

theorem expandExpression_of_chosen {value : Value} {index count : Nat}
    (hvalue : variableValue scope arguments name = .ok value)
    (hdefault : variants.findIdx? (·.isDefault) = some default)
    (hchosen : scope.chosen? value variants default = .ok (some index)) :
    expandExpression scope follow arguments (.select (.variable name) variants) count =
      expandVariant scope follow arguments index variants count := by
  simp only [expandExpression, expandInline, hvalue, hdefault, liftM_ok_bind, hchosen]

theorem expandExpression_of_code {code : String}
    (hvalue : variableValue scope arguments name = .ok (.code code))
    (hdefault : variants.findIdx? (·.isDefault) = some default) :
    expandExpression scope follow arguments (.select (.variable name) variants) = (do
      let arms ← expandVariants scope follow arguments variants
      return .code (selectionCode scope.locale (.code code) variants default arms)) := by
  have hchosen : scope.chosen? (.code code) variants default = .ok none := rfl
  simp only [expandExpression, expandInline, hvalue, hdefault, liftM_ok_bind, hchosen]

/-- For a selector that is a variable, the variant that its constant picks is the one that the
generated code returns, unless the default variant hides a later one. -/
theorem select_agrees_iff (follow : Reference → Option (Table Value) → Expanding Value)
    (arguments : Option (Table Value)) {value : Value} {names : Script.Names}
    {matching : VariantKey → Bool}
    (hvalue : variableValue scope arguments name = .ok value)
    (subject : Subject scope value names matching)
    (hdefault : variants.findIdx? (·.isDefault) = some default)
    (hkeys : ∀ variant ∈ variants, variant.key.ReadsBack) :
    ∃ chosen returned,
      expandExpression scope follow arguments (.select (.variable name) variants) =
        expandVariant scope follow arguments chosen variants ∧
      Script.run names (indexCode default 0 variants).toList = some (.number (.ofNat returned)) ∧
      (chosen = returned ↔ ¬DefaultHides matching variants default) := by
  refine ⟨_, _, ?_, run_indexCode subject default hkeys, chosenIndex_eq_returnedIndex_iff⟩
  funext count
  exact expandExpression_of_chosen hvalue hdefault (chosen?_of_subject subject)

end

def defaultFirst : List Variant :=
  [.mk (.name "other") true [.text "many"], .mk (.number "5") false [.text "five"]]

def fiveScope : Scope :=
  ⟨⟨[], []⟩, "en", "m", [("n", .number (.ofNat 5))], false⟩

theorem category_fiveScope : fiveScope.category (.ofNat 5) = .ok .other := by
  have hrules : (Plural.cardinalRules? "en").map (Plural.Rules.category · (.ofNat 5)) =
      some .other := by decide +kernel
  obtain ⟨rules, hfound, hcategory⟩ := Option.map_eq_some_iff.mp hrules
  have hlocale : Plural.cardinalRules? fiveScope.locale = some rules := hfound
  rw [Scope.category, hlocale, ← hcategory]

theorem select_agrees_iff_defaultFirst :
    ∃ chosen returned,
      expandExpression fiveScope (fun _ _ => pure default) none
          (.select (.variable "n") defaultFirst) =
        expandVariant fiveScope (fun _ _ => pure default) none chosen defaultFirst ∧
      Script.run (selectorNames (.number (.ofNat 5)) (.string "other".toList))
          (indexCode 0 0 defaultFirst).toList = some (.number (.ofNat returned)) ∧
      chosen ≠ returned := by
  have hkeys : ∀ variant ∈ defaultFirst, variant.key.ReadsBack := by
    intro variant hvariant
    rcases List.mem_cons.mp hvariant with rfl | hvariant
    · trivial
    · rw [List.mem_singleton.mp hvariant]
      exact ⟨.ofNat 5, .ofNat 5, by decide +kernel, by decide +kernel, by decide +kernel⟩
  have hvalue : variableValue fiveScope none "n" = .ok (.number (.ofNat 5)) := rfl
  have hdefault : defaultFirst.findIdx? (·.isDefault) = some 0 := rfl
  have hhides : DefaultHides (·.matchesNumber (.ofNat 5) .other) defaultFirst 0 :=
    ⟨by decide +kernel, _, List.mem_cons_self, by decide +kernel⟩
  obtain ⟨chosen, returned, hchosen, hreturned, hiff⟩ :=
    select_agrees_iff (fun _ _ => pure default) none hvalue (.number category_fiveScope) hdefault
      hkeys
  exact ⟨chosen, returned, hchosen, hreturned, fun heq => hiff.mp heq hhides⟩

end TemplateMessages.Fluent
