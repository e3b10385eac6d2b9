import TemplateMessages.Proofs.Fluent.AbsentReferences

set_option autoImplicit false

/-!
# Fallback to another locale

A key is looked for in the first locale of the chain that has its message. Where that one lacks the
part that the key asks for, the other locales are not asked any more, so that a later one which has
the part is hidden.
-/

namespace TemplateMessages.Fluent

open TemplateMessages.Translation (TranslationError Context Replacement)

def Catalog.Carries (catalog : Catalog) (id : String) (attr : Option String) : Prop :=
  ∃ message, catalog.messages.get? id = some message ∧
    match attr with
    | none => message.value.isSome = true
    | some attr => attr ∈ message.attributes.map Prod.fst

def HasMessage (catalogs : LocaleCatalogs) (id locale : String) : Prop :=
  ∃ catalog, catalogs.get? locale = some catalog ∧ (catalog.messages.get? id).isSome = true

/-- The locale has the part of the message. -/
def HasPart (catalogs : LocaleCatalogs) (id : String) (attr : Option String)
    (locale : String) : Prop :=
  ∃ catalog, catalogs.get? locale = some catalog ∧ catalog.Carries id attr

def FirstHasPart (catalogs : LocaleCatalogs) (id : String) (attr : Option String)
    (chain : List String) : Prop :=
  ∃ front locale back, chain = front ++ locale :: back ∧
    (∀ other ∈ front, ¬HasMessage catalogs id other) ∧ HasPart catalogs id attr locale

def FirstLacksPart (catalogs : LocaleCatalogs) (id : String) (attr : Option String)
    (chain : List String) : Prop :=
  ∃ front locale back, chain = front ++ locale :: back ∧
    (∀ other ∈ front, ¬HasMessage catalogs id other) ∧ HasMessage catalogs id locale ∧
      ¬HasPart catalogs id attr locale

/-- The first locale of the chain with the message lacks the part, which a later one has. -/
def PartHidden (catalogs : LocaleCatalogs) (id : String) (attr : Option String)
    (chain : List String) : Prop :=
  ∃ front locale back, chain = front ++ locale :: back ∧
    (∀ other ∈ front, ¬HasMessage catalogs id other) ∧ HasMessage catalogs id locale ∧
      ¬HasPart catalogs id attr locale ∧ ∃ later ∈ back, HasPart catalogs id attr later

section

variable {catalogs : LocaleCatalogs} {catalog : Catalog} {id locale : String}
  {attr : Option String} {chain : List String}

theorem HasPart.hasMessage (h : HasPart catalogs id attr locale) : HasMessage catalogs id locale := by
  obtain ⟨catalog, hcatalog, message, hmessage, _⟩ := h
  exact ⟨catalog, hcatalog, by rw [hmessage]; rfl⟩

theorem FirstHasPart.exists_mem (h : FirstHasPart catalogs id attr chain) :
    ∃ locale ∈ chain, HasPart catalogs id attr locale := by
  obtain ⟨front, locale, back, rfl, _, hpart⟩ := h
  exact ⟨locale, List.mem_append_right _ List.mem_cons_self, hpart⟩

theorem not_firstHasPart_of_partHidden (h : PartHidden catalogs id attr chain) :
    ¬FirstHasPart catalogs id attr chain := by
  obtain ⟨front, locale, back, rfl, hfront, hmessage, hnone, _⟩ := h
  rintro ⟨front', locale', back', hchain, hfront', hpart⟩
  rcases List.append_eq_append_iff.mp hchain with ⟨middle, rfl, hrest⟩ | ⟨middle, rfl, hrest⟩
  · cases middle with
    | nil =>
      obtain rfl : locale = locale' := (List.cons.inj hrest).1
      exact hnone hpart
    | cons other middle =>
      obtain rfl : locale = other := (List.cons.inj hrest).1
      exact hfront' locale (by simp) hmessage
  · cases middle with
    | nil =>
      obtain rfl : locale' = locale := (List.cons.inj hrest).1
      exact hnone hpart
    | cons other middle =>
      obtain rfl : locale' = other := (List.cons.inj hrest).1
      exact hfront locale' (by simp) hpart.hasMessage

theorem firstHasPart_or_partHidden (hlocale : locale ∈ chain)
    (hpart : HasPart catalogs id attr locale) :
    FirstHasPart catalogs id attr chain ∨ PartHidden catalogs id attr chain := by
  induction chain with
  | nil => cases hlocale
  | cons first chain ih =>
    by_cases hfirst : HasPart catalogs id attr first
    · exact Or.inl ⟨[], first, chain, rfl, by simp, hfirst⟩
    · have hlater : locale ∈ chain := by
        rcases List.mem_cons.mp hlocale with rfl | hlater
        · exact absurd hpart hfirst
        · exact hlater
      by_cases hmessage : HasMessage catalogs id first
      · exact Or.inr ⟨[], first, chain, rfl, by simp, hmessage, hfirst, locale, hlater, hpart⟩
      · have hfront {front : List String} (h : ∀ other ∈ front, ¬HasMessage catalogs id other) :
            ∀ other ∈ first :: front, ¬HasMessage catalogs id other := by
          intro other hother
          rcases List.mem_cons.mp hother with rfl | hmore
          · exact hmessage
          · exact h other hmore
        rcases ih hlater with ⟨front, found, back, rfl, hnone, h⟩ | ⟨front, found, back, rfl, hnone, h⟩
        · exact Or.inl ⟨first :: front, found, back, rfl, hfront hnone, h⟩
        · exact Or.inr ⟨first :: front, found, back, rfl, hfront hnone, h⟩

@[simp] theorem attribute?_isSome (attributes : List (String × Pattern)) (name : String) :
    (attribute? attributes name).isSome = true ↔ name ∈ attributes.map Prod.fst := by
  rw [attribute?, Option.isSome_map, List.find?_isSome, List.mem_map]
  simp only [beq_iff_eq]

theorem pattern_unknown (h : catalog.messages.get? id = none) (attr : Option String) :
    catalog.pattern (.message id attr) = .error (.unknownMessage id) := by
  unfold Catalog.pattern
  dsimp only
  rw [h]

theorem pattern_value {message : Message} (h : catalog.messages.get? id = some message) :
    catalog.pattern (.message id none) = message.value.elim (.error (.noValue id)) .ok := by
  simp only [Catalog.pattern, h]
  cases message.value <;> rfl

theorem pattern_attribute {message : Message} (h : catalog.messages.get? id = some message)
    (attr : String) : catalog.pattern (.message id (some attr)) =
      (attribute? message.attributes attr).elim
        (.error (.unknownAttribute (Reference.name (.message id (some attr))))) .ok := by
  simp only [Catalog.pattern, h]
  cases attribute? message.attributes attr <;> rfl

theorem exists_pattern_iff_carries :
    (∃ pattern, catalog.pattern (.message id attr) = .ok pattern) ↔ catalog.Carries id attr := by
  unfold Catalog.Carries
  cases hget : catalog.messages.get? id with
  | none =>
    rw [pattern_unknown hget]
    simp
  | some message =>
    cases attr with
    | none =>
      rw [pattern_value hget]
      cases hvalue : message.value <;> simp [hvalue]
    | some attr =>
      simp only [pattern_attribute hget, Option.some.injEq, exists_eq_left', ← attribute?_isSome]
      cases attribute? message.attributes attr <;> simp

theorem error_of_part {error : TranslationError}
    (h : catalog.pattern (.message id attr) = .error error)
    (hmessage : (catalog.messages.get? id).isSome = true) :
    error = .noValue (Reference.name (.message id attr)) ∨
      error = .unknownAttribute (Reference.name (.message id attr)) := by
  obtain ⟨message, hget⟩ := Option.isSome_iff_exists.mp hmessage
  cases attr with
  | none =>
    rw [pattern_value hget] at h
    cases hvalue : message.value <;> rw [hvalue] at h <;> cases h
    exact Or.inl rfl
  | some attr =>
    rw [pattern_attribute hget] at h
    cases hattr : attribute? message.attributes attr <;> rw [hattr] at h <;> cases h
    exact Or.inr rfl

theorem absentName?_of_pattern {error : TranslationError}
    (h : catalog.pattern (.message id attr) = .error error)
    (hmessage : (catalog.messages.get? id).isSome = true) :
    absentName? error = some (Reference.name (.message id attr)) := by
  rcases error_of_part h hmessage with rfl | rfl <;> rfl

theorem exists_of_absentName? {error : TranslationError} {reference : Reference} {name : String}
    (h : catalog.pattern reference = .error error) (habsent : absentName? error = some name) :
    ∃ absent : Reference, absent.id = reference.id ∧ absent.name = name ∧
      catalog.pattern absent = .error error := by
  cases reference with
  | term id attr =>
    -- only of an attribute of a term it is said so
    refine ⟨.term id attr, rfl, ?_, h⟩
    unfold Catalog.pattern at h
    dsimp only at h
    split at h
    · cases h
      cases habsent
    · split at h
      · split at h
        · cases h
        · cases h
          exact Option.some.inj habsent
      · cases h
  | message id attr =>
    cases hget : catalog.messages.get? id with
    | some message =>
      have hname := absentName?_of_pattern h (by rw [hget]; rfl)
      exact ⟨.message id attr, rfl, Option.some.inj (hname.symm.trans habsent), h⟩
    | none =>
      rw [pattern_unknown hget] at h
      cases h
      exact ⟨.message id none, rfl, Option.some.inj habsent, pattern_unknown hget none⟩

end

@[simp] theorem name_keyReference (key : String) : (keyReference key).name = key := by
  have happend := List.takeWhile_append_dropWhile (p := (· ≠ '.')) (l := key.toList)
  unfold keyReference splitKey
  dsimp only
  split
  · rfl
  · rename_i point attr hdrop
    obtain rfl : point = '.' := by
      have hpoint := List.head?_dropWhile_not (fun c : Char => decide (c ≠ '.')) key.toList
      rw [hdrop] at hpoint
      simpa using hpoint
    rw [hdrop] at happend
    apply String.toList_inj.mp
    rw [toList_name]
    simpa [qualified] using happend

section

variable {catalogs : LocaleCatalogs} {context : Context} {id locale : String}
  {asked : Option String} {catalog : Catalog}

theorem find?_eq_some_iff : find? catalogs context id asked = some (locale, catalog) ↔
    catalogs.get? locale = some catalog ∧ (catalog.messages.get? id).isSome = true ∧
      ∃ front back, context.localeChain asked = front ++ locale :: back ∧
        ∀ other ∈ front, ¬HasMessage catalogs id other := by
  unfold find?
  rw [List.findSome?_eq_some_iff]
  constructor
  · rintro ⟨front, tried, back, hchain, hfound, hfront⟩
    split at hfound
    · cases hfound
    · rename_i found hget
      split at hfound
      · rename_i hmessage
        cases hfound
        refine ⟨hget, hmessage, front, back, hchain, fun other hother => ?_⟩
        rintro ⟨earlier, hearlier, hcarries⟩
        have hpassed := hfront other hother
        rw [hearlier] at hpassed
        dsimp only at hpassed
        rw [if_pos hcarries] at hpassed
        cases hpassed
      · cases hfound
  · rintro ⟨hget, hmessage, front, back, hchain, hfront⟩
    refine ⟨front, locale, back, hchain, ?_, fun other hother => ?_⟩
    · rw [hget]
      exact if_pos hmessage
    · cases hlookup : catalogs.get? other with
      | none => rfl
      | some earlier => exact if_neg fun hcarries => hfront other hother ⟨earlier, hlookup, hcarries⟩

theorem find?_eq_none_iff : find? catalogs context id asked = none ↔
    ∀ locale ∈ context.localeChain asked, ¬HasMessage catalogs id locale := by
  unfold find? HasMessage
  rw [List.findSome?_eq_none_iff]
  refine forall₂_congr fun locale _ => ?_
  cases catalogs.get? locale <;> simp

theorem firstHasPart_iff_find? {key : String} :
    FirstHasPart catalogs (splitKey key).1 (splitKey key).2 (context.localeChain asked) ↔
      ∃ locale catalog, find? catalogs context (splitKey key).1 asked = some (locale, catalog) ∧
        ∃ pattern, catalog.pattern (keyReference key) = .ok pattern := by
  constructor
  · rintro ⟨front, locale, back, hchain, hfront, catalog, hget, hcarries⟩
    obtain ⟨message, hmessage, _⟩ := id hcarries
    refine ⟨locale, catalog, find?_eq_some_iff.mpr ⟨hget, ?_, front, back, hchain, hfront⟩,
      exists_pattern_iff_carries.mpr hcarries⟩
    rw [hmessage]
    rfl
  · rintro ⟨locale, catalog, hfind, hpattern⟩
    obtain ⟨hget, _, front, back, hchain, hfront⟩ := find?_eq_some_iff.mp hfind
    exact ⟨front, locale, back, hchain, hfront, catalog, hget,
      exists_pattern_iff_carries.mp hpattern⟩

end

section

variable {catalogs : LocaleCatalogs} {isolating : Bool} {context : Context}
  {arguments : Call.Arguments}

theorem hasTranslation_iff : hasTranslation catalogs context arguments = true ↔
    FirstHasPart catalogs (splitKey arguments.key).1 (splitKey arguments.key).2
      (context.localeChain arguments.locale) := by
  rw [firstHasPart_iff_find?]
  unfold hasTranslation keyReference
  dsimp only
  cases find? catalogs context (splitKey arguments.key).1 arguments.locale with
  | none => simp
  | some found =>
    obtain ⟨locale, catalog⟩ := found
    simp only [Option.some.injEq, Prod.mk.injEq, ↓existsAndEq, true_and]
    cases catalog.pattern (.message (splitKey arguments.key).1 (splitKey arguments.key).2) with
    | error error => simp [Except.toBool]
    | ok pattern => simp [Except.toBool]

theorem translationCode_of_nowhere
    (h : find? catalogs context (splitKey arguments.key).1 arguments.locale = none) :
    translationCode catalogs isolating context arguments = .error (.unknownMessage arguments.key) := by
  unfold translationCode
  dsimp only
  rw [h]
  rfl

theorem translationCode_of_pattern {locale : String} {catalog : Catalog} {error : TranslationError}
    (hfind : find? catalogs context (splitKey arguments.key).1 arguments.locale =
      some (locale, catalog))
    (hpattern : catalog.pattern (keyReference arguments.key) = .error error) :
    translationCode catalogs isolating context arguments = .error error := by
  rw [keyReference] at hpattern
  unfold translationCode
  dsimp only
  rw [hfind]
  dsimp only
  rw [hpattern]
  rfl

theorem absent_of_not_firstHasPart
    (h : ¬FirstHasPart catalogs (splitKey arguments.key).1 (splitKey arguments.key).2
      (context.localeChain arguments.locale)) :
    ∃ error, translationCode catalogs isolating context arguments = .error error ∧
      absentName? error = some arguments.key := by
  rw [firstHasPart_iff_find?] at h
  cases hfind : find? catalogs context (splitKey arguments.key).1 arguments.locale with
  | none => exact ⟨_, translationCode_of_nowhere hfind, rfl⟩
  | some found =>
    obtain ⟨locale, catalog⟩ := found
    cases hpattern : catalog.pattern (keyReference arguments.key) with
    | ok pattern => exact absurd ⟨locale, catalog, hfind, pattern, hpattern⟩ h
    | error error =>
      refine ⟨error, translationCode_of_pattern hfind hpattern, ?_⟩
      have hname := name_keyReference arguments.key
      rw [keyReference] at hname hpattern
      rw [absentName?_of_pattern hpattern (find?_eq_some_iff.mp hfind).2.1, hname]

/-- Where the key is found, the call does not fail for the key: any other reference that is not
found has another name. -/
theorem absentName?_ne_of_firstHasPart
    (hread : ∀ entry ∈ catalogs, ∃ text, (parse text).1 = entry.2)
    (h : FirstHasPart catalogs (splitKey arguments.key).1 (splitKey arguments.key).2
      (context.localeChain arguments.locale)) {error : TranslationError}
    (hcode : translationCode catalogs isolating context arguments = .error error) :
    absentName? error ≠ some arguments.key := by
  intro habsent
  obtain ⟨locale, catalog, hfind, pattern, hpattern⟩ := firstHasPart_iff_find?.mp h
  obtain ⟨hnone, _⟩ | ⟨_, _, reference, hfind', hreached, herror⟩ :=
    absent_of_translationCode hcode (not_isRaised_of_absentName? habsent)
  · cases hfind.symm.trans hnone
  · cases hfind.symm.trans hfind'
    obtain ⟨entry, hentry, rfl⟩ := mem_of_find? hfind
    obtain ⟨text, htext⟩ := hread entry hentry
    have hplain : entry.2.Plain := htext ▸ plain_parse text
    have hidentified : entry.2.Identified := htext ▸ identified_parse text
    rcases Relation.ReflTransGen.cases_tail hreached with rfl | ⟨outer, _, hrefers⟩
    · cases hpattern.symm.trans herror
    · obtain ⟨absent, hid, hname, herror'⟩ := exists_of_absentName? herror habsent
      have hidentifier : IsIdentifier absent.id := hid ▸ hplain.isIdentifier hrefers
      obtain rfl := name_inj (hidentified.id hpattern) hidentifier
        ((name_keyReference arguments.key).trans hname.symm)
      cases hpattern.symm.trans herror'

theorem translate_of_exists? {candidate : Call.Candidate}
    (hparse : Call.Arguments.parse candidate.arguments = .ok arguments)
    (hfunction : candidate.function = .exists?) : translate catalogs isolating context candidate =
      .ok ⟨toString (hasTranslation catalogs context arguments), true⟩ := by
  unfold translate
  rw [hparse, hfunction]
  rfl

theorem translate_of_translate {candidate : Call.Candidate}
    (hparse : Call.Arguments.parse candidate.arguments = .ok arguments)
    (hfunction : candidate.function = .translate) : translate catalogs isolating context candidate =
      (translationCode catalogs isolating context arguments).map (⟨·, candidate.sole⟩) := by
  unfold translate
  rw [hparse, hfunction]
  change (translationCode catalogs isolating context arguments >>= fun code =>
    pure (⟨code, candidate.sole⟩ : Replacement)) = _
  cases translationCode catalogs isolating context arguments <;> rfl

theorem absentName?_eq_iff {error : TranslationError} {key : String} :
    absentName? error = some key ↔
      error ∈ [.unknownMessage key, .unknownAttribute key, .noValue key] := by
  cases error <;> simp [absentName?]

/-- The question whether a key has a translation has the answer yes, and its call does not fail for
the key, just when the first locale of the chain with the message has the part. So both have a
translation just when some locale has the part, unless it is hidden. -/
theorem translate_fallback_iff (hread : ∀ entry ∈ catalogs, ∃ text, (parse text).1 = entry.2)
    {candidate : Call.Candidate}
    (hparse : Call.Arguments.parse candidate.arguments = .ok arguments) :
    let id := (splitKey arguments.key).1
    let attr := (splitKey arguments.key).2
    let chain := context.localeChain arguments.locale
    let exists? := translate catalogs isolating context { candidate with function := .exists? }
    let found := translate catalogs isolating context { candidate with function := .translate }
    let failures : List TranslationError :=
      [.unknownMessage arguments.key, .unknownAttribute arguments.key, .noValue arguments.key]
    (exists? = .ok ⟨"true", true⟩ ↔ FirstHasPart catalogs id attr chain) ∧
    ((∀ error, found = .error error → error ∉ failures) ↔ FirstHasPart catalogs id attr chain) ∧
    ((exists? = .ok ⟨"true", true⟩ ∧ (∀ error, found = .error error → error ∉ failures) ↔
        ∃ locale ∈ chain, HasPart catalogs id attr locale) ↔
      ¬PartHidden catalogs id attr chain) := by
  intro id attr chain exists? found failures
  have hexists : exists? = .ok ⟨"true", true⟩ ↔ FirstHasPart catalogs id attr chain := by
    rw [← hasTranslation_iff, show exists? = _ from translate_of_exists? hparse rfl]
    cases hasTranslation catalogs context arguments <;> decide
  have hfound : (∀ error, found = .error error → error ∉ failures) ↔
      FirstHasPart catalogs id attr chain := by
    rw [show found = _ from translate_of_translate hparse rfl]
    constructor
    · intro hnone
      by_contra h
      obtain ⟨error, hcode, habsent⟩ :=
        @absent_of_not_firstHasPart catalogs isolating context arguments h
      exact hnone error (by rw [hcode]; rfl) (absentName?_eq_iff.mp habsent)
    · intro h error herror hmem
      cases hcode : translationCode catalogs isolating context arguments with
      | ok code =>
        rw [hcode] at herror
        cases herror
      | error other =>
        rw [hcode] at herror
        cases herror
        exact absentName?_ne_of_firstHasPart hread h hcode (absentName?_eq_iff.mpr hmem)
  refine ⟨hexists, hfound, ?_⟩
  rw [hexists, hfound, and_self]
  constructor
  · intro h hhidden
    have hnot := not_firstHasPart_of_partHidden hhidden
    obtain ⟨_, _, _, hchain, _, _, _, later, hlater, hpart⟩ := hhidden
    exact hnot (h.mpr ⟨later, by simp [hchain, hlater], hpart⟩)
  · intro hhidden
    refine ⟨FirstHasPart.exists_mem, ?_⟩
    rintro ⟨locale, hlocale, hpart⟩
    exact (firstHasPart_or_partHidden hlocale hpart).resolve_right hhidden

/-- A message with a title in English only. -/
def login : LocaleCatalogs :=
  [("en", (parse "login = Log in\n    .title = Sign in".toList).1),
    ("fr", (parse "login = Connexion".toList).1)]

def loginTitle : Call.Candidate :=
  ⟨⟨0, 23⟩, "te('login.title', 'fr')", "te", .exists?, .text, true⟩

theorem translate_fallback_iff_login :
    (∀ entry ∈ login, ∃ text, (parse text).1 = entry.2) ∧
      Call.Arguments.parse loginTitle.arguments = .ok ⟨"login.title", none, some "fr"⟩ ∧
      translate login false ⟨"en", "en", []⟩ loginTitle = .ok ⟨"false", true⟩ ∧
      HasPart login "login" (some "title") "en" ∧
      PartHidden login "login" (some "title") ["fr", "en"] := by
  have hread : ∀ entry ∈ login, ∃ text, (parse text).1 = entry.2 := by
    intro entry hentry
    rcases List.mem_pair.mp hentry with rfl | rfl <;> exact ⟨_, rfl⟩
  have hparse : Call.Arguments.parse loginTitle.arguments =
      .ok ⟨"login.title", none, some "fr"⟩ := by decide
  have hanswer : translate login false ⟨"en", "en", []⟩ loginTitle = .ok ⟨"false", true⟩ := by
    decide +kernel
  have hattributes : (login.get? "en").bind (fun catalog => (catalog.messages.get? "login").map
      fun message => message.attributes.map Prod.fst) = some ["title"] := by
    decide +kernel
  have hpart : HasPart login "login" (some "title") "en" := by
    obtain ⟨catalog, hcatalog, hmessage⟩ := Option.bind_eq_some_iff.mp hattributes
    obtain ⟨message, hget, hnames⟩ := Option.map_eq_some_iff.mp hmessage
    exact ⟨catalog, hcatalog, message, hget, by simp [hnames]⟩
  obtain ⟨hexists, _, hiff⟩ :=
    @translate_fallback_iff login false ⟨"en", "en", []⟩ _ hread loginTitle hparse
  refine ⟨hread, hparse, hanswer, hpart, ?_⟩
  by_contra hhidden
  obtain ⟨hyes, _⟩ := (hiff.mpr hhidden).mpr ⟨"en", by decide, hpart⟩
  exact absurd (hanswer.symm.trans hyes) (by decide)

end

end TemplateMessages.Fluent
