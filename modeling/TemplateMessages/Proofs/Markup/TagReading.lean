import TemplateMessages.Proofs.Markup.AttributeReading

set_option autoImplicit false

/-!
# Reading a start tag with another attribute

A start tag is the one that is read in front of a text when its name ends there and each of its
attributes stands before those behind it. One attribute can be exchanged for another one as long as
what is in front of it still ends there: the attributes, or the name of the tag.
-/

namespace TemplateMessages.Markup

open TemplateMessages.Expression (Quote)
open TemplateMessages.Text
open TagText (attributeChars)

variable {text name rest rest' : List Char} {tag : TagText} {attr attr' : AttributeText}
  {attrs before behind : List AttributeText}

theorem readName?_cases (h : readName? text = some (name, rest)) :
    (∃ c cs, name = c :: cs ∧ isNameStart c = true ∧ ∀ d ∈ cs, isNameChar d = true) ∧
      ∀ c ∈ rest.head?, isNameChar c = false := by
  unfold readName? at h
  split at h
  · cases h
  · rename_i c cs
    split at h
    · rename_i hc
      obtain ⟨rfl, rfl⟩ := Prod.mk.inj (Option.some.inj h)
      exact ⟨⟨c, _, rfl, hc, fun d hd => List.mem_takeWhile_imp hd⟩, head_dropWhile cs⟩
    · cases h

theorem readName?_in_front (h : readName? (name ++ rest) = some (name, rest))
    (hhead : ∀ c ∈ rest'.head?, isNameChar c = false) :
    readName? (name ++ rest') = some (name, rest') := by
  obtain ⟨⟨c, cs, rfl, hc, hcs⟩, -⟩ := readName?_cases h
  rw [List.cons_append, readName?, if_pos hc, takeWhile_append_of_head hhead,
    dropWhile_append_of_head hhead, List.takeWhile_eq_self_iff.mpr hcs,
    List.dropWhile_eq_nil_iff.mpr hcs, List.nil_append]

theorem readName?_eq_none_iff : readName? text = none ↔ ∀ c ∈ text.head?, isNameStart c = false := by
  cases text with
  | nil => simp [readName?]
  | cons c cs => simp [readName?]

theorem head_of_readQualifiedName? (h : readQualifiedName? text = some (name, rest)) :
    ∀ c ∈ rest.head?, isNameChar c = false := by
  unfold readQualifiedName? at h
  split at h
  · cases h
  · split at h
    · rename_i second after hsecond
      obtain ⟨rfl, rfl⟩ := Prod.mk.inj (Option.some.inj h)
      exact (readName?_cases hsecond).2
    · obtain ⟨rfl, rfl⟩ := Prod.mk.inj (Option.some.inj h)
      intro c hc
      obtain rfl : ':' = c := Option.some.inj hc
      decide
  · rename_i first after _ hread
    obtain ⟨rfl, rfl⟩ := Prod.mk.inj (Option.some.inj h)
    exact (readName?_cases hread).2

theorem readQualifiedName?_in_front (h : readQualifiedName? (name ++ rest) = some (name, rest))
    (hsame : rest'.take 2 = rest.take 2) :
    readQualifiedName? (name ++ rest') = some (name, rest') := by
  -- A second name is read behind a colon, so two characters of what follows decide.
  have hhead : rest'.head? = rest.head? := by
    have hfirst := congrArg List.head? hsame
    rwa [List.head?_take, List.head?_take, if_neg (by decide), if_neg (by decide)] at hfirst
  unfold readQualifiedName? at h
  split at h
  · cases h
  · rename_i first inner hread
    have hfirst (behind : List Char) :
        readName? (first ++ ':' :: behind) = some (first, ':' :: behind) := by
      rw [← (append_of_readName? hread).1] at hread
      refine readName?_in_front hread fun c hc => ?_
      obtain rfl : ':' = c := Option.some.inj hc
      decide
    split at h
    · rename_i second after hsecond
      obtain ⟨rfl, rfl⟩ := Prod.mk.inj (Option.some.inj h)
      have hends := (readName?_cases hsecond).2
      rw [← (append_of_readName? hsecond).1] at hsecond
      rw [← hhead] at hends
      unfold readQualifiedName?
      rw [List.append_assoc, List.cons_append, hfirst]
      simp only [readName?_in_front hsecond hends]
    · rename_i hnone
      obtain ⟨rfl, rfl⟩ := Prod.mk.inj (Option.some.inj h)
      rcases rest' with _ | ⟨c, behind⟩
      · cases hhead
      obtain rfl : c = ':' := Option.some.inj hhead
      have hnone' : readName? behind = none := by
        have hnext : behind.head? = inner.head? := by
          have htail := congrArg (fun two : List Char => two.tail.head?) hsame
          simpa [List.head?_take] using htail
        rw [readName?_eq_none_iff] at hnone ⊢
        rwa [hnext]
      unfold readQualifiedName?
      rw [hfirst]
      simp only [hnone']
  · rename_i first after hplain hread
    obtain ⟨rfl, rfl⟩ := Prod.mk.inj (Option.some.inj h)
    have hends := (readName?_cases hread).2
    rw [← hhead] at hends
    unfold readQualifiedName?
    rw [readName?_in_front hread hends]
    rcases rest' with _ | ⟨c, behind⟩
    · rfl
    · have hcolon : c ≠ ':' := by
        rintro rfl
        obtain ⟨inner, hinner⟩ := List.head?_eq_some_iff.mp hhead.symm
        exact hplain inner hinner
      simp [hcolon]

/-- Each attribute stands before those behind it, and none is read in `rest`. -/
def AttributesStand : List AttributeText → List Char → Prop
  | [], rest => readAttribute? rest = none
  | attr :: attrs, rest =>
    attr.StandsBefore (attributeChars attrs ++ rest) ∧ AttributesStand attrs rest

@[simp] theorem attributeChars_cons (attr : AttributeText) (attrs : List AttributeText) :
    attributeChars (attr :: attrs) = attr.chars ++ attributeChars attrs :=
  List.flatMap_cons

@[simp] theorem attributeChars_append (before behind : List AttributeText) :
    attributeChars (before ++ behind) = attributeChars before ++ attributeChars behind :=
  List.flatMap_append

theorem attributesStand_readAttributes (text : List Char) :
    AttributesStand (readAttributes text).1 (readAttributes text).2 := by
  fun_induction readAttributes text with
  | case1 text h => exact h
  | case2 text attr rest h _ attrs after heq ih =>
    rw [heq] at ih
    have hwhole := readAttributes_append rest
    rw [heq] at hwhole
    refine ⟨?_, ih⟩
    rw [hwhole]
    exact standsBefore_of_readAttribute? h

theorem readAttributes_eq_of_stand (h : AttributesStand attrs rest) :
    readAttributes (attributeChars attrs ++ rest) = (attrs, rest) := by
  induction attrs with
  | nil =>
    rw [attributeChars, List.flatMap_nil, List.nil_append, readAttributes]
    split
    · rfl
    · rename_i hsome
      rw [AttributesStand] at h
      rw [h] at hsome
      cases hsome
  | cons attr attrs ih =>
    have hread := h.1.readAttribute?_eq
    rw [attributeChars_cons, List.append_assoc, readAttributes]
    split
    · rename_i hnone
      rw [hread] at hnone
      cases hnone
    · rename_i hsome
      rw [hread] at hsome
      obtain ⟨rfl, rfl⟩ := Prod.mk.inj (Option.some.inj hsome)
      rw [ih h.2]

theorem AttributesStand.standsBefore (h : AttributesStand (before ++ attr :: behind) rest) :
    attr.StandsBefore (attributeChars behind ++ rest) := by
  induction before with
  | nil => exact h.1
  | cons first before ih => exact ih h.2

theorem AttributeText.StandsBefore.take_two (h : attr.StandsBefore rest)
    (hplace : InPlace rest rest') : (attr.chars ++ rest').take 2 = (attr.chars ++ rest).take 2 := by
  obtain ⟨c, cs, hchars⟩ := List.exists_cons_of_ne_nil h.chars_ne_nil
  rw [hchars]
  cases cs with
  | cons d ds => rfl
  | nil =>
    -- the attribute is a name of one character, which ends in front of `rest`
    obtain ⟨d, ds, hname, -⟩ := h.head_name
    have hread := (head_of_readAttributeName? h.name).2
    have hvalue : attr.valueChars = [] := by
      have hlength := congrArg List.length hchars
      have hwhole := congrArg List.length (attr.chars_append [])
      rw [hname] at hwhole
      simp only [List.append_nil, List.length_append, List.length_cons, List.length_nil]
        at hwhole hlength
      exact List.eq_nil_of_length_eq_zero (by omega)
    rw [hvalue, List.nil_append] at hread
    have hhead : rest'.head? = rest.head? := by
      rcases hplace.head with hsame | ⟨e, he, hchar, -⟩
      · exact hsame
      · rw [hread e he] at hchar
        cases hchar
    cases rest <;> cases rest' <;> simp_all

theorem AttributesStand.inPlace (h : AttributesStand (before ++ attr :: behind) rest)
    (hattr : attr'.StandsBefore (attributeChars behind ++ rest))
    (hplace : InPlace (attr.chars ++ (attributeChars behind ++ rest))
      (attr'.chars ++ (attributeChars behind ++ rest))) :
    AttributesStand (before ++ attr' :: behind) rest ∧
      InPlace (attributeChars (before ++ attr :: behind) ++ rest)
        (attributeChars (before ++ attr' :: behind) ++ rest) := by
  induction before with
  | nil =>
    refine ⟨⟨hattr, h.2⟩, ?_⟩
    rwa [List.nil_append, List.nil_append, attributeChars_cons, attributeChars_cons,
      List.append_assoc, List.append_assoc]
  | cons first before ih =>
    obtain ⟨hstands, hplace⟩ := ih h.2
    refine ⟨⟨h.1.inPlace hplace, hstands⟩, ?_⟩
    rw [List.cons_append, List.cons_append, attributeChars_cons, attributeChars_cons,
      List.append_assoc, List.append_assoc]
    exact h.1.inPlace_chars hplace

structure TagText.StandsBefore (tag : TagText) (rest : List Char) : Prop where
  name : readQualifiedName? (tag.name ++ (attributeChars tag.attributes ++ (tag.closeChars ++ rest)))
    = some (tag.name, attributeChars tag.attributes ++ (tag.closeChars ++ rest))
  attributes : AttributesStand tag.attributes (tag.closeChars ++ rest)
  close : readClose (tag.closeChars ++ rest) = (tag.close, tag.closeChars, rest)

theorem TagText.chars_append (tag : TagText) (rest : List Char) :
    tag.chars ++ rest =
      '<' :: (tag.name ++ (attributeChars tag.attributes ++ (tag.closeChars ++ rest))) := by
  simp [chars]

theorem standsBefore_of_readTag? (h : readTag? text = some (tag, rest)) :
    tag.StandsBefore rest := by
  unfold readTag? at h
  split at h
  · cases h
  rename_i name behind hopen
  dsimp only at h
  obtain ⟨rfl, rfl⟩ := Prod.mk.inj (Option.some.inj h)
  have hattributes := attributesStand_readAttributes behind
  have hwhole := readAttributes_append behind
  have hclose := readClose_append (readAttributes behind).2
  refine ⟨?_, ?_, ?_⟩
  · dsimp only
    rw [hclose, hwhole]
    unfold readTagOpen? at hopen
    split at hopen
    · rw [← (append_of_readQualifiedName? hopen).1] at hopen
      exact hopen
    · cases hopen
  · dsimp only
    rw [hclose]
    exact hattributes
  · dsimp only
    rw [hclose]

theorem TagText.StandsBefore.readTag?_eq (h : tag.StandsBefore rest) :
    readTag? (tag.chars ++ rest) = some (tag, rest) := by
  have hopen : readTagOpen? (tag.chars ++ rest) =
      some (tag.name, attributeChars tag.attributes ++ (tag.closeChars ++ rest)) := by
    rw [tag.chars_append]
    exact h.name
  unfold readTag?
  rw [hopen]
  dsimp only
  rw [readAttributes_eq_of_stand h.attributes]
  dsimp only
  rw [h.close]

/-- The tag with another attribute between these. -/
def TagText.withAttribute (tag : TagText) (before : List AttributeText) (attr : AttributeText)
    (behind : List AttributeText) : TagText :=
  { tag with attributes := before ++ attr :: behind }

/-- One attribute of a tag is exchanged for another one that stands there, and what is in front of it
still ends there. -/
theorem TagText.StandsBefore.withAttribute (h : tag.StandsBefore rest)
    (hattributes : tag.attributes = before ++ attr :: behind)
    (hattr : attr'.StandsBefore (attributeChars behind ++ (tag.closeChars ++ rest)))
    (hplace : InPlace (attr.chars ++ (attributeChars behind ++ (tag.closeChars ++ rest)))
      (attr'.chars ++ (attributeChars behind ++ (tag.closeChars ++ rest))))
    (hname : before = [] → readQualifiedName? (tag.name ++
        (attr'.chars ++ (attributeChars behind ++ (tag.closeChars ++ rest)))) =
      some (tag.name, attr'.chars ++ (attributeChars behind ++ (tag.closeChars ++ rest)))) :
    (tag.withAttribute before attr' behind).StandsBefore rest := by
  have hstand := h.attributes
  have hread := h.name
  rw [hattributes] at hstand hread
  obtain ⟨hstand', hplace'⟩ := hstand.inPlace hattr hplace
  refine ⟨?_, hstand', h.close⟩
  cases before with
  | nil =>
    have hnamed := hname rfl
    rw [← List.append_assoc attr'.chars, ← attributeChars_cons] at hnamed
    exact hnamed
  | cons first before =>
    refine readQualifiedName?_in_front hread ?_
    have htwo := hstand.1.take_two (hstand.2.inPlace hattr hplace).2
    unfold TagText.withAttribute
    dsimp only
    rw [List.cons_append, List.cons_append, attributeChars_cons, attributeChars_cons,
      List.append_assoc, List.append_assoc]
    exact htwo

theorem TagText.StandsBefore.withText (h : tag.StandsBefore rest)
    (hattributes : tag.attributes = before ++ attr :: behind) {value : ValueText} {quote : Quote}
    (hvalue : attr.value = some value) (hquote : value.quote = some quote) {inside : List Char}
    (hmem : quote.toChar ∉ inside) :
    (tag.withAttribute before { attr with value := some { value with text := inside } }
      behind).StandsBefore rest := by
  have hequals : decide ('=' ≠ '=') = false := by decide
  have hstand := h.attributes
  rw [hattributes] at hstand
  have hattr := hstand.standsBefore
  have hattr' := hattr.withText hvalue hquote hmem
  -- the two attributes are alike up to the equals sign
  obtain ⟨front, hfront, hchars⟩ := hattr.exists_front hvalue
  obtain ⟨more, hmore⟩ := hchars value.text
  obtain ⟨more', hmore'⟩ := hchars inside
  have hsame : { attr with value := some { value with text := value.text } } = attr := by
    rw [← hvalue]
  rw [hsame] at hmore
  refine h.withAttribute hattributes hattr' ⟨.inl ?_, ?_, hattr'.head?_skipBlanks _⟩ ?_
  · rw [hmore, hmore']
    cases front with
    | nil => exact absurd rfl hfront
    | cons c cs => rfl
  · rw [hmore, hmore', List.append_assoc, List.append_assoc, List.cons_append, List.cons_append,
      takeWhile_append_stop hequals, takeWhile_append_stop hequals]
    exact id
  · rintro rfl
    have hread := h.name
    rw [hattributes, List.nil_append, attributeChars_cons, List.append_assoc] at hread
    refine readQualifiedName?_in_front hread ?_
    rw [hmore, hmore']
    rcases front with _ | ⟨c, _ | ⟨d, cs⟩⟩
    · exact absurd rfl hfront
    · rfl
    · rfl

end TemplateMessages.Markup
