import TemplateMessages.Proofs.Markup.AttributeNames

set_option autoImplicit false

/-!
# Reading an attribute in front of another text

`StandsBefore` says what makes an attribute, and its value, the one that is read in front of a text.
Where two texts begin alike as far as a name or a value could go on in them, the same attributes stand
before both.
-/

namespace TemplateMessages.Markup

open TemplateMessages.Expression (Quote)
open TemplateMessages.Text

variable {text rest rest' : List Char} {value : ValueText} {attr : AttributeText}

theorem readQuoted?_append {quote : Char} {chars : List Char} (h : quote ∉ chars)
    (rest : List Char) : readQuoted? quote (chars ++ quote :: rest) = some (chars, rest) := by
  induction chars with
  | nil => rw [List.nil_append, readQuoted?, if_pos rfl]
  | cons c cs ih =>
    have hc : c ≠ quote := fun heq => h (heq ▸ List.mem_cons_self)
    have hcs : quote ∉ cs := fun hmem => h (List.mem_cons_of_mem _ hmem)
    rw [List.cons_append, readQuoted?, if_neg hc, ih hcs]
    rfl

theorem readQuoted?_eq_some_iff {quote : Char} {inside : List Char} :
    readQuoted? quote text = some (inside, rest) ↔
      quote ∉ inside ∧ text = inside ++ quote :: rest := by
  constructor
  · intro h
    refine ⟨?_, (append_of_readQuoted? h).symm⟩
    induction text generalizing inside with
    | nil => cases h
    | cons c cs ih =>
      rw [readQuoted?] at h
      split at h
      · cases h
        exact List.not_mem_nil
      · rename_i hc
        obtain ⟨⟨front, tail⟩, hinner, heq⟩ := Option.map_eq_some_iff.mp h
        obtain ⟨rfl, rfl⟩ := Prod.mk.inj heq
        rw [List.mem_cons, not_or]
        exact ⟨Ne.symm hc, ih hinner⟩
  · rintro ⟨hmem, rfl⟩
    exact readQuoted?_append hmem rest

/-- The characters of a value in front of `rest`, inside these quotes. -/
def EndsValue (quote : Option Quote) (inside rest : List Char) : Prop :=
  match quote with
  | some quote => quote ≠ .back ∧ quote.toChar ∉ inside
  | none => inside ≠ [] ∧ (∀ c ∈ inside, isBareValueChar c = true) ∧
      ∀ c ∈ rest.head?, isBareValueChar c = false

theorem endsValue_of_readBareValue? {quote : Option Quote} {inside : List Char}
    (h : readBareValue? text = some (quote, inside, rest)) : EndsValue quote inside rest := by
  unfold readBareValue? at h
  split at h
  · cases h
  rename_i c cs
  split at h
  · rename_i hc
    obtain ⟨⟨front, tail⟩, hinner, heq⟩ := Option.map_eq_some_iff.mp h
    obtain ⟨rfl, rfl, rfl⟩ := by simpa only [Prod.mk.injEq] using heq
    rw [hc] at hinner
    exact ⟨by decide, (readQuoted?_eq_some_iff.mp hinner).1⟩
  split at h
  · rename_i hc
    obtain ⟨⟨front, tail⟩, hinner, heq⟩ := Option.map_eq_some_iff.mp h
    obtain ⟨rfl, rfl, rfl⟩ := by simpa only [Prod.mk.injEq] using heq
    rw [hc] at hinner
    exact ⟨by decide, (readQuoted?_eq_some_iff.mp hinner).1⟩
  split at h
  · rename_i hc
    simp only [Option.some.injEq, Prod.mk.injEq] at h
    obtain ⟨rfl, rfl, rfl⟩ := h
    refine ⟨List.cons_ne_nil _ _, ?_, head_dropWhile cs⟩
    exact List.forall_mem_cons.mpr ⟨hc, fun d hd => List.mem_takeWhile_imp hd⟩
  · cases h

theorem readBareValue?_append {quote : Option Quote} {inside : List Char}
    (h : EndsValue quote inside rest) :
    readBareValue? (ValueText.chars ⟨[], quote, inside⟩ ++ rest) = some (quote, inside, rest) := by
  have hchars : ValueText.chars ⟨[], quote, inside⟩ ++ rest =
      ValueText.quoteChars ⟨[], quote, inside⟩ ++ (inside ++
        (ValueText.quoteChars ⟨[], quote, inside⟩ ++ rest)) := by
    simp [ValueText.chars]
  rw [hchars]
  rcases quote with _ | _ | _ | _
  · obtain ⟨hne, hbare, hrest⟩ := h
    obtain ⟨c, cs, rfl⟩ := List.exists_cons_of_ne_nil hne
    rw [List.forall_mem_cons] at hbare
    have hdouble : c ≠ Quote.double.toChar := by
      rintro rfl
      exact absurd hbare.1 (by decide)
    have hsingle : c ≠ Quote.single.toChar := by
      rintro rfl
      exact absurd hbare.1 (by decide)
    have hcs : cs.takeWhile isBareValueChar = cs ∧ cs.dropWhile isBareValueChar = [] :=
      ⟨List.takeWhile_eq_self_iff.mpr hbare.2, List.dropWhile_eq_nil_iff.mpr hbare.2⟩
    simp only [ValueText.quoteChars, List.nil_append, List.cons_append, readBareValue?]
    rw [if_neg hdouble, if_neg hsingle, if_pos hbare.1, takeWhile_append_of_head hrest,
      dropWhile_append_of_head hrest, hcs.1, hcs.2, List.nil_append]
  · have hdouble : Quote.single.toChar ≠ Quote.double.toChar := by decide
    simp only [ValueText.quoteChars, List.singleton_append, readBareValue?]
    rw [if_neg hdouble, if_pos trivial, readQuoted?_append h.2]
    rfl
  · simp only [ValueText.quoteChars, List.singleton_append, readBareValue?]
    rw [if_pos trivial, readQuoted?_append h.2]
    rfl
  · exact absurd rfl h.1

/-- The value is the one that is read in front of `rest`. -/
structure ValueText.StandsBefore (value : ValueText) (rest : List Char) : Prop where
  gap : ∃ before behind, value.gap = before ++ '=' :: behind ∧
    (∀ c ∈ before, isBlank c = true) ∧ ∀ c ∈ behind, isBlank c = true
  ends : EndsValue value.quote value.text rest

theorem standsBefore_of_readValue? (h : readValue? text = some (value, rest)) :
    value.StandsBefore rest := by
  unfold readValue? at h
  split at h
  · rename_i afterEquals _
    split at h
    · rename_i quote inside after hvalue
      simp only [Option.some.injEq, Prod.mk.injEq] at h
      obtain ⟨rfl, rfl⟩ := h
      exact ⟨⟨_, _, rfl, fun c hc => List.mem_takeWhile_imp hc,
        fun c hc => List.mem_takeWhile_imp hc⟩, endsValue_of_readBareValue? hvalue⟩
    · cases h
  · cases h

theorem EndsValue.head {quote : Option Quote} {inside : List Char} (h : EndsValue quote inside rest) :
    ∀ c ∈ (ValueText.chars ⟨[], quote, inside⟩ ++ rest).head?, isBlank c = false := by
  intro c hc
  cases quote with
  | some quote =>
    obtain rfl : quote.toChar = c := Option.some.inj hc
    cases quote <;> decide
  | none =>
    obtain ⟨hne, hbare, -⟩ := h
    obtain ⟨d, cs, rfl⟩ := List.exists_cons_of_ne_nil hne
    obtain rfl : d = c := Option.some.inj hc
    have hd := hbare d List.mem_cons_self
    by_contra hblank
    simp [isBareValueChar, hblank] at hd

theorem readValue?_append (h : value.StandsBefore rest) :
    readValue? (value.chars ++ rest) = some (value, rest) := by
  obtain ⟨⟨before, behind, hgap, hbefore, hbehind⟩, hends⟩ := h
  obtain ⟨gap, quote, inside⟩ := value
  dsimp only at hgap hends
  subst hgap
  have hchars : ValueText.chars ⟨before ++ '=' :: behind, quote, inside⟩ ++ rest =
      before ++ '=' :: (behind ++ (ValueText.chars ⟨[], quote, inside⟩ ++ rest)) := by
    simp [ValueText.chars, ValueText.quoteChars]
  have hequals : isBlank '=' = false := by decide
  have hcut := takeWhile_append_of_head hends.head behind
  have hskip := dropWhile_append_of_head hends.head behind
  rw [List.takeWhile_eq_self_iff.mpr hbehind] at hcut
  rw [List.dropWhile_eq_nil_iff.mpr hbehind, List.nil_append] at hskip
  have hbefore' : before.takeWhile isBlank = before ∧ before.dropWhile isBlank = [] :=
    ⟨List.takeWhile_eq_self_iff.mpr hbefore, List.dropWhile_eq_nil_iff.mpr hbefore⟩
  unfold readValue? skipBlanks
  rw [hchars, takeWhile_append_stop hequals, dropWhile_append_stop hequals, hbefore'.1, hbefore'.2,
    List.nil_append]
  simp only [hcut, hskip, readBareValue?_append hends]

theorem readValue?_eq_none (h : (skipBlanks text).head? ≠ some '=') : readValue? text = none := by
  unfold readValue?
  split
  · rename_i heq
    rw [heq] at h
    exact absurd rfl h
  · rfl

def AttributeText.valueChars (attr : AttributeText) : List Char :=
  (attr.value.map ValueText.chars).getD []

structure AttributeText.StandsBefore (attr : AttributeText) (rest : List Char) : Prop where
  blanks : ∀ c ∈ attr.blanks, isBlank c = true
  name : readAttributeName? (attr.name ++ (attr.valueChars ++ rest)) =
    some (attr.name, attr.dynamic, attr.valueChars ++ rest)
  value : ∀ value, attr.value = some value → value.StandsBefore rest
  noValue : attr.value = none → readValue? rest = none

theorem AttributeText.chars_append (attr : AttributeText) (rest : List Char) :
    attr.chars ++ rest = attr.blanks ++ (attr.name ++ (attr.valueChars ++ rest)) := by
  simp [chars, body, valueChars]

theorem standsBefore_of_readAttribute? (h : readAttribute? text = some (attr, rest)) :
    attr.StandsBefore rest := by
  unfold readAttribute? at h
  split at h
  · cases h
  rename_i name dynamic behind hname
  have hwhole := (append_of_readAttributeName? hname).1
  rw [← hwhole] at hname
  split at h
  · rename_i value after hvalue
    simp only [Option.some.injEq, Prod.mk.injEq] at h
    obtain ⟨rfl, rfl⟩ := h
    rw [← append_of_readValue? hvalue] at hname
    exact ⟨fun c hc => List.mem_takeWhile_imp hc, hname,
      fun found hfound => Option.some.inj hfound ▸ standsBefore_of_readValue? hvalue, nofun⟩
  · rename_i hvalue
    simp only [Option.some.injEq, Prod.mk.injEq] at h
    obtain ⟨rfl, rfl⟩ := h
    exact ⟨fun c hc => List.mem_takeWhile_imp hc, hname, nofun, fun _ => hvalue⟩

namespace AttributeText.StandsBefore

theorem head_name (h : attr.StandsBefore rest) :
    ∃ c cs, attr.name = c :: cs ∧ isAttributeNameChar c = true := by
  obtain ⟨⟨c, hc, hchar⟩, -⟩ := head_of_readAttributeName? h.name
  obtain ⟨cs, hcs⟩ := List.head?_eq_some_iff.mp hc
  exact ⟨c, cs, hcs, hchar⟩

theorem chars_ne_nil (h : attr.StandsBefore rest) : attr.chars ≠ [] := by
  obtain ⟨c, cs, hname, -⟩ := h.head_name
  simp [AttributeText.chars, AttributeText.body, hname]

theorem skipBlanks_eq (h : attr.StandsBefore rest) (more : List Char) :
    (attr.chars ++ more).takeWhile isBlank = attr.blanks ∧
      skipBlanks (attr.chars ++ more) = attr.name ++ (attr.valueChars ++ more) := by
  obtain ⟨c, cs, hname, hc⟩ := h.head_name
  have hblank : isBlank c = false := by
    by_contra hblank
    simp [isAttributeNameChar, hblank] at hc
  have hstop : ∀ d ∈ (attr.name ++ (attr.valueChars ++ more)).head?, isBlank d = false := by
    intro d hd
    rw [hname] at hd
    obtain rfl : c = d := Option.some.inj hd
    exact hblank
  rw [attr.chars_append, skipBlanks, takeWhile_append_of_head hstop,
    dropWhile_append_of_head hstop, List.takeWhile_eq_self_iff.mpr h.blanks,
    List.dropWhile_eq_nil_iff.mpr h.blanks, List.nil_append]
  exact ⟨rfl, rfl⟩

theorem head?_skipBlanks (h : attr.StandsBefore rest) (more : List Char) :
    (skipBlanks (attr.chars ++ more)).head? ≠ some '=' := by
  obtain ⟨c, cs, hname, hc⟩ := h.head_name
  rw [(h.skipBlanks_eq more).2, hname]
  intro heq
  obtain rfl : c = '=' := Option.some.inj heq
  exact absurd hc (by decide)

theorem readAttribute?_eq (h : attr.StandsBefore rest) :
    readAttribute? (attr.chars ++ rest) = some (attr, rest) := by
  obtain ⟨hblanks, hskip⟩ := h.skipBlanks_eq rest
  unfold readAttribute?
  rw [hblanks, hskip, h.name]
  obtain ⟨blanks, name, value, dynamic⟩ := attr
  cases value with
  | none =>
    have hnone := h.noValue rfl
    simp only [AttributeText.valueChars, Option.map_none, Option.getD_none, List.nil_append, hnone]
  | some value =>
    have hvalue := readValue?_append (h.value value rfl)
    simp only [AttributeText.valueChars, Option.map_some, Option.getD_some, hvalue]

end AttributeText.StandsBefore

/-- A static attribute with its value in quotes, and nothing around the equals sign. -/
def staticText (blanks name : List Char) (quote : Quote) (inside : List Char) : AttributeText :=
  ⟨blanks, name, some ⟨['='], some quote, inside⟩, false⟩

theorem ValueText.StandsBefore.endsNames (h : value.StandsBefore rest) :
    EndsNames (value.chars ++ rest) := by
  obtain ⟨front, back, hgap, hfront, -⟩ := h.gap
  have hequals : decide ('=' ≠ '=') = false := by decide
  have hchars : value.chars ++ rest = front ++ '=' :: (back ++ (value.quoteChars ++ (value.text ++
      (value.quoteChars ++ rest)))) := by
    simp [ValueText.chars, hgap]
  rw [hchars]
  refine ⟨fun c hc => ?_, ?_⟩
  · rcases front with _ | ⟨d, front⟩
    · obtain rfl : '=' = c := Option.some.inj hc
      decide
    · obtain rfl : d = c := Option.some.inj hc
      simp [isAttributeNameChar, hfront d List.mem_cons_self]
  · rw [takeWhile_append_stop hequals]
    intro hmem
    have hblank := hfront ']' ((List.takeWhile_prefix _).subset hmem)
    exact absurd hblank (by decide)

theorem staticText_standsBefore {blanks name inside : List Char} {quote : Quote}
    (hblanks : ∀ c ∈ blanks, isBlank c = true)
    (hname : ∀ c ∈ name, isAttributeNameChar c = true) (hne : name ≠ [])
    (hplain : readDynamicName? name = none) (hback : quote ≠ .back)
    (hinside : quote.toChar ∉ inside) (rest : List Char) :
    (staticText blanks name quote inside).StandsBefore rest := by
  have hvalue : ValueText.StandsBefore ⟨['='], some quote, inside⟩ rest :=
    ⟨⟨[], [], rfl, nofun, nofun⟩, ⟨hback, hinside⟩⟩
  refine ⟨hblanks, ?_, fun found hfound => Option.some.inj hfound ▸ hvalue, nofun⟩
  have hread := readAttributeName?_append hvalue.endsNames name
  rw [readAttributeName?_eq_self hname hne hplain] at hread
  exact hread

/-- `rest'` can stand where `rest` stands behind attributes. A first character that may stand in a
name and in a value without quotes is behind no attribute that it could belong to. -/
structure InPlace (rest rest' : List Char) : Prop where
  head : rest'.head? = rest.head? ∨
    ∃ c ∈ rest.head?, isAttributeNameChar c = true ∧ isBareValueChar c = true
  bracket : ']' ∈ rest'.takeWhile (· ≠ '=') → ']' ∈ rest.takeWhile (· ≠ '=')
  equals : (skipBlanks rest').head? ≠ some '='

theorem readAttributeName?_in_front_equals {name before behind : List Char} {dynamic : Bool}
    (h : readAttributeName? (name ++ (before ++ '=' :: behind)) =
      some (name, dynamic, before ++ '=' :: behind)) (behind' : List Char) :
    readAttributeName? (name ++ (before ++ '=' :: behind')) =
      some (name, dynamic, before ++ '=' :: behind') := by
  have hequals : decide ('=' ≠ '=') = false := by decide
  have hhead : (before ++ '=' :: behind').head? = (before ++ '=' :: behind).head? := by
    cases before <;> rfl
  refine readAttributeName?_in_front h ?_ ?_
  · rw [hhead]
    exact (head_of_readAttributeName? h).2
  · rw [takeWhile_append_stop hequals, takeWhile_append_stop hequals]
    exact id

theorem ValueText.StandsBefore.inPlace (h : value.StandsBefore rest) (hplace : InPlace rest rest') :
    value.StandsBefore rest' := by
  refine ⟨h.gap, ?_⟩
  have hends := h.ends
  unfold EndsValue at hends ⊢
  split at hends
  · exact hends
  · refine ⟨hends.1, hends.2.1, ?_⟩
    rcases hplace.head with hsame | ⟨c, hc, -, hbare⟩
    · rw [hsame]
      exact hends.2.2
    · rw [hends.2.2 c hc] at hbare
      cases hbare

namespace AttributeText.StandsBefore

theorem name_in_front (h : attr.StandsBefore rest) (hvalue : attr.value = some value)
    {inside : List Char} {quote : Option Quote} (rest' : List Char) :
    readAttributeName? (attr.name ++ (ValueText.chars ⟨value.gap, quote, inside⟩ ++ rest')) =
      some (attr.name, attr.dynamic, ValueText.chars ⟨value.gap, quote, inside⟩ ++ rest') := by
  obtain ⟨before, behind, hgap, -, -⟩ := (h.value value hvalue).gap
  have hchars (quote : Option Quote) (inside rest : List Char) :
      ValueText.chars ⟨value.gap, quote, inside⟩ ++ rest = before ++ '=' :: (behind ++
        (ValueText.chars ⟨[], quote, inside⟩ ++ rest)) := by
    simp [ValueText.chars, ValueText.quoteChars, hgap]
  have hread := h.name
  rw [AttributeText.valueChars, hvalue, Option.map_some, Option.getD_some, hchars] at hread
  rw [hchars]
  exact readAttributeName?_in_front_equals hread _

theorem inPlace (h : attr.StandsBefore rest) (hplace : InPlace rest rest') :
    attr.StandsBefore rest' := by
  cases hvalue : attr.value with
  | none =>
    have hread := h.name
    have hchars : attr.valueChars = [] := by rw [AttributeText.valueChars, hvalue]; rfl
    rw [hchars, List.nil_append] at hread
    have hends := (head_of_readAttributeName? hread).2
    have hhead : ∀ c ∈ rest'.head?, isAttributeNameChar c = false := by
      rcases hplace.head with hsame | ⟨c, hc, hname, -⟩
      · rw [hsame]
        exact hends
      · rw [hends c hc] at hname
        cases hname
    refine ⟨h.blanks, ?_, ?_, fun _ => readValue?_eq_none hplace.equals⟩
    · rw [hchars, List.nil_append]
      exact readAttributeName?_in_front hread hhead hplace.bracket
    · rw [hvalue]
      exact nofun
  | some value =>
    have hchars : attr.valueChars = value.chars := by rw [AttributeText.valueChars, hvalue]; rfl
    refine ⟨h.blanks, ?_, fun found hfound => (h.value found hfound).inPlace hplace, ?_⟩
    · rw [hchars]
      exact h.name_in_front hvalue rest'
    · rw [hvalue]
      exact nofun

/-- What can be in the place of the text behind an attribute can be so with the attribute in front. -/
theorem inPlace_chars (h : attr.StandsBefore rest) (hplace : InPlace rest rest') :
    InPlace (attr.chars ++ rest) (attr.chars ++ rest') := by
  refine ⟨.inl ?_, ?_, h.head?_skipBlanks rest'⟩
  · obtain ⟨c, cs, hchars⟩ := List.exists_cons_of_ne_nil h.chars_ne_nil
    rw [hchars]
    rfl
  · rw [List.takeWhile_append, List.takeWhile_append]
    split
    · intro hmem
      exact List.mem_append.mpr ((List.mem_append.mp hmem).imp id hplace.bracket)
    · exact id

theorem withText (h : attr.StandsBefore rest) (hvalue : attr.value = some value) {quote : Quote}
    (hquote : value.quote = some quote) {inside : List Char} (hmem : quote.toChar ∉ inside) :
    AttributeText.StandsBefore { attr with value := some { value with text := inside } } rest := by
  have hstands := h.value value hvalue
  have hback : quote ≠ .back := by
    have hends := hstands.ends
    rw [hquote] at hends
    exact hends.1
  refine ⟨h.blanks, h.name_in_front hvalue rest, ?_, nofun⟩
  rintro found hfound
  obtain rfl := Option.some.inj hfound
  refine ⟨hstands.gap, ?_⟩
  rw [hquote]
  exact ⟨hback, hmem⟩

theorem exists_front (h : attr.StandsBefore rest) (hvalue : attr.value = some value) :
    ∃ front ≠ [], ∀ inside, ∃ more,
      AttributeText.chars { attr with value := some { value with text := inside } } =
        front ++ '=' :: more := by
  obtain ⟨before, behind, hgap, -, -⟩ := (h.value value hvalue).gap
  obtain ⟨c, cs, hname, -⟩ := h.head_name
  refine ⟨attr.blanks ++ attr.name ++ before, by simp [hname], fun inside =>
    ⟨behind ++ (value.quoteChars ++ (inside ++ value.quoteChars)), ?_⟩⟩
  simp [AttributeText.chars, AttributeText.body, ValueText.chars, ValueText.quoteChars, hgap]

end AttributeText.StandsBefore

end TemplateMessages.Markup
