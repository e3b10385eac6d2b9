import TemplateMessages.Proofs.Markup.Locality

set_option autoImplicit false

/-!
# Reading a name in front of another text

A name ends in front of the first character that no name has, but a dynamic argument goes on to the
last closing bracket in front of the next equals sign, wherever that is. So a name is read the same in
front of two texts when both start with a character that ends it and neither has a bracket that it
could take.
-/

namespace TemplateMessages.Markup

open TemplateMessages.Text

variable {text stop name rest rest' : List Char} {c : Char}

theorem takeWhile_append_of_head {p : Char → Bool} (h : ∀ c ∈ stop.head?, p c = false)
    (text : List Char) : (text ++ stop).takeWhile p = text.takeWhile p := by
  cases stop with
  | nil => rw [List.append_nil]
  | cons d rest => exact takeWhile_append_stop (h d rfl) text rest

theorem dropWhile_append_of_head {p : Char → Bool} (h : ∀ c ∈ stop.head?, p c = false)
    (text : List Char) : (text ++ stop).dropWhile p = text.dropWhile p ++ stop := by
  cases stop with
  | nil => rw [List.append_nil, List.append_nil]
  | cons d rest => exact dropWhile_append_stop (h d rfl) text rest

theorem head_dropWhile {p : Char → Bool} (text : List Char) :
    ∀ c ∈ (text.dropWhile p).head?, p c = false := by
  intro c hc
  have hnot := List.head?_dropWhile_not p text
  rw [hc] at hnot
  exact hnot

def blankCodes : List Nat :=
  [0x9, 0xA, 0xB, 0xC, 0xD, 0x20, 0x85, 0xA0, 0x1680, 0x2000, 0x2001, 0x2002, 0x2003, 0x2004,
    0x2005, 0x2006, 0x2007, 0x2008, 0x2009, 0x200A, 0x2028, 0x2029, 0x202F, 0x205F, 0x3000]

theorem mem_blankCodes (h : isBlank c = true) : c.toNat ∈ blankCodes := by
  simp only [isBlank, Bool.or_eq_true, Bool.and_eq_true, decide_eq_true_eq, beq_iff_eq] at h
  simp only [blankCodes, List.mem_cons, List.not_mem_nil, or_false]
  omega

theorem isBlank_eq_false_of_isWordChar (h : isWordChar c = true) : isBlank c = false := by
  have hall : ∀ n ∈ blankCodes, isWordChar (Char.ofNat n) = false := by decide +kernel
  by_contra hblank
  have hword := hall c.toNat (mem_blankCodes (Bool.not_eq_false _ ▸ hblank))
  rw [Char.ofNat_toNat, h] at hword
  cases hword

theorem isAttributeNameChar_of_isWordChar (h : isWordChar c = true) :
    isAttributeNameChar c = true := by
  have hother : ∀ d ∈ ['\x22', '\x27', '<', '>', '/', '='], c ≠ d := by
    have hall : ∀ d ∈ ['\x22', '\x27', '<', '>', '/', '='], isWordChar d = false := by decide
    rintro d hd rfl
    rw [hall c hd] at h
    cases h
  simp only [List.forall_mem_cons] at hother
  simp [isAttributeNameChar, isBlank_eq_false_of_isWordChar h, hother]

theorem isDirectiveChar_eq_false (h : isAttributeNameChar c = false) :
    (isWordChar c || c == '-') = false := by
  by_contra hdirective
  rcases Bool.or_eq_true_iff.mp (Bool.not_eq_false _ ▸ hdirective) with hword | hdash
  · rw [isAttributeNameChar_of_isWordChar hword] at h
    cases h
  · obtain rfl := beq_iff_eq.mp hdash
    exact absurd h (by decide)

theorem readDirective?_cons (h : ∀ more, c = 'v' → rest = '-' :: more → False) :
    readDirective? (c :: rest) =
      if c = '@' ∨ c = ':' ∨ c = '#' then some ([c], rest) else none := by
  rw [readDirective?]
  exact h

theorem readDirective?_eq_none (h : ∀ c ∈ stop.head?, isAttributeNameChar c = false) :
    readDirective? stop = none := by
  cases stop with
  | nil => rfl
  | cons d rest =>
    have hd := h d rfl
    rw [readDirective?_cons, if_neg]
    · rintro (rfl | rfl | rfl) <;> exact absurd hd (by decide)
    · rintro _ rfl -
      exact absurd hd (by decide)

theorem readDirective?_append (h : ∀ c ∈ stop.head?, isAttributeNameChar c = false)
    (text : List Char) :
    readDirective? (text ++ stop) =
      (readDirective? text).map fun (directive, rest) => (directive, rest ++ stop) := by
  have hplain : ∀ c ∈ stop.head?, (isWordChar c || c == '-') = false :=
    fun c hc => isDirectiveChar_eq_false (h c hc)
  rcases text with _ | ⟨c, rest⟩
  · exact readDirective?_eq_none h
  by_cases hdirective : ∃ more, c = 'v' ∧ rest = '-' :: more
  · obtain ⟨more, rfl, rfl⟩ := hdirective
    simp only [List.cons_append, readDirective?]
    rw [takeWhile_append_of_head hplain, dropWhile_append_of_head hplain]
    cases more.takeWhile fun c => isWordChar c || c == '-' with
    | nil => rfl
    | cons first word =>
      rcases more.dropWhile fun c => isWordChar c || c == '-' with _ | ⟨last, after⟩
      · rcases stop with _ | ⟨d, rest⟩
        · rfl
        · have hcolon : d ≠ ':' := by
            rintro rfl
            exact absurd (h ':' rfl) (by decide)
          simp [hcolon]
      · by_cases hcolon : last = ':'
        · subst hcolon
          rfl
        · simp [hcolon]
  · have hrest : ∀ more, c = 'v' → rest = '-' :: more → False :=
      fun more hc heq => hdirective ⟨more, hc, heq⟩
    have hwhole : ∀ more, c = 'v' → rest ++ stop = '-' :: more → False := by
      intro more hc heq
      cases rest with
      | nil =>
        rw [List.nil_append] at heq
        rw [heq] at h
        exact absurd (h '-' rfl) (by decide)
      | cons d rest => exact hrest rest hc (congrArg (· :: rest) (List.cons.inj heq).1)
    rw [List.cons_append, readDirective?_cons hwhole, readDirective?_cons hrest]
    split <;> rfl

theorem readArgument?_eq_none_iff :
    readArgument? text = none ↔ ']' ∉ (text.takeWhile (· ≠ '=')).drop 1 := by
  unfold readArgument?
  dsimp only
  cases text.takeWhile (· ≠ '=') with
  | nil => simp
  | cons first run =>
    rw [List.reverse_cons, List.dropWhile_append, List.drop_one, List.tail_cons]
    have hnil : run.reverse.dropWhile (· ≠ ']') = [] ↔ ']' ∉ run := by
      rw [List.dropWhile_eq_nil_iff]
      constructor
      · intro hall hmem
        simpa using hall ']' (List.mem_reverse.mpr hmem)
      · rintro hmem d hd
        rw [decide_eq_true_eq]
        rintro rfl
        exact hmem (List.mem_reverse.mp hd)
    rw [← hnil]
    rcases run.reverse.dropWhile (· ≠ ']') with _ | ⟨last, inside⟩
    · by_cases hfirst : first = ']' <;> simp [hfirst]
    · rcases inside with _ | ⟨d, inside⟩ <;> simp

theorem not_mem_of_readArgument? {argument : List Char}
    (h : readArgument? text = some (argument, rest)) : ']' ∉ rest.takeWhile (· ≠ '=') := by
  unfold readArgument? at h
  dsimp only at h
  split at h
  · obtain ⟨-, rfl⟩ := Prod.mk.inj (Option.some.inj h)
    rw [takeWhile_append_of_head (head_dropWhile text)]
    intro hmem
    have hlast := List.mem_reverse.mp ((List.takeWhile_prefix _).subset hmem)
    have hother := List.mem_takeWhile_imp hlast
    exact of_decide_eq_true hother rfl
  · cases h

theorem readArgument?_append (h : ']' ∉ stop.takeWhile (· ≠ '=')) (text : List Char) :
    readArgument? (text ++ stop) =
      (readArgument? text).map fun (argument, rest) => (argument, rest ++ stop) := by
  have hbracket : ∀ c ∈ (stop.takeWhile (· ≠ '=')).reverse, decide (c ≠ ']') = true := by
    intro c hc
    rw [decide_eq_true_eq]
    rintro rfl
    exact h (List.mem_reverse.mp hc)
  have htext := List.takeWhile_append_dropWhile (p := fun c => decide (c ≠ '=')) (l := text)
  unfold readArgument?
  dsimp only
  cases hrest : text.dropWhile (· ≠ '=') with
  | nil =>
    rw [hrest, List.append_nil] at htext
    have hrun : (text ++ stop).takeWhile (· ≠ '=') = text ++ stop.takeWhile (· ≠ '=') := by
      rw [List.takeWhile_append, htext, if_pos rfl]
    have hnone : (text ++ stop).dropWhile (· ≠ '=') = stop.dropWhile (· ≠ '=') := by
      rw [List.dropWhile_append, hrest]
      rfl
    rw [htext, hrun, hnone, List.reverse_append, List.takeWhile_append_of_pos hbracket,
      List.dropWhile_append_of_pos hbracket]
    rcases text.reverse.dropWhile (· ≠ ']') with _ | ⟨last, _ | ⟨c, inside⟩⟩
    · rfl
    · rfl
    · simp
  | cons equals after =>
    have hequals : decide (equals ≠ '=') = false := by
      have hhead := head_dropWhile (p := fun c => decide (c ≠ '=')) text equals
      rw [hrest] at hhead
      exact hhead rfl
    have hrun : (text ++ stop).takeWhile (· ≠ '=') = text.takeWhile (· ≠ '=') := by
      conv => lhs; rw [← htext, hrest, List.append_assoc, List.cons_append]
      rw [takeWhile_append_stop hequals, List.takeWhile_takeWhile]
      simp
    have hmore : (text ++ stop).dropWhile (· ≠ '=') = equals :: after ++ stop := by
      rw [List.dropWhile_append, hrest]
      rfl
    rw [hrun, hmore]
    rcases (text.takeWhile (· ≠ '=')).reverse.dropWhile (· ≠ ']') with
      _ | ⟨last, _ | ⟨c, inside⟩⟩ <;> simp

/-- No argument is read where none is with another text behind, if that has a bracket too. -/
theorem readArgument?_eq_none_in_front (h : readArgument? (text ++ rest) = none)
    (hfirst : ∀ c ∈ rest.head?, c ≠ ']')
    (hbracket : ']' ∈ rest'.takeWhile (· ≠ '=') → ']' ∈ rest.takeWhile (· ≠ '=')) :
    readArgument? (text ++ rest') = none := by
  rw [readArgument?_eq_none_iff] at h ⊢
  rw [List.takeWhile_append] at h ⊢
  split at h
  · rename_i hwhole
    rw [if_pos hwhole]
    cases text with
    | nil =>
      intro hmem
      have hbehind := hbracket (List.mem_of_mem_drop hmem)
      cases rest with
      | nil => cases hbehind
      | cons c cs =>
        have hne := hfirst c rfl
        rw [List.takeWhile_cons] at h hbehind
        split at hbehind
        · rename_i hc
          rw [if_pos hc] at h
          exact h ((List.mem_cons.mp hbehind).resolve_left (Ne.symm hne))
        · cases hbehind
    | cons c cs =>
      simp only [List.cons_append, List.drop_one, List.tail_cons, List.mem_append, not_or] at h ⊢
      exact ⟨h.1, fun hmem => h.2 (hbracket hmem)⟩
  · rename_i hpart
    rwa [if_neg hpart]

/-- Names end in front of this text, and none of them has an argument that ends in it. -/
structure EndsNames (stop : List Char) : Prop where
  head : ∀ c ∈ stop.head?, isAttributeNameChar c = false
  bracket : ']' ∉ stop.takeWhile (· ≠ '=')

theorem readDynamicName?_append (h : EndsNames stop) (text : List Char) :
    readDynamicName? (text ++ stop) =
      (readDynamicName? text).map fun (name, rest) => (name, rest ++ stop) := by
  unfold readDynamicName?
  rw [readDirective?_append h.head]
  cases readDirective? text with
  | none => rfl
  | some read =>
    obtain ⟨directive, rest⟩ := read
    rcases rest with _ | ⟨c, rest⟩
    · rcases stop with _ | ⟨d, stop⟩
      · rfl
      · have hbracket : d ≠ '[' := by
          rintro rfl
          exact absurd (h.head '[' rfl) (by decide)
        simp [hbracket]
    by_cases hbracket : c = '['
    · subst hbracket
      simp only [Option.map_some, List.cons_append, readArgument?_append h.bracket]
      cases readArgument? rest with
      | none => rfl
      | some found =>
        obtain ⟨argument, after⟩ := found
        simp only [Option.map_some]
        rw [takeWhile_append_of_head h.head, dropWhile_append_of_head h.head]
    · simp [hbracket]

theorem readAttributeName?_append (h : EndsNames stop) (text : List Char) :
    readAttributeName? (text ++ stop) =
      (readAttributeName? text).map fun (name, dynamic, rest) => (name, dynamic, rest ++ stop) := by
  unfold readAttributeName?
  rw [readDynamicName?_append h]
  cases readDynamicName? text with
  | some found => rfl
  | none =>
    cases text with
    | nil =>
      rcases stop with _ | ⟨d, stop⟩
      · rfl
      · simp [h.head d rfl]
    | cons c cs =>
      simp only [Option.map_none, List.cons_append]
      rw [takeWhile_append_of_head h.head, dropWhile_append_of_head h.head]
      split <;> rfl

/-- Behind a dynamic name there is no bracket that its argument could have taken. -/
theorem endsNames_of_readDynamicName? (h : readDynamicName? text = some (name, rest)) :
    EndsNames rest := by
  unfold readDynamicName? at h
  split at h
  · split at h
    · rename_i argument after hargument
      obtain ⟨-, rfl⟩ := Prod.mk.inj (Option.some.inj h)
      refine ⟨head_dropWhile after, fun hmem => not_mem_of_readArgument? hargument ?_⟩
      have hname : ∀ c ∈ after.takeWhile isAttributeNameChar, decide (c ≠ '=') = true := by
        intro c hc
        have hchar := List.mem_takeWhile_imp hc
        rw [decide_eq_true_eq]
        rintro rfl
        exact absurd hchar (by decide)
      rw [← List.takeWhile_append_dropWhile (p := isAttributeNameChar) (l := after),
        List.takeWhile_append_of_pos hname]
      exact List.mem_append_right _ hmem
    · cases h
  · cases h

theorem readAttributeName?_cases {dynamic : Bool}
    (h : readAttributeName? text = some (name, dynamic, rest)) :
    (dynamic = true ∧ readDynamicName? text = some (name, rest)) ∨
      (dynamic = false ∧ readDynamicName? text = none ∧ name ≠ [] ∧
        (∀ c ∈ name, isAttributeNameChar c = true) ∧
        ∀ c ∈ rest.head?, isAttributeNameChar c = false) := by
  unfold readAttributeName? at h
  split at h
  · rename_i hdynamic
    simp only [Option.some.injEq, Prod.mk.injEq] at h
    obtain ⟨rfl, rfl, rfl⟩ := h
    exact .inl ⟨rfl, hdynamic⟩
  · rename_i hnone
    split at h
    · cases h
    · split at h
      · rename_i c cs hc
        simp only [Option.some.injEq, Prod.mk.injEq] at h
        obtain ⟨rfl, rfl, rfl⟩ := h
        refine .inr ⟨rfl, hnone, List.cons_ne_nil _ _, ?_, head_dropWhile cs⟩
        exact List.forall_mem_cons.mpr ⟨hc, fun d hd => List.mem_takeWhile_imp hd⟩
      · cases h

theorem readAttributeName?_eq_self (hname : ∀ c ∈ name, isAttributeNameChar c = true)
    (hne : name ≠ []) (hplain : readDynamicName? name = none) :
    readAttributeName? name = some (name, false, []) := by
  obtain ⟨c, cs, rfl⟩ := List.exists_cons_of_ne_nil hne
  rw [List.forall_mem_cons] at hname
  unfold readAttributeName?
  rw [hplain]
  dsimp only
  rw [if_pos hname.1, List.takeWhile_eq_self_iff.mpr hname.2,
    List.dropWhile_eq_nil_iff.mpr hname.2]

theorem head_of_readDirective? {directive : List Char}
    (h : readDirective? text = some (directive, rest)) :
    ∃ c ∈ directive.head?, isAttributeNameChar c = true := by
  unfold readDirective? at h
  split at h
  · dsimp only at h
    split at h
    · obtain ⟨rfl, -⟩ := Prod.mk.inj (Option.some.inj h)
      exact ⟨'v', rfl, by decide⟩
    · cases h
  · rename_i c _ _
    split at h
    · rename_i hc
      obtain ⟨rfl, -⟩ := Prod.mk.inj (Option.some.inj h)
      refine ⟨c, rfl, ?_⟩
      rcases hc with rfl | rfl | rfl <;> decide
    · cases h
  · cases h

/-- A name starts with a character of names, and ends in front of another one. -/
theorem head_of_readAttributeName? {dynamic : Bool}
    (h : readAttributeName? text = some (name, dynamic, rest)) :
    (∃ c ∈ name.head?, isAttributeNameChar c = true) ∧
      ∀ c ∈ rest.head?, isAttributeNameChar c = false := by
  obtain ⟨-, hread⟩ | ⟨-, -, hne, hname, hrest⟩ := readAttributeName?_cases h
  · refine ⟨?_, (endsNames_of_readDynamicName? hread).head⟩
    unfold readDynamicName? at hread
    split at hread
    · rename_i directive inner hdirective
      obtain ⟨c, hc, hchar⟩ := head_of_readDirective? hdirective
      split at hread
      · obtain ⟨rfl, -⟩ := Prod.mk.inj (Option.some.inj hread)
        refine ⟨c, ?_, hchar⟩
        rw [List.append_assoc, List.head?_append, hc]
        rfl
      · cases hread
    · cases hread
  · obtain ⟨c, cs, rfl⟩ := List.exists_cons_of_ne_nil hne
    exact ⟨⟨c, rfl, hname c List.mem_cons_self⟩, hrest⟩

theorem readDynamicName?_eq_none_in_front (h : readDynamicName? (text ++ rest) = none)
    (hrest : ∀ c ∈ rest.head?, isAttributeNameChar c = false)
    (hhead : ∀ c ∈ rest'.head?, isAttributeNameChar c = false)
    (hbracket : ']' ∈ rest'.takeWhile (· ≠ '=') → ']' ∈ rest.takeWhile (· ≠ '=')) :
    readDynamicName? (text ++ rest') = none := by
  have hfirst : ∀ c ∈ rest.head?, c ≠ ']' := by
    rintro c hc rfl
    exact absurd (hrest ']' hc) (by decide)
  unfold readDynamicName? at h ⊢
  rw [readDirective?_append hrest] at h
  rw [readDirective?_append hhead]
  generalize readDirective? text = read at h ⊢
  rcases read with _ | ⟨directive, _ | ⟨d, inner⟩⟩
  · rfl
  · rcases rest' with _ | ⟨d, rest'⟩
    · rfl
    · have hopening : d ≠ '[' := by
        rintro rfl
        exact absurd (hhead '[' rfl) (by decide)
      simp [hopening]
  · by_cases hopening : d = '['
    · subst hopening
      have hargument : readArgument? (inner ++ rest) = none := by
        simp only [Option.map_some, List.cons_append] at h
        split at h
        · cases h
        · assumption
      simp only [Option.map_some, List.cons_append,
        readArgument?_eq_none_in_front hargument hfirst hbracket]
    · simp [hopening]

theorem readAttributeName?_in_front {dynamic : Bool}
    (h : readAttributeName? (name ++ rest) = some (name, dynamic, rest))
    (hhead : ∀ c ∈ rest'.head?, isAttributeNameChar c = false)
    (hbracket : ']' ∈ rest'.takeWhile (· ≠ '=') → ']' ∈ rest.takeWhile (· ≠ '=')) :
    readAttributeName? (name ++ rest') = some (name, dynamic, rest') := by
  obtain ⟨rfl, hread⟩ | ⟨rfl, hnone, hne, hname, hrest⟩ := readAttributeName?_cases h
  · have hstop := endsNames_of_readDynamicName? hread
    have hstop' : EndsNames rest' := ⟨hhead, fun hmem => hstop.bracket (hbracket hmem)⟩
    rw [readAttributeName?_append hstop] at h
    obtain ⟨⟨found, dynamic, after⟩, hfound, heq⟩ := Option.map_eq_some_iff.mp h
    simp only [Prod.mk.injEq] at heq
    obtain ⟨rfl, rfl, hafter⟩ := heq
    obtain rfl : after = [] := List.append_left_eq_self.mp hafter
    rw [readAttributeName?_append hstop', hfound]
    rfl
  · have hdynamic := readDynamicName?_eq_none_in_front hnone hrest hhead hbracket
    obtain ⟨c, cs, rfl⟩ := List.exists_cons_of_ne_nil hne
    rw [List.forall_mem_cons] at hname
    have hcs : cs.takeWhile isAttributeNameChar = cs ∧ cs.dropWhile isAttributeNameChar = [] :=
      ⟨List.takeWhile_eq_self_iff.mpr hname.2, List.dropWhile_eq_nil_iff.mpr hname.2⟩
    unfold readAttributeName?
    rw [hdynamic, List.cons_append]
    dsimp only
    rw [if_pos hname.1, takeWhile_append_of_head hhead, dropWhile_append_of_head hhead, hcs.1,
      hcs.2, List.nil_append]

end TemplateMessages.Markup
