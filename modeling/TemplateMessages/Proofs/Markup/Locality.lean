import Mathlib.Data.List.TakeWhile
import TemplateMessages.Proofs.Markup.Equations
import TemplateMessages.Proofs.Text.Characters

set_option autoImplicit false

/-!
# Reading again in front of another text

A comment that closes, a doctype, an end tag and the content of a raw text element end at characters
of their own. They are read the same whatever stands behind them.
-/

namespace TemplateMessages.Markup

open TemplateMessages.Text

variable {name chars rest rest' text : List Char}

theorem through_append_rest (phrase : List Char) (c : Char)
    (h : through (phrase ++ [c]) text = (chars, rest)) (hrest : rest = [] → rest' = []) :
    through (phrase ++ [c]) (chars ++ rest') = (chars, rest') := by
  unfold through at h
  split at h
  · rename_i before after hbreak
    obtain ⟨rfl, rfl⟩ := Prod.mk.inj h
    rw [through, breakOn?_append_rest hbreak]
  · rename_i hnone
    obtain ⟨rfl, rfl⟩ := Prod.mk.inj h
    rw [hrest rfl, List.append_nil, through, hnone]

theorem prefix_of_through {phrase start : List Char} (hstart : start <+: text)
    (h : through phrase text = (chars, rest))
    (hfar : ∀ before after, before ++ phrase ++ after = text →
      start.length ≤ (before ++ phrase).length) : start <+: chars := by
  unfold through at h
  split at h
  · rename_i before after hbreak
    obtain ⟨rfl, rfl⟩ := Prod.mk.inj h
    have htext := append_of_breakOn? hbreak
    refine List.prefix_of_prefix_length_le hstart ?_ (hfar before after htext)
    exact ⟨after, htext⟩
  · obtain ⟨rfl, rfl⟩ := Prod.mk.inj h
    exact hstart

theorem readConstruct?_comment (hopen : "<!--".toList <+: text)
    (h : through "-->".toList text = (chars, rest)) :
    readConstruct? text = some (.comment, chars, rest) := by
  rw [readConstruct?, if_pos (List.isPrefixOf_iff_prefix.mpr hopen), h]

theorem readConstruct?_section (hopen : "<![".toList <+: text)
    (h : through "]>".toList text = (chars, rest)) :
    readConstruct? text = some (.comment, chars, rest) := by
  obtain ⟨tail, rfl⟩ := hopen
  have hdashes : ¬"<!--".toList.isPrefixOf ("<![".toList ++ tail) = true := by
    simp [List.isPrefixOf]
  have hsection : "<![".toList.isPrefixOf ("<![".toList ++ tail) = true := by
    simp [List.isPrefixOf]
  rw [readConstruct?, if_neg hdashes, if_pos hsection, h]

theorem readConstruct?_of_readDoctype? (h : readDoctype? text = some (chars, rest)) :
    readConstruct? text = some (.doctype, chars, rest) := by
  have hkeyword : (text.take 10).map Char.toLower = "<!doctype ".toList := by
    unfold readDoctype? at h
    dsimp only at h
    split at h
    · assumption
    · cases h
  have hdashes : ¬"<!--".toList.isPrefixOf text = true := by
    rintro hopen
    obtain ⟨tail, rfl⟩ := List.isPrefixOf_iff_prefix.mp hopen
    simp at hkeyword
  have hsection : ¬"<![".toList.isPrefixOf text = true := by
    rintro hopen
    obtain ⟨tail, rfl⟩ := List.isPrefixOf_iff_prefix.mp hopen
    simp at hkeyword
  rw [readConstruct?, if_neg hdashes, if_neg hsection, h]

/-- The reader of what stands at a place. A comment has one of two delimiters. -/
theorem readConstruct?_cases {construct : Construct}
    (h : readConstruct? text = some (construct, chars, rest)) :
    match construct with
    | .comment =>
      "<!--".toList <+: text ∧ through "-->".toList text = (chars, rest) ∨
        "<![".toList <+: text ∧ through "]>".toList text = (chars, rest)
    | .doctype => readDoctype? text = some (chars, rest)
    | .endTag name => ∃ spelled, readEndTag? text = some (spelled, chars, rest) ∧
        String.ofList spelled = name
    | .startTag tag => readTag? text = some (tag, rest) ∧ chars = tag.chars := by
  unfold readConstruct? at h
  split at h
  · rename_i hopen
    cases h
    exact .inl ⟨List.isPrefixOf_iff_prefix.mp hopen, rfl⟩
  · split at h
    · rename_i hopen
      cases h
      exact .inr ⟨List.isPrefixOf_iff_prefix.mp hopen, rfl⟩
    · split at h
      · rename_i hdoctype
        cases h
        exact hdoctype
      · split at h
        · rename_i hend
          cases h
          exact ⟨_, hend, rfl⟩
        · split at h
          · rename_i htag
            cases h
            exact ⟨htag, rfl⟩
          · cases h

theorem readConstruct?_comment_rest (h : readConstruct? text = some (.comment, chars, rest))
    (hrest : rest = [] → rest' = []) :
    readConstruct? (chars ++ rest') = some (.comment, chars, rest') := by
  rcases readConstruct?_cases h with ⟨hopen, hthrough⟩ | ⟨hopen, hthrough⟩
  · have hstart := prefix_of_through hopen hthrough (by
      obtain ⟨tail, rfl⟩ := hopen
      rintro before after heq
      rcases before with _ | ⟨a, _ | ⟨b, before⟩⟩
      · simp at heq
      · simp at heq
      · simp)
    exact readConstruct?_comment (hstart.trans (List.prefix_append _ _))
      (through_append_rest ['-', '-'] '>' hthrough hrest)
  · have hstart := prefix_of_through hopen hthrough (by
      obtain ⟨tail, rfl⟩ := hopen
      rintro before after heq
      rcases before with _ | ⟨a, before⟩
      · simp at heq
      · simp)
    exact readConstruct?_section (hstart.trans (List.prefix_append _ _))
      (through_append_rest [']'] '>' hthrough hrest)

theorem takeWhile_append_stop {p : Char → Bool} {d : Char} (hd : p d = false)
    (front rest : List Char) : (front ++ d :: rest).takeWhile p = front.takeWhile p := by
  induction front with
  | nil => simp [hd]
  | cons c front ih =>
    rw [List.cons_append, List.takeWhile_cons, List.takeWhile_cons, ih]

theorem dropWhile_append_stop {p : Char → Bool} {d : Char} (hd : p d = false)
    (front rest : List Char) :
    (front ++ d :: rest).dropWhile p = front.dropWhile p ++ d :: rest := by
  induction front with
  | nil => simp [hd]
  | cons c front ih =>
    rw [List.cons_append, List.dropWhile_cons, List.dropWhile_cons, ih]
    split <;> rfl

theorem takeWhile_ne_append {front : List Char} (h : '>' ∉ front) (rest : List Char) :
    (front ++ '>' :: rest).takeWhile (· ≠ '>') = front := by
  rw [takeWhile_append_stop (by decide), List.takeWhile_eq_self_iff]
  intro c hc
  have hne : c ≠ '>' := fun heq => h (heq ▸ hc)
  simpa using hne

theorem dropWhile_ne_append {front : List Char} (h : '>' ∉ front) (rest : List Char) :
    (front ++ '>' :: rest).dropWhile (· ≠ '>') = '>' :: rest := by
  have hwhole := List.takeWhile_append_dropWhile (p := fun c => decide (c ≠ '>'))
    (l := front ++ '>' :: rest)
  rw [takeWhile_ne_append h] at hwhole
  exact List.append_cancel_left hwhole

theorem dropWhile_ne_cases (text : List Char) :
    text.dropWhile (· ≠ '>') = [] ∨ ∃ more, text.dropWhile (· ≠ '>') = '>' :: more := by
  induction text with
  | nil => exact .inl rfl
  | cons c cs ih =>
    rw [List.dropWhile_cons]
    split
    · exact ih
    · rename_i h
      exact .inr ⟨cs, by simpa using h⟩

theorem not_mem_takeWhile_ne (text : List Char) : '>' ∉ text.takeWhile (· ≠ '>') :=
  fun h => by simpa using List.mem_takeWhile_imp h

theorem readDoctype?_rest (h : readDoctype? text = some (chars, rest)) :
    readDoctype? (chars ++ rest') = some (chars, rest') := by
  unfold readDoctype? at h
  dsimp only at h
  split at h
  · rename_i hkeyword
    split at h
    · rename_i c cs after htake hdrop
      obtain ⟨rfl, rfl⟩ := by simpa only [Option.some.injEq, Prod.mk.injEq] using h
      have hlength : (text.take "<!doctype ".toList.length).length =
          "<!doctype ".toList.length := by
        have hboth := congrArg List.length hkeyword
        rwa [List.length_map] at hboth
      have hinner : '>' ∉ c :: cs := by
        rw [← htake]
        exact not_mem_takeWhile_ne _
      generalize text.take "<!doctype ".toList.length = front at hkeyword hlength
      have hwhole : front ++ c :: cs ++ ['>'] ++ rest' = front ++ (c :: cs ++ '>' :: rest') := by
        simp
      have hfront : (front ++ (c :: cs ++ '>' :: rest')).take "<!doctype ".toList.length =
          front := by
        rw [← hlength, List.take_left]
      have hback : (front ++ (c :: cs ++ '>' :: rest')).drop "<!doctype ".toList.length =
          c :: cs ++ '>' :: rest' := by
        rw [← hlength, List.drop_left]
      unfold readDoctype?
      dsimp only
      rw [hwhole, hfront, hback, if_pos hkeyword, takeWhile_ne_append hinner,
        dropWhile_ne_append hinner]
      rfl
    · cases h
  · cases h

/-- A name ends in front of a character that is no part of any name. -/
theorem readName?_append_stop {d : Char} (hstart : isNameStart d = false)
    (hd : isNameChar d = false) (front rest : List Char) :
    readName? (front ++ d :: rest) =
      (readName? front).map fun (name, after) => (name, after ++ d :: rest) := by
  cases front with
  | nil => simp [readName?, hstart]
  | cons c cs =>
    rw [List.cons_append, readName?, readName?, takeWhile_append_stop hd, dropWhile_append_stop hd]
    split <;> rfl

theorem readQualifiedName?_append_stop {d : Char} (hstart : isNameStart d = false)
    (hd : isNameChar d = false) (hcolon : d ≠ ':') (front rest : List Char) :
    readQualifiedName? (front ++ d :: rest) =
      (readQualifiedName? front).map fun (name, after) => (name, after ++ d :: rest) := by
  unfold readQualifiedName?
  rw [readName?_append_stop hstart hd]
  cases readName? front with
  | none => rfl
  | some read =>
    obtain ⟨name, after⟩ := read
    rcases after with _ | ⟨c, after⟩
    · simp only [Option.map_some, List.nil_append]
      split
      · rename_i heq
        cases heq
      · rename_i heq
        cases heq
        exact absurd rfl hcolon
      · rename_i heq
        cases heq
        rfl
    · by_cases hc : c = ':'
      · subst hc
        simp only [Option.map_some, List.cons_append, readName?_append_stop hstart hd]
        cases readName? after <;> rfl
      · simp only [Option.map_some, List.cons_append]
        split
        · rename_i heq
          cases heq
        · rename_i heq
          cases heq
          exact absurd rfl hc
        · rename_i heq
          cases heq
          split
          · rename_i heq
            cases heq
          · rename_i heq
            cases heq
            exact absurd rfl hc
          · rename_i heq
            cases heq
            rfl

theorem readQualifiedName?_append_bracket (front rest : List Char) :
    readQualifiedName? (front ++ '>' :: rest) =
      (readQualifiedName? front).map fun (name, after) => (name, after ++ '>' :: rest) :=
  readQualifiedName?_append_stop (by decide) (by decide) (by decide) front rest

theorem readEndTag?_rest (h : readEndTag? text = some (name, chars, rest)) (rest' : List Char) :
    readEndTag? (chars ++ rest') = some (name, chars, rest') := by
  unfold readEndTag? at h
  split at h
  · rename_i inner
    split at h
    · cases h
    · rename_i read after hname
      split at h
      · rename_i last hdrop
        obtain ⟨rfl, rfl, rfl⟩ := by simpa only [Option.some.injEq, Prod.mk.injEq] using h
        have hbefore := not_mem_takeWhile_ne after
        have hafter := List.takeWhile_append_dropWhile (p := fun c => decide (c ≠ '>'))
          (l := after)
        rw [hdrop] at hafter
        generalize after.takeWhile (· ≠ '>') = before at hbefore hafter
        -- the name is read from what stands in front of the bracket alone
        have hfront : readQualifiedName? (read ++ before) = some (read, before) := by
          have hinner := (append_of_readQualifiedName? hname).1
          rw [← hafter, ← List.append_assoc] at hinner
          rw [← hinner, readQualifiedName?_append_bracket] at hname
          obtain ⟨⟨front, back⟩, hread, heq⟩ := Option.map_eq_some_iff.mp hname
          obtain ⟨rfl, hback⟩ := Prod.mk.inj heq
          rw [← hafter] at hback
          rw [hread, List.append_cancel_right hback]
        have hwhole : '<' :: '/' :: read ++ before ++ ['>'] ++ rest' =
            '<' :: '/' :: (read ++ before ++ '>' :: rest') := by simp
        rw [hwhole, readEndTag?, readQualifiedName?_append_bracket, hfront]
        simp only [Option.map_some]
        rw [takeWhile_ne_append hbefore, dropWhile_ne_append hbefore]
        rfl
      · cases h
  · cases h

theorem exists_of_readEndTagOf? (h : readEndTagOf? name text = some (chars, rest)) :
    ∃ front, chars = front ++ ['>'] ∧ ('<' :: '/' :: name).length ≤ front.length := by
  unfold readEndTagOf? at h
  dsimp only at h
  split at h
  · split at h
    · cases h
    · split at h
      · split at h
        · cases h
          exact ⟨_, rfl, by simp⟩
        · cases h
      · cases h
  · cases h

/-- What is behind a bracket has no part in reading an end tag in front of it. -/
theorem readEndTagOf?_append_bracket {front : List Char}
    (hlength : ('<' :: '/' :: name).length ≤ front.length) (rest : List Char) :
    readEndTagOf? name (front ++ '>' :: rest) =
      (readEndTagOf? name (front ++ ['>'])).map fun (chars, after) => (chars, after ++ rest) := by
  unfold readEndTagOf?
  dsimp only
  generalize '<' :: '/' :: name = opening at hlength ⊢
  by_cases hopening : opening <+: front
  · obtain ⟨tail, rfl⟩ := hopening
    have hopens (after : List Char) : opening.isPrefixOf (opening ++ tail ++ after) = true := by
      rw [List.append_assoc]
      exact List.isPrefixOf_iff_prefix.mpr (List.prefix_append _ _)
    have hbracket : decide ('>' ≠ '>') = false := by decide
    have hdrop (after : List Char) :
        (opening ++ tail ++ after).drop opening.length = tail ++ after := by
      rw [List.append_assoc, List.drop_left]
    rw [if_pos (hopens _), if_pos (hopens _), hdrop, hdrop]
    obtain ⟨c, more, htail⟩ : ∃ c more, tail ++ ['>'] = c :: more := by
      cases tail <;> exact ⟨_, _, rfl⟩
    have htail' : tail ++ '>' :: rest = c :: (more ++ rest) := by
      rw [List.append_cons, htail, List.cons_append]
    rw [htail, htail']
    dsimp only
    rw [← htail, ← htail', takeWhile_append_stop hbracket, takeWhile_append_stop hbracket,
      dropWhile_append_stop hbracket, dropWhile_append_stop hbracket]
    split
    · rcases dropWhile_ne_cases tail with hnil | ⟨after, hcons⟩
      · rw [hnil]
        rfl
      · rw [hcons]
        simp
    · rfl
  · -- the opening is no longer than `front`, so it would have to stand in `front`
    have hnone (after : List Char) : ¬opening.isPrefixOf (front ++ after) = true := fun h =>
      hopening (List.prefix_of_prefix_length_le (List.isPrefixOf_iff_prefix.mp h)
        (List.prefix_append _ _) hlength)
    rw [if_neg (hnone _), if_neg (hnone _)]
    rfl

theorem exists_of_findEndTag? {content last : List Char}
    (h : findEndTag? name text = some (content, last, rest)) :
    ∃ front, last = front ++ ['>'] ∧ ('<' :: '/' :: name).length ≤ front.length := by
  induction text generalizing content with
  | nil => cases h
  | cons c cs ih =>
    rw [findEndTag?] at h
    split at h
    · rename_i found
      cases h
      exact exists_of_readEndTagOf? found
    · obtain ⟨⟨before, tag, after⟩, hinner, heq⟩ := Option.map_eq_some_iff.mp h
      obtain ⟨rfl, rfl, rfl⟩ := by simpa only [Prod.mk.injEq] using heq
      exact ih hinner

/-- The content of a raw text element ends at the same end tag whatever stands behind that. -/
theorem findEndTag?_rest {content last : List Char}
    (h : findEndTag? name text = some (content, last, rest)) (rest' : List Char) :
    findEndTag? name (content ++ last ++ rest') = some (content, last, rest') := by
  induction text generalizing content with
  | nil => cases h
  | cons c cs ih =>
    rw [findEndTag?] at h
    split at h
    · rename_i found
      cases h
      obtain ⟨front, rfl, hlength⟩ := exists_of_readEndTagOf? found
      have hwhole := (append_of_readEndTagOf? found).1
      rw [← hwhole, List.append_assoc, List.singleton_append,
        readEndTagOf?_append_bracket hlength] at found
      obtain ⟨⟨tag, after⟩, hread, heq⟩ := Option.map_eq_some_iff.mp found
      obtain ⟨rfl, hafter⟩ := Prod.mk.inj heq
      obtain rfl : after = [] := List.append_left_eq_self.mp hafter
      have hagain := readEndTagOf?_append_bracket hlength rest'
      rw [hread] at hagain
      rw [List.nil_append, List.append_assoc, List.singleton_append]
      cases front with
      | nil => cases hlength
      | cons d front =>
        rw [List.cons_append] at hagain ⊢
        rw [findEndTag?, hagain]
        rfl
    · rename_i hnone
      obtain ⟨⟨before, tag, after⟩, hinner, heq⟩ := Option.map_eq_some_iff.mp h
      obtain ⟨rfl, rfl, rfl⟩ := by simpa only [Prod.mk.injEq] using heq
      obtain ⟨front, rfl, hlength⟩ := exists_of_findEndTag? hinner
      have hfar : ('<' :: '/' :: name).length ≤ (c :: (before ++ front)).length := by
        simp only [List.length_cons, List.length_append] at hlength ⊢
        omega
      have hsplit (behind : List Char) : c :: before ++ (front ++ ['>']) ++ behind =
          c :: (before ++ front) ++ '>' :: behind := by simp
      have hwhole := (append_of_findEndTag? hinner).1
      -- the end tag is not found any earlier, for that would need only what is in front of its bracket
      have hnone' : readEndTagOf? name (c :: (before ++ front) ++ ['>']) = none := by
        have hread : readEndTagOf? name (c :: (before ++ front) ++ '>' :: after) = none := by
          rw [← hsplit, List.cons_append, List.cons_append, hwhole]
          exact hnone
        rw [readEndTagOf?_append_bracket hfar] at hread
        exact Option.map_eq_none_iff.mp hread
      have hearly : readEndTagOf? name (c :: before ++ (front ++ ['>']) ++ rest') = none := by
        rw [hsplit, readEndTagOf?_append_bracket hfar, hnone']
        rfl
      rw [List.cons_append, List.cons_append] at hearly ⊢
      rw [findEndTag?, hearly, ih hinner]
      rfl

end TemplateMessages.Markup
