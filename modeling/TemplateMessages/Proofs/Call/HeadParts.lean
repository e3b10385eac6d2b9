import TemplateMessages.Proofs.Call.CandidateForm
import TemplateMessages.Proofs.Expression.Phrase
import TemplateMessages.Proofs.Markup.AttributeNames

set_option autoImplicit false

/-!
# The parts of a head

The start of a call is an operator, white space, a name, and white space in front of the
parenthesis. No character is of two of these classes, so a text has at most one such start, and a
head is found wherever there is one.
-/

namespace TemplateMessages.Call

open TemplateMessages.Expression (isIdentifier isIdentifierChar isIdentifier_cons
  isIdentifierChar_of_isIdentifierStart)
open TemplateMessages.Markup
open TemplateMessages.Text

def operatorChars : List Char :=
  operators.flatMap String.toList

/-- A letter, a digit, `_` or `$`, or a character past ASCII that is no white space. -/
def isNameChar (c : Char) : Bool :=
  isIdentifierChar c || (0x80 ≤ c.toNat && !isBlank c)

/-- What a function can be called by, whichever letters its language has. -/
def IsName (name : List Char) : Prop :=
  name ≠ [] ∧ ∀ c ∈ name, isNameChar c = true

variable {names : FunctionNames} {text rest rest' : List Char} {c : Char} {head : Head}
  {atStart : Bool}

theorem isName_of_isIdentifier {name : List Char} (h : isIdentifier name = true) : IsName name := by
  obtain ⟨c, cs, rfl, hstart, hcs⟩ := isIdentifier_cons h
  have hchars : ∀ d ∈ c :: cs, isIdentifierChar d = true :=
    List.forall_mem_cons.mpr ⟨isIdentifierChar_of_isIdentifierStart hstart, hcs⟩
  exact ⟨List.cons_ne_nil c cs, fun d hd => Bool.or_eq_true_iff.mpr (.inl (hchars d hd))⟩

theorem not_mem_of_isName {name : List Char} (h : IsName name) (hc : isNameChar c = false) :
    c ∉ name := by
  intro hmem
  rw [h.2 c hmem] at hc
  cases hc

theorem isBlank_eq_false_of_isNameChar (h : isNameChar c = true) : isBlank c = false := by
  rcases Bool.or_eq_true_iff.mp h with hidentifier | hother
  · have hall : ∀ n ∈ blankCodes, isIdentifierChar (Char.ofNat n) = false := by decide +kernel
    by_contra hblank
    have hnone := hall c.toNat (mem_blankCodes (Bool.not_eq_false _ ▸ hblank))
    rw [Char.ofNat_toNat, hidentifier] at hnone
    cases hnone
  · exact (Bool.not_eq_true' _).mp (Bool.and_eq_true_iff.mp hother).2

theorem not_mem_operatorChars_of_isNameChar (h : isNameChar c = true) : c ∉ operatorChars := by
  have hall : ∀ d ∈ operatorChars, isNameChar d = false := by decide +kernel
  intro hmem
  rw [hall c hmem] at h
  cases h

theorem not_mem_operatorChars_of_isBlank (h : isBlank c = true) : c ∉ operatorChars := by
  have hall : ∀ d ∈ operatorChars, isBlank d = false := by decide +kernel
  intro hmem
  rw [hall c hmem] at h
  cases h

theorem mem_operatorChars_of_listed {P : Prop} {operator : List Char}
    (h : P ∧ operator = [] ∨ ∃ listed ∈ operators, operator = listed.toList) :
    ∀ c ∈ operator, c ∈ operatorChars := by
  rcases h with ⟨-, rfl⟩ | ⟨listed, hlisted, rfl⟩
  · exact fun c hc => absurd hc List.not_mem_nil
  · exact fun c hc => List.mem_flatMap.mpr ⟨listed, hlisted, hc⟩

theorem append_inj_of_class {p : Char → Bool} {xs ys : List Char} (hxs : ∀ c ∈ xs, p c = true)
    (hys : ∀ c ∈ ys, p c = true) (hrest : ∀ c ∈ rest.head?, p c = false)
    (hrest' : ∀ c ∈ rest'.head?, p c = false) (h : xs ++ rest = ys ++ rest') :
    xs = ys ∧ rest = rest' := by
  have hsame := congrArg (List.takeWhile p) h
  rw [takeWhile_append_of_head hrest, takeWhile_append_of_head hrest',
    List.takeWhile_eq_self_iff.mpr hxs, List.takeWhile_eq_self_iff.mpr hys] at hsame
  subst hsame
  exact ⟨rfl, List.append_cancel_left h⟩

theorem forall_head_append {P : Char → Prop} {xs ys : List Char} (hxs : ∀ c ∈ xs, P c)
    (hys : ∀ c ∈ ys.head?, P c) : ∀ c ∈ (xs ++ ys).head?, P c := by
  cases xs with
  | nil => exact hys
  | cons d ds =>
    intro c hc
    obtain rfl := Option.some.inj hc
    exact hxs _ List.mem_cons_self

@[ext]
structure HeadParts where
  operator : List Char
  blanks : List Char
  name : List Char
  gap : List Char
  isOperator : ∀ c ∈ operator, c ∈ operatorChars
  isBlank : isBlankText blanks = true
  isName : IsName name
  isGap : isBlankText gap = true

namespace HeadParts

def called (parts : HeadParts) : List Char :=
  parts.name ++ parts.gap ++ ['(']

def chars (parts : HeadParts) : List Char :=
  parts.operator ++ (parts.blanks ++ parts.called)

theorem not_mem_operatorChars (parts : HeadParts) :
    ∀ c ∈ parts.blanks ++ parts.name ++ parts.gap, c ∉ operatorChars := by
  intro c hc
  rcases List.mem_append.mp hc with hc | hgap
  · rcases List.mem_append.mp hc with hblank | hname
    · exact not_mem_operatorChars_of_isBlank (List.all_eq_true.mp parts.isBlank c hblank)
    · exact not_mem_operatorChars_of_isNameChar (parts.isName.2 c hname)
  · exact not_mem_operatorChars_of_isBlank (List.all_eq_true.mp parts.isGap c hgap)

theorem head_called (parts : HeadParts) (rest : List Char) :
    ∀ c ∈ (parts.called ++ rest).head?, isNameChar c = true := by
  obtain ⟨c, cs, hname⟩ := List.exists_cons_of_ne_nil parts.isName.1
  have hc := parts.isName.2 c (by rw [hname]; exact List.mem_cons_self)
  simpa [called, hname] using hc

theorem head_gap (parts : HeadParts) (rest : List Char) :
    ∀ c ∈ (parts.gap ++ '(' :: rest).head?, isNameChar c = false := by
  refine forall_head_append (fun c hc => ?_) fun c hc => ?_
  · by_contra hname
    have hblank := isBlank_eq_false_of_isNameChar (Bool.not_eq_false _ ▸ hname)
    rw [List.all_eq_true.mp parts.isGap c hc] at hblank
    cases hblank
  · obtain rfl := Option.some.inj hc
    decide

theorem head_blanks (parts : HeadParts) (rest : List Char) :
    ∀ c ∈ (parts.blanks ++ (parts.called ++ rest)).head?, decide (c ∈ operatorChars) = false :=
  forall_head_append
    (fun c hc => decide_eq_false
      (not_mem_operatorChars_of_isBlank (List.all_eq_true.mp parts.isBlank c hc)))
    fun c hc => decide_eq_false
      (not_mem_operatorChars_of_isNameChar (parts.head_called rest c hc))

theorem unique {parts parts' : HeadParts} (h : parts.chars ++ rest = parts'.chars ++ rest') :
    parts = parts' ∧ rest = rest' := by
  have hblank (parts : HeadParts) (rest : List Char) :
      ∀ c ∈ (parts.called ++ rest).head?, Text.isBlank c = false := fun c hc =>
    isBlank_eq_false_of_isNameChar (parts.head_called rest c hc)
  -- each part ends in front of a character of another class, so the parts are cut off one by one
  simp only [chars, List.append_assoc] at h
  obtain ⟨hoperator, h⟩ := append_inj_of_class
    (fun c hc => decide_eq_true (parts.isOperator c hc))
    (fun c hc => decide_eq_true (parts'.isOperator c hc)) (parts.head_blanks rest)
    (parts'.head_blanks rest') h
  obtain ⟨hblanks, h⟩ := append_inj_of_class (List.all_eq_true.mp parts.isBlank)
    (List.all_eq_true.mp parts'.isBlank) (hblank parts rest) (hblank parts' rest') h
  simp only [called, List.append_assoc, List.singleton_append] at h
  obtain ⟨hname, h⟩ := append_inj_of_class parts.isName.2 parts'.isName.2
    (parts.head_gap rest) (parts'.head_gap rest') h
  have hparenthesis (rest : List Char) : ∀ c ∈ ('(' :: rest).head?, Text.isBlank c = false := by
    intro c hc
    obtain rfl := Option.some.inj hc
    decide
  obtain ⟨hgap, h⟩ := append_inj_of_class (List.all_eq_true.mp parts.isGap)
    (List.all_eq_true.mp parts'.isGap) (hparenthesis rest) (hparenthesis rest') h
  exact ⟨HeadParts.ext hoperator hblanks hname hgap, (List.cons.inj h).2⟩

/-- An end of the parts that starts with a character of an operator starts in the operator, or is
only the parenthesis. -/
theorem of_chars_eq_append {parts : HeadParts} {within behind : List Char}
    (h : parts.chars = within ++ c :: behind) (hc : c ∈ operatorChars) :
    c :: behind = ['('] ∨ ∃ later : HeadParts, parts.operator = within ++ later.operator ∧
      parts.blanks = later.blanks ∧ later.chars = c :: behind := by
  have hother := parts.not_mem_operatorChars
  have hchars : parts.chars =
      parts.operator ++ (parts.blanks ++ parts.name ++ parts.gap ++ ['(']) := by
    simp [chars, called]
  rw [hchars] at h
  rcases List.append_eq_append_iff.mp h with ⟨front, -, htail⟩ | ⟨operator, hoperator, hbehind⟩
  · left
    rcases List.append_eq_append_iff.mp htail with ⟨more, -, hend⟩ | ⟨more, hmore, hend⟩
    · cases more with
      | nil => exact hend.symm
      | cons d ds => simp at hend
    · cases more with
      | nil => exact hend
      | cons d ds =>
        obtain rfl := (List.cons.inj hend).1
        exact absurd hc (hother c (by rw [hmore]; simp))
  · right
    have hchars : ∀ d ∈ operator, d ∈ operatorChars := fun d hd =>
      parts.isOperator d (by rw [hoperator]; exact List.mem_append_right _ hd)
    refine ⟨⟨operator, parts.blanks, parts.name, parts.gap, hchars, parts.isBlank, parts.isName,
      parts.isGap⟩, hoperator, rfl, ?_⟩
    rw [hbehind]
    simp [chars, called]

/-- The operator is listed, or there is none at the start of the expression. -/
def Leads (parts : HeadParts) (atStart : Bool) : Prop :=
  atStart = true ∧ parts.operator = [] ∨ ∃ listed ∈ operators, parts.operator = listed.toList

end HeadParts

theorem exists_parts_of_head? (hnames : ∀ entry ∈ names, IsName entry.1.toList)
    (h : head? names atStart text = some (head, rest)) :
    ∃ parts : HeadParts, parts.operator ++ parts.blanks = head.lead ∧ parts.chars = head.chars := by
  obtain ⟨⟨operator, blanks, hlead, hblanks, hoperator⟩, hnamed, hgap⟩ := of_head? h
  refine ⟨⟨operator, blanks, head.name.toList, head.gap, mem_operatorChars_of_listed hoperator,
    hblanks, hnames _ hnamed, hgap⟩, hlead.symm, ?_⟩
  simp [HeadParts.chars, HeadParts.called, Head.chars, hlead]

namespace HeadParts

variable {parts : HeadParts} {name : String} {function : Function}

theorem headOf?_ne_none (hname : parts.name = name.toList) (hnamed : (name, function) ∈ names)
    (lead rest : List Char) : headOf? names lead (parts.called ++ rest) ≠ none := by
  have hskip : skipBlanks (parts.gap ++ '(' :: rest) = '(' :: rest := by
    rw [skipBlanks, List.dropWhile_append_of_pos (List.all_eq_true.mp parts.isGap)]
    exact List.dropWhile_cons_of_neg (by decide)
  have hfound : headNamed? lead (parts.called ++ rest) name function ≠ none := by
    have htext : parts.called ++ rest = name.toList ++ (parts.gap ++ '(' :: rest) := by
      simp [called, hname]
    rw [htext, headNamed?, if_pos (List.isPrefixOf_iff_prefix.mpr (List.prefix_append _ _))]
    simp only [List.drop_left, hskip]
    exact Option.some_ne_none _
  intro hnone
  exact hfound (List.findSome?_eq_none_iff.mp hnone _ hnamed)

theorem headAfter?_ne_none (hname : parts.name = name.toList) (hnamed : (name, function) ∈ names)
    (rest : List Char) : headAfter? names parts.operator (parts.chars ++ rest) ≠ none := by
  have htext : parts.chars ++ rest =
      parts.operator ++ (parts.blanks ++ (parts.called ++ rest)) := by
    simp [chars]
  have hblanks : (parts.blanks ++ (parts.called ++ rest)).takeWhile Text.isBlank =
      parts.blanks := by
    rw [takeWhile_append_of_head fun c hc =>
      isBlank_eq_false_of_isNameChar (parts.head_called rest c hc)]
    exact List.takeWhile_eq_self_iff.mpr (List.all_eq_true.mp parts.isBlank)
  rw [htext, headAfter?, if_pos (List.isPrefixOf_iff_prefix.mpr (List.prefix_append _ _))]
  simp only [List.drop_left, hblanks]
  -- all the white space is taken first, and the name stands behind it
  have hfirst := parts.headOf?_ne_none hname hnamed (parts.operator ++ parts.blanks) rest
  cases hlength : parts.blanks.length with
  | zero =>
    rw [List.length_eq_zero_iff.mp hlength, List.append_nil] at hfirst
    rw [headAfterBlanks?, List.length_eq_zero_iff.mp hlength]
    exact hfirst
  | succ more =>
    rw [headAfterBlanks?, ← hlength, List.take_left, List.drop_left]
    split
    · exact Option.some_ne_none _
    · rename_i hnone
      exact absurd hnone hfirst

theorem exists_head (hnames : ∀ entry ∈ names, IsName entry.1.toList) (h : parts.Leads atStart)
    (hname : parts.name = name.toList) (hnamed : (name, function) ∈ names) (rest : List Char) :
    ∃ head, head? names atStart (parts.chars ++ rest) = some (head, rest) ∧
      head.lead = parts.operator ++ parts.blanks := by
  have hfound : head? names atStart (parts.chars ++ rest) ≠ none := by
    intro hnone
    have hall := List.findSome?_eq_none_iff.mp hnone
    refine parts.headAfter?_ne_none hname hnamed rest (hall parts.operator ?_)
    rcases h with ⟨rfl, hnil⟩ | ⟨listed, hlisted, hoperator⟩
    · rw [hnil]
      exact List.mem_cons_self
    · have hmem : parts.operator ∈ operators.map String.toList :=
        List.mem_map.mpr ⟨listed, hlisted, hoperator.symm⟩
      cases atStart with
      | true => exact List.mem_cons_of_mem _ hmem
      | false => exact hmem
  obtain ⟨⟨head, behind⟩, hhead⟩ := Option.ne_none_iff_exists'.mp hfound
  obtain ⟨others, hlead, hchars⟩ := exists_parts_of_head? hnames hhead
  have hsame := append_of_head? hhead
  rw [← hchars] at hsame
  obtain ⟨rfl, rfl⟩ := unique hsame
  exact ⟨head, hhead, hlead.symm⟩

end HeadParts

end TemplateMessages.Call
