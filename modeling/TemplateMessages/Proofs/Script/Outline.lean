import Mathlib.Tactic.SplitIfs
import TemplateMessages.Expression.Nesting
import TemplateMessages.Expression.Quoted
import TemplateMessages.Text.Word

set_option autoImplicit false

/-!
# Outlines of scripts

The outline of a script keeps what stands outside brackets and strings; each of these becomes a
group. Unlike a nesting, a scan knows the escapes of strings, and that only a template literal goes
over a line break. Comments and regular expressions are read as other code is, and a substitution in
a template literal is read as a part of the literal.
-/

namespace TemplateMessages.Script

open TemplateMessages.Expression (Quote Bracket quoted quotedChars escapeChar)

structure Scan where
  brackets : List Bracket
  string : Option (Quote × Bool)
  deriving DecidableEq, Repr

namespace Scan

/-- Nothing is open. -/
def start : Scan := ⟨[], none⟩

/-- A code character; nothing when a closing bracket does not match. -/
def feedCode? (brackets : List Bracket) (c : Char) : Option Scan :=
  match Quote.ofChar? c with
  | some quote => some ⟨brackets, some (quote, false)⟩
  | none =>
    match Bracket.opening? c with
    | some bracket => some ⟨bracket :: brackets, none⟩
    | none =>
      match Bracket.closing? c, brackets with
      | none, _ => some ⟨brackets, none⟩
      | some _, [] => none
      | some bracket, top :: outer => if top = bracket then some ⟨outer, none⟩ else none

def feed? (scan : Scan) (c : Char) : Option Scan :=
  match scan.string with
  | none => feedCode? scan.brackets c
  | some (quote, true) => some ⟨scan.brackets, some (quote, false)⟩
  | some (quote, false) =>
    if c = quote.toChar then some ⟨scan.brackets, none⟩
    else if c = '\\' then some ⟨scan.brackets, some (quote, true)⟩
    else if (c = '\n' ∨ c = '\r') ∧ quote ≠ .back then none
    else some scan

def run? (scan : Scan) (text : List Char) : Option Scan :=
  text.foldlM feed? scan

def within (scan : Scan) (outer : List Bracket) : Scan :=
  ⟨scan.brackets ++ outer, scan.string⟩

end Scan

inductive Piece where
  | word (chars : List Char)
  | group
  | symbol (c : Char)
  deriving DecidableEq, Repr

def isWordChar (c : Char) : Bool :=
  Text.isAlphanumeric c || c == '_' || c == '$' || c == '.'

def delimiters : List Char :=
  ['\x27', '\x22', '\x60', '(', ')', '[', ']', '{', '}']

def consWordChar (c : Char) : List Piece → List Piece
  | .word chars :: pieces => .word (c :: chars) :: pieces
  | pieces => .word [c] :: pieces

/-- The pieces with a character in front that is read by the scan. -/
def Scan.push (scan : Scan) (c : Char) (pieces : List Piece) : List Piece :=
  if scan ≠ start then pieces
  else if isWordChar c then consWordChar c pieces
  else if c ∈ delimiters then .group :: pieces
  else .symbol c :: pieces

/-- The pieces up to the end of a text, where nothing may be open. -/
def Scan.outline? (scan : Scan) : List Char → Option (List Piece)
  | [] => if scan = start then some [] else none
  | c :: cs => (scan.feed? c).bind fun next => (next.outline? cs).map (scan.push c)

/-- The pieces of a text in front of those behind it. -/
def Scan.pushAll (scan : Scan) : List Char → List Piece → List Piece
  | [], pieces => pieces
  | c :: cs, pieces => scan.push c ((scan.feed? c).elim pieces fun next => next.pushAll cs pieces)

def outline? (text : List Char) : Option (List Piece) :=
  Scan.start.outline? text

def isOperatorChar (c : Char) : Bool :=
  "+-*/%&|^<>=?:,".toList.contains c

def isOperatorWord (chars : List Char) : Bool :=
  chars == "in".toList || chars == "instanceof".toList

/-- A question mark in front of that word is the sign of an optional chain. -/
def startsChain : List Char → Bool
  | '.' :: c :: _ => !c.isDigit
  | ['.'] => true
  | _ => false

/-- Whether a binary or ternary operator is among the pieces: an operator with an operand in front of
it. An arrow counts as one, `++`, `--` and `?.` do not. -/
def operatorIn (behindOperand : Bool) : List Piece → Bool
  | [] => false
  | .group :: pieces => operatorIn true pieces
  | .word chars :: pieces => behindOperand && isOperatorWord chars || operatorIn true pieces
  | .symbol '+' :: .symbol '+' :: pieces => operatorIn behindOperand pieces
  | .symbol '-' :: .symbol '-' :: pieces => operatorIn behindOperand pieces
  | .symbol '?' :: .word chars :: pieces =>
    behindOperand && !startsChain chars || operatorIn true pieces
  | .symbol c :: pieces =>
    if isOperatorChar c then behindOperand || operatorIn false pieces
    else operatorIn behindOperand pieces

/-- Every bracket and every string of the text is closed. -/
def IsBalanced (text : List Char) : Prop :=
  (outline? text).isSome = true

/-- A binary or ternary operator stands outside all brackets and strings. -/
def HasOperator (text : List Char) : Prop :=
  (outline? text).any (operatorIn false) = true

/-- The text is one operand whatever stands around it. -/
def SelfContained (text : List Char) : Prop :=
  IsBalanced text ∧ ¬HasOperator text

instance (text : List Char) : Decidable (IsBalanced text) :=
  inferInstanceAs (Decidable (_ = true))

instance (text : List Char) : Decidable (HasOperator text) :=
  inferInstanceAs (Decidable (_ = true))

instance (text : List Char) : Decidable (SelfContained text) :=
  inferInstanceAs (Decidable (_ ∧ _))

example : SelfContained "(a + b).items[i + 1]?.name(c ? d : e)".toList := by decide

example : HasOperator "a?.b instanceof C".toList := by decide

variable {text front back rest : List Char} {pieces : List Piece} {scan next : Scan} {c : Char}

theorem isBalanced_of_outline? (h : outline? text = some pieces) : IsBalanced text := by
  rw [IsBalanced, h]
  rfl

theorem hasOperator_iff_of_outline? (h : outline? text = some pieces) :
    HasOperator text ↔ operatorIn false pieces = true := by
  rw [HasOperator, h]
  rfl

theorem selfContained_of_outline? (h : outline? text = some pieces)
    (hpieces : operatorIn false pieces = false) : SelfContained text := by
  refine ⟨isBalanced_of_outline? h, ?_⟩
  rw [hasOperator_iff_of_outline? h, hpieces]
  exact Bool.false_ne_true

namespace Scan

@[simp] theorem feed?_code (brackets : List Bracket) :
    feed? ⟨brackets, none⟩ c = feedCode? brackets c :=
  rfl

@[simp] theorem run?_cons (scan : Scan) (c : Char) (cs : List Char) :
    scan.run? (c :: cs) = (scan.feed? c).bind fun next => next.run? cs :=
  List.foldlM_cons

@[simp] theorem run?_append (scan : Scan) (front back : List Char) :
    scan.run? (front ++ back) = (scan.run? front).bind fun next => next.run? back :=
  List.foldlM_append

theorem isSome_outline?_iff : (scan.outline? text).isSome = true ↔ scan.run? text = some start := by
  induction text generalizing scan with
  | nil =>
    change (if scan = start then some [] else none).isSome = true ↔ some scan = some start
    by_cases h : scan = start <;> simp [h]
  | cons c cs ih =>
    rw [run?_cons, outline?]
    cases scan.feed? c with
    | none => simp
    | some next => rw [Option.bind_some, Option.bind_some, Option.isSome_map, ih]

theorem feedCode?_append (outer : List Bracket) {brackets : List Bracket}
    (h : feedCode? brackets c = some next) :
    feedCode? (brackets ++ outer) c = some (next.within outer) := by
  unfold feedCode? at h ⊢
  cases hquote : Quote.ofChar? c with
  | some quote =>
    rw [hquote] at h
    obtain rfl := Option.some.inj h
    rfl
  | none =>
    rw [hquote] at h
    cases hopening : Bracket.opening? c with
    | some bracket =>
      simp only [hopening] at h
      obtain rfl := Option.some.inj h
      rfl
    | none =>
      simp only [hopening] at h
      cases hclosing : Bracket.closing? c with
      | none =>
        simp only [hclosing] at h
        obtain rfl := Option.some.inj h
        rfl
      | some bracket =>
        cases brackets with
        | nil => simp [hclosing] at h
        | cons top brackets =>
          by_cases htop : top = bracket
          · simp only [hclosing, if_pos htop] at h
            obtain rfl := Option.some.inj h
            simp only [List.cons_append, if_pos htop]
            rfl
          · simp [hclosing, if_neg htop] at h

theorem feed?_within (outer : List Bracket) (h : scan.feed? c = some next) :
    (scan.within outer).feed? c = some (next.within outer) := by
  obtain ⟨brackets, _ | ⟨quote, _ | _⟩⟩ := scan
  · exact feedCode?_append outer h
  · unfold feed? at h ⊢
    dsimp only [within] at h ⊢
    split_ifs at h with hclose hslash hbreak
    · obtain rfl := Option.some.inj h
      rw [if_pos hclose]
    · obtain rfl := Option.some.inj h
      rw [if_neg hclose, if_pos hslash]
    · obtain rfl := Option.some.inj h
      rw [if_neg hclose, if_neg hslash, if_neg hbreak]
  · obtain rfl := Option.some.inj h
    rfl

theorem run?_within (outer : List Bracket) (h : scan.run? text = some next) :
    (scan.within outer).run? text = some (next.within outer) := by
  induction text generalizing scan with
  | nil =>
    obtain rfl := Option.some.inj h
    rfl
  | cons c cs ih =>
    rw [run?_cons] at h
    obtain ⟨middle, hfeed, hrun⟩ := Option.bind_eq_some_iff.mp h
    simpa [feed?_within outer hfeed] using ih hrun

theorem push_of_ne (h : scan ≠ start) (c : Char) : scan.push c = id := by
  funext pieces
  exact if_pos h

theorem within_ne_start (scan : Scan) {outer : List Bracket} (h : outer ≠ []) :
    scan.within outer ≠ start := by
  intro heq
  exact h (List.append_eq_nil_iff.mp (congrArg brackets heq)).2

theorem pushAll_within {outer : List Bracket} (houter : outer ≠ [])
    (h : scan.run? text = some next) : (scan.within outer).pushAll text = id := by
  induction text generalizing scan with
  | nil => rfl
  | cons c cs ih =>
    rw [run?_cons] at h
    obtain ⟨middle, hfeed, hrun⟩ := Option.bind_eq_some_iff.mp h
    funext pieces
    rw [pushAll, feed?_within outer hfeed, push_of_ne (within_ne_start scan houter)]
    exact congrFun (ih hrun) pieces

theorem outline?_append (h : scan.run? front = some next) (back : List Char) :
    scan.outline? (front ++ back) = (next.outline? back).map (scan.pushAll front) := by
  induction front generalizing scan with
  | nil =>
    obtain rfl := Option.some.inj h
    have hpush : scan.pushAll [] = id := rfl
    rw [hpush, Option.map_id]
    rfl
  | cons c cs ih =>
    rw [run?_cons] at h
    obtain ⟨middle, hfeed, hrun⟩ := Option.bind_eq_some_iff.mp h
    rw [List.cons_append, outline?, hfeed, Option.bind_some, ih hrun, Option.map_map]
    congr 1
    funext pieces
    rw [pushAll, hfeed]
    rfl

end Scan

theorem isBalanced_iff : IsBalanced text ↔ Scan.start.run? text = some Scan.start :=
  Scan.isSome_outline?_iff

theorem isBalanced_nil : IsBalanced [] :=
  rfl

theorem IsBalanced.append (hfront : IsBalanced front) (hback : IsBalanced back) :
    IsBalanced (front ++ back) := by
  rw [isBalanced_iff] at *
  simpa [hfront] using hback

theorem IsBalanced.outline?_inside (h : IsBalanced text) (top : Bracket) (outer : List Bracket)
    (rest : List Char) :
    Scan.outline? ⟨top :: outer, none⟩ (text ++ rest) = Scan.outline? ⟨top :: outer, none⟩ rest := by
  have hrun := isBalanced_iff.mp h
  have houter := List.cons_ne_nil top outer
  have hwithin : Scan.run? ⟨top :: outer, none⟩ text = some ⟨top :: outer, none⟩ :=
    Scan.run?_within (top :: outer) hrun
  have hpush : Scan.pushAll ⟨top :: outer, none⟩ text = id := Scan.pushAll_within houter hrun
  rw [Scan.outline?_append hwithin, hpush, Option.map_id]
  rfl

theorem IsBalanced.intercalate {separator : List Char} {texts : List (List Char)}
    (hseparator : IsBalanced separator) (h : ∀ text ∈ texts, IsBalanced text) :
    IsBalanced (separator.intercalate texts) := by
  induction texts with
  | nil => exact isBalanced_nil
  | cons text texts ih =>
    have htext := h text List.mem_cons_self
    cases texts with
    | nil => rwa [List.intercalate_singleton]
    | cons text' texts =>
      rw [List.intercalate_cons_cons, List.append_assoc]
      exact htext.append (hseparator.append (ih fun other hother => h other (.tail _ hother)))

theorem feedCode?_of_not_mem (h : c ∉ delimiters) (brackets : List Bracket) :
    Scan.feedCode? brackets c = some ⟨brackets, none⟩ := by
  simp only [delimiters, List.mem_cons, List.not_mem_nil, or_false, not_or] at h
  obtain ⟨hsingle, hdouble, hback, hround, hround', hsquare, hsquare', hcurly, hcurly'⟩ := h
  simp [Scan.feedCode?, Quote.ofChar?, Bracket.opening?, Bracket.closing?, *]

theorem not_mem_delimiters {p : Char → Bool} (hnone : delimiters.any p = false) (h : p c = true) :
    c ∉ delimiters := by
  intro hmem
  rw [List.any_eq_true.mpr ⟨c, hmem, h⟩] at hnone
  cases hnone

theorem isBalanced_of_not_mem (h : ∀ c ∈ text, c ∉ delimiters) : IsBalanced text := by
  rw [isBalanced_iff]
  induction text with
  | nil => rfl
  | cons c cs ih =>
    have hfeed : Scan.start.feed? c = some Scan.start :=
      feedCode?_of_not_mem (h c List.mem_cons_self) []
    simpa [hfeed] using ih fun d hd => h d (List.mem_cons_of_mem c hd)

theorem Scan.eq_start_of_run? (h : ∀ c ∈ text, c ∉ delimiters) (hrun : scan.run? text = some start) :
    scan = start := by
  induction text generalizing scan with
  | nil => exact Option.some.inj hrun
  | cons c cs ih =>
    have hc := h c List.mem_cons_self
    rw [run?_cons] at hrun
    obtain ⟨middle, hfeed, hrest⟩ := Option.bind_eq_some_iff.mp hrun
    rw [ih (fun d hd => h d (List.mem_cons_of_mem c hd)) hrest] at hfeed
    obtain ⟨brackets, _ | ⟨quote, _ | _⟩⟩ := scan
    · rw [feed?_code, feedCode?_of_not_mem hc] at hfeed
      exact Option.some.inj hfeed
    · have hquote : c ≠ quote.toChar := by
        rintro rfl
        apply hc
        cases quote <;> decide
      unfold feed? at hfeed
      dsimp only at hfeed
      rw [if_neg hquote] at hfeed
      split_ifs at hfeed <;> cases congrArg Scan.string (Option.some.inj hfeed)
    · cases congrArg Scan.string (Option.some.inj hfeed)

theorem IsBalanced.inner {text front back : List Char} (hfront : ∀ c ∈ front, c ∉ delimiters)
    (hback : ∀ c ∈ back, c ∉ delimiters) (h : IsBalanced (front ++ (text ++ back))) :
    IsBalanced text := by
  rw [isBalanced_iff, Scan.run?_append, isBalanced_iff.mp (isBalanced_of_not_mem hfront),
    Option.bind_some, Scan.run?_append] at h
  obtain ⟨scan, hrun, hrest⟩ := Option.bind_eq_some_iff.mp h
  rw [Scan.eq_start_of_run? hback hrest] at hrun
  exact isBalanced_iff.mpr hrun

section

variable {brackets : List Bracket} {quote : Quote}

theorem Scan.outline?_string {escaped escaped' : Bool} (cs : List Char)
    (h : Scan.feed? ⟨brackets, some (quote, escaped)⟩ c =
      some ⟨brackets, some (quote, escaped')⟩) :
    Scan.outline? ⟨brackets, some (quote, escaped)⟩ (c :: cs) =
      Scan.outline? ⟨brackets, some (quote, escaped')⟩ cs := by
  have hopen : (⟨brackets, some (quote, escaped)⟩ : Scan) ≠ Scan.start := by
    intro heq
    cases congrArg Scan.string heq
  rw [Scan.outline?, h, Option.bind_some, Scan.push_of_ne hopen, Option.map_id]
  rfl

theorem Scan.outline?_escape (hquote : '\\' ≠ quote.toChar) (c : Char) (cs : List Char) :
    Scan.outline? ⟨brackets, some (quote, false)⟩ ('\\' :: c :: cs) =
      Scan.outline? ⟨brackets, some (quote, false)⟩ cs := by
  have hslash : Scan.feed? ⟨brackets, some (quote, false)⟩ '\\' =
      some ⟨brackets, some (quote, true)⟩ := by
    rw [Scan.feed?]
    dsimp only
    rw [if_neg hquote, if_pos rfl]
  rw [Scan.outline?_string _ hslash]
  exact Scan.outline?_string _ rfl

theorem Scan.outline?_escapeChar (c : Char) (rest : List Char) :
    Scan.outline? ⟨brackets, some (.single, false)⟩ (escapeChar c ++ rest) =
      Scan.outline? ⟨brackets, some (.single, false)⟩ rest := by
  have hescape (d : Char) (cs : List Char) :
      Scan.outline? ⟨brackets, some (.single, false)⟩ ('\\' :: d :: cs) =
        Scan.outline? ⟨brackets, some (.single, false)⟩ cs :=
    Scan.outline?_escape (by decide) d cs
  have hdigit (d : Char) (hd : d ∈ ['0', '2', '8', '9']) (cs : List Char) :
      Scan.outline? ⟨brackets, some (.single, false)⟩ (d :: cs) =
        Scan.outline? ⟨brackets, some (.single, false)⟩ cs := by
    simp only [List.mem_cons, List.not_mem_nil, or_false] at hd
    rcases hd with rfl | rfl | rfl | rfl <;> exact Scan.outline?_string cs rfl
  have hcode (d : Char) (hd : d ∈ ['0', '2', '8', '9']) (cs : List Char) :
      Scan.outline? ⟨brackets, some (.single, false)⟩ ('\\' :: 'u' :: '2' :: '0' :: '2' :: d :: cs) =
        Scan.outline? ⟨brackets, some (.single, false)⟩ cs := by
    rw [hescape, hdigit _ (by decide), hdigit _ (by decide), hdigit _ (by decide), hdigit _ hd]
  unfold escapeChar
  split_ifs with hslash hquote hn hr ht hline hparagraph
  · exact hescape _ _
  · exact hescape _ _
  · exact hescape _ _
  · exact hescape _ _
  · exact hescape _ _
  · exact hcode _ (by decide) _
  · exact hcode _ (by decide) _
  · apply Scan.outline?_string
    have hbreak : ¬((c = '\n' ∨ c = '\r') ∧ Quote.single ≠ .back) := by simp [hn, hr]
    have hclose : c ≠ Quote.single.toChar := hquote
    rw [Scan.feed?]
    dsimp only
    rw [if_neg hclose, if_neg hslash, if_neg hbreak]

end

theorem Scan.outline?_escaped (brackets : List Bracket) (text rest : List Char) :
    Scan.outline? ⟨brackets, some (.single, false)⟩ (text.flatMap escapeChar ++ '\x27' :: rest) =
      Scan.outline? ⟨brackets, none⟩ rest := by
  induction text with
  | nil =>
    have hopen : (⟨brackets, some (.single, false)⟩ : Scan) ≠ Scan.start := by
      intro heq
      cases congrArg Scan.string heq
    have hfeed : Scan.feed? ⟨brackets, some (.single, false)⟩ '\x27' = some ⟨brackets, none⟩ := rfl
    rw [List.flatMap_nil, List.nil_append, Scan.outline?, hfeed, Option.bind_some,
      Scan.push_of_ne hopen, Option.map_id]
    rfl
  | cons c cs ih =>
    rw [List.flatMap_cons, List.append_assoc, Scan.outline?_escapeChar, ih]

theorem outline?_quotedChars (text rest : List Char) :
    outline? (quotedChars text ++ rest) = (outline? rest).map (.group :: ·) := by
  have hpush : Scan.start.push '\x27' = (Piece.group :: ·) := rfl
  have hfeed : Scan.start.feed? '\x27' = some ⟨[], some (.single, false)⟩ := rfl
  rw [quotedChars, List.cons_append, List.append_assoc, List.singleton_append, outline?,
    Scan.outline?, hfeed, Option.bind_some, Scan.outline?_escaped, hpush]
  rfl

theorem IsBalanced.outline?_enclosed {opening closing : Char} {bracket : Bracket}
    (h : IsBalanced text) (hopening : Scan.start.feed? opening = some ⟨[bracket], none⟩)
    (hclosing : Scan.feed? ⟨[bracket], none⟩ closing = some Scan.start)
    (hpush : Scan.start.push opening = (.group :: ·)) (rest : List Char) :
    outline? (opening :: (text ++ closing :: rest)) = (outline? rest).map (.group :: ·) := by
  have hinside : (⟨[bracket], none⟩ : Scan) ≠ Scan.start := by
    intro heq
    cases congrArg Scan.brackets heq
  rw [outline?, Scan.outline?, hopening, Option.bind_some, h.outline?_inside, Scan.outline?,
    hclosing, Option.bind_some, Scan.push_of_ne hinside, Option.map_id, hpush]
  rfl

theorem IsBalanced.outline?_parentheses (h : IsBalanced text) (rest : List Char) :
    outline? ('(' :: (text ++ ')' :: rest)) = (outline? rest).map (.group :: ·) :=
  h.outline?_enclosed rfl rfl rfl rest

theorem IsBalanced.parentheses (h : IsBalanced text) : IsBalanced ('(' :: (text ++ [')'])) :=
  isBalanced_of_outline? (h.outline?_parentheses [])

theorem IsBalanced.squares (h : IsBalanced text) : IsBalanced ('[' :: (text ++ [']'])) :=
  isBalanced_of_outline? (h.outline?_enclosed rfl rfl rfl [])

theorem IsBalanced.braces (h : IsBalanced text) : IsBalanced ('{' :: (text ++ ['}'])) :=
  isBalanced_of_outline? (h.outline?_enclosed rfl rfl rfl [])

theorem outline?_quotedChars_nil (text : List Char) :
    outline? (quotedChars text) = some [.group] := by
  have h := outline?_quotedChars text []
  rwa [List.append_nil] at h

theorem isBalanced_quoted (text : String) : IsBalanced (quoted text).toList := by
  rw [quoted, String.toList_ofList]
  exact isBalanced_of_outline? (outline?_quotedChars_nil text.toList)

theorem selfContained_quoted (text : String) : SelfContained (quoted text).toList := by
  rw [quoted, String.toList_ofList]
  exact selfContained_of_outline? (outline?_quotedChars_nil text.toList) rfl

theorem selfContained_boolText (answer : Bool) : SelfContained (toString answer).toList := by
  cases answer <;> decide

end TemplateMessages.Script
