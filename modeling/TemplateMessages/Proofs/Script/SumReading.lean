import Mathlib.Data.List.Forall2
import TemplateMessages.Proofs.Script.Sum

set_option autoImplicit false

/-!
# Reading code as a sum

One rule for each production of the grammar: a text that is put together from texts of operands is
read as an expression whose value is put together from the values of the operands.
-/

namespace TemplateMessages.Script.Sum

open TemplateMessages.Expression (Bracket Literal isIdentifierStart isIdentifierChar isIdentifier
  quotedChars quoted)

/-- The characters that end every token in front of them. -/
def endChars : List Char :=
  [' ', '(', ')', '[', ']', '}', ';']

/-- No token reaches over the end of a text in front of `rest`. -/
def Bounded (rest : List Char) : Prop :=
  ∀ c, rest.head? = some c → c ∈ endChars

def Lexes (code : List Char) (found : List Token) : Prop :=
  ∀ rest, Bounded rest → tokens (code ++ rest) = (tokens rest).map (found ++ ·)

theorem bounded_nil : Bounded [] := by
  rintro c ⟨⟩

theorem bounded_cons {c : Char} (h : c ∈ endChars) (cs : List Char) : Bounded (c :: cs) := by
  rintro _ ⟨⟩
  exact h

theorem Bounded.head?_ne {rest : List Char} (h : Bounded rest) {c : Char} (hc : c ∉ endChars) :
    rest.head? ≠ some c :=
  fun heq => hc (h c heq)

@[simp] theorem tokens_nil : tokens [] = some [] := by
  rw [tokens]

@[simp] theorem tokens_space (cs : List Char) : tokens (' ' :: cs) = tokens cs := by
  rw [tokens, if_pos rfl]

theorem tokens_cons {c : Char} {cs rest : List Char} {token : Token} (hspace : c ≠ ' ')
    (h : token? c cs = some (token, rest)) :
    tokens (c :: cs) = (tokens rest).map (token :: ·) := by
  rw [tokens, if_neg hspace]
  split
  · rename_i hnone
    rw [h] at hnone
    cases hnone
  · rename_i found after hfound
    rw [h] at hfound
    cases hfound
    rfl

/-- A word stops at the end of a text. -/
theorem span_word {cs rest : List Char} (hcs : ∀ c ∈ cs, isIdentifierChar c = true)
    (h : Bounded rest) : (cs ++ rest).takeWhile isIdentifierChar = cs ∧
      (cs ++ rest).dropWhile isIdentifierChar = rest := by
  have hends : ∀ c ∈ endChars, isIdentifierChar c = false := by
    intro c hc
    have hall : endChars.all (!isIdentifierChar ·) = true := by decide
    simpa using List.all_eq_true.mp hall c hc
  have hrest : rest.takeWhile isIdentifierChar = [] ∧ rest.dropWhile isIdentifierChar = rest := by
    cases rest with
    | nil => exact ⟨rfl, rfl⟩
    | cons c more =>
      rw [List.takeWhile_cons, List.dropWhile_cons, hends c (h c rfl)]
      exact ⟨rfl, rfl⟩
  constructor
  · rw [List.takeWhile_append_of_pos hcs, hrest.1, List.append_nil]
  · rw [List.dropWhile_append_of_pos hcs, hrest.2]

namespace Lexes

variable {front back : List Char} {first second : List Token}

theorem single {c : Char} {cs : List Char} {token : Token} (hspace : c ≠ ' ')
    (h : ∀ rest, Bounded rest → token? c (cs ++ rest) = some (token, rest)) :
    Lexes (c :: cs) [token] := by
  intro rest hrest
  rw [List.cons_append, tokens_cons hspace (h rest hrest)]
  rfl

theorem append (h : Lexes front first) (h' : Lexes back second)
    (hback : ∀ rest, Bounded rest → Bounded (back ++ rest)) :
    Lexes (front ++ back) (first ++ second) := by
  intro rest hrest
  rw [List.append_assoc, h _ (hback rest hrest), h' rest hrest, Option.map_map]
  congr 1
  funext later
  exact (List.append_assoc first second later).symm

theorem space (h : Lexes front first) (h' : Lexes back second) :
    Lexes (front ++ ' ' :: back) (first ++ second) := by
  refine append h ?_ fun rest _ => bounded_cons (by decide) _
  intro rest hrest
  simp [h' rest hrest]

/-- No other character belongs to the token of a bracket. -/
theorem behind {c : Char} {token : Token} (hspace : c ≠ ' ')
    (htoken : ∀ rest, token? c rest = some (token, rest)) (h : Lexes back second) :
    Lexes (c :: back) (token :: second) := by
  intro rest hrest
  rw [List.cons_append, tokens_cons hspace (htoken _), h rest hrest, Option.map_map]
  rfl

theorem closed (h : Lexes front first) {c : Char} {token : Token} (hend : c ∈ endChars)
    (hspace : c ≠ ' ') (htoken : ∀ rest, token? c rest = some (token, rest)) :
    Lexes (front ++ [c]) (first ++ [token]) :=
  append h (single hspace fun rest _ => htoken rest) fun rest _ => bounded_cons hend rest

theorem word {c : Char} {cs : List Char} (hstart : isIdentifierStart c = true)
    (hcs : cs.all isIdentifierChar = true) : Lexes (c :: cs) [wordToken (c :: cs)] := by
  apply single
  · rintro rfl
    revert hstart
    decide
  · intro rest hrest
    obtain ⟨htake, hdrop⟩ := span_word (List.all_eq_true.mp hcs) hrest
    rw [token?, if_pos hstart, htake, hdrop]

theorem string (text : List Char) : Lexes (quotedChars text) [.string text] := by
  apply single (by decide)
  intro rest _
  have hread := readString?_escaped text rest
  rw [token?, if_neg (by decide), if_pos (Or.inl rfl), List.append_assoc, List.singleton_append,
    hread]
  rfl

theorem plus : Lexes ['+'] [.plus] := by
  apply single (by decide)
  intro rest hrest
  exact if_neg (not_or.mpr ⟨hrest.head?_ne (by decide), hrest.head?_ne (by decide)⟩)

theorem equals : Lexes "==".toList [.equals] := by
  apply single (by decide)
  intro rest hrest
  exact if_neg (hrest.head?_ne (by decide))

theorem question : Lexes ['?'] [.question] := by
  apply single (by decide)
  intro rest hrest
  exact if_neg (not_or.mpr ⟨hrest.head?_ne (by decide), hrest.head?_ne (by decide)⟩)

theorem colon : Lexes [':'] [.colon] :=
  single (by decide) fun _ _ => rfl

theorem tokens_eq (h : Lexes front first) : tokens front = some first := by
  have hwhole := h [] bounded_nil
  rwa [List.append_nil, tokens_nil, Option.map_some, List.append_nil] at hwhole

end Lexes

/-- The reading is that expression, and that rest. -/
def Starts {text : List Token} (reading : Reading text) (expr : Expr) (rest : List Token) : Prop :=
  ∃ h, reading = some (expr, ⟨rest, h⟩)

section

variable {text middle last rest : List Token} {expr key condition yes no left right : Expr}

theorem Starts.primary_parentheses (h : Starts (readExpression text) expr (.closing .round :: rest)) :
    Starts (readPrimary (.opening .round :: text)) expr rest := by
  obtain ⟨hlength, h⟩ := h
  unfold Starts
  rw [readPrimary.eq_def]
  dsimp only
  rw [h]
  exact ⟨_, rfl⟩

theorem Starts.operand (h : Starts (readPrimary text) expr rest)
    (hrest : rest.head? ≠ some (.opening .square)) : Starts (readOperand text) expr rest := by
  obtain ⟨hlength, h⟩ := h
  unfold Starts
  rw [readOperand.eq_def, h]
  split
  · rename_i heq
    cases heq
    exact absurd rfl hrest
  · exact ⟨hlength, rfl⟩

theorem Starts.entry (h : Starts (readPrimary text) expr (.opening .square :: middle))
    (hkey : Starts (readExpression middle) key (.closing .square :: rest)) :
    Starts (readOperand text) (.entry expr key) rest := by
  obtain ⟨hlength, h⟩ := h
  obtain ⟨hinner, hkey⟩ := hkey
  unfold Starts
  rw [readOperand.eq_def, h]
  dsimp only
  rw [hkey]
  exact ⟨_, rfl⟩

theorem readSummands_of_ne (hrest : rest.head? ≠ some .plus) :
    ∃ h, readSummands left rest = some (left, ⟨rest, h⟩) := by
  rw [readSummands.eq_def]
  split
  · exact absurd rfl hrest
  · exact ⟨Nat.le_refl _, rfl⟩

theorem readSummands_cons (h : Starts (readOperand text) right middle)
    (hmore : ∃ h, readSummands (.sum left right) middle = some (expr, ⟨rest, h⟩)) :
    ∃ h, readSummands left (.plus :: text) = some (expr, ⟨rest, h⟩) := by
  obtain ⟨hlength, h⟩ := h
  obtain ⟨hle, hmore⟩ := hmore
  rw [readSummands.eq_def]
  dsimp only
  rw [h]
  dsimp only
  rw [hmore]
  exact ⟨_, rfl⟩

theorem Starts.sum (h : Starts (readOperand text) left middle)
    (hmore : ∃ h, readSummands left middle = some (expr, ⟨rest, h⟩)) :
    Starts (readSum text) expr rest := by
  obtain ⟨hlength, h⟩ := h
  obtain ⟨hle, hmore⟩ := hmore
  unfold Starts
  rw [readSum.eq_def, h]
  dsimp only
  rw [hmore]
  exact ⟨_, rfl⟩

theorem Starts.test (h : Starts (readSum text) expr rest) (hrest : rest.head? ≠ some .equals) :
    Starts (readTest text) expr rest := by
  obtain ⟨hlength, h⟩ := h
  unfold Starts
  rw [readTest.eq_def, h]
  split
  · rename_i heq
    cases heq
    exact absurd rfl hrest
  · exact ⟨hlength, rfl⟩

theorem Starts.isNull
    (h : Starts (readSum text) expr (.equals :: .reserved "null".toList :: rest)) :
    Starts (readTest text) (.isNull expr) rest := by
  obtain ⟨hlength, h⟩ := h
  unfold Starts
  rw [readTest.eq_def, h]
  dsimp only
  rw [if_pos rfl]
  exact ⟨_, rfl⟩

theorem Starts.expression (h : Starts (readTest text) expr rest)
    (hrest : rest.head? ≠ some .question) : Starts (readExpression text) expr rest := by
  obtain ⟨hlength, h⟩ := h
  unfold Starts
  rw [readExpression.eq_def, h]
  split
  · rename_i heq
    cases heq
    exact absurd rfl hrest
  · exact ⟨hlength, rfl⟩

theorem Starts.conditional (h : Starts (readTest text) condition (.question :: middle))
    (hyes : Starts (readExpression middle) yes (.colon :: last))
    (hno : Starts (readExpression last) no rest) :
    Starts (readExpression text) (.conditional condition yes no) rest := by
  obtain ⟨hlength, h⟩ := h
  obtain ⟨hinner, hyes⟩ := hyes
  obtain ⟨hlast, hno⟩ := hno
  unfold Starts
  rw [readExpression.eq_def, h]
  dsimp only
  rw [hyes]
  dsimp only
  rw [hno]
  exact ⟨_, rfl⟩

theorem Starts.function?
    (h : Starts (readExpression text) expr [.semicolon, .closing .curly, .closing .round])
    (param : List Char) :
    function? (.opening .round :: .reserved "function".toList :: .opening .round :: .name param ::
      .closing .round :: .opening .curly :: .reserved "return".toList :: text) =
        some (param, expr) := by
  obtain ⟨hlength, h⟩ := h
  rw [Sum.function?.eq_def]
  dsimp only
  rw [h]
  exact if_pos ⟨rfl, rfl⟩

end

/-- The code is read, in front of anything that does not start with one of the tokens `next`, as an
expression with that value. -/
def Denotes (read : (text : List Token) → Reading text) (next : List Token) (names : Names)
    (code : List Char) (value : Literal) : Prop :=
  ∃ found expr, Lexes code found ∧
    (∀ rest, (∀ token ∈ next, rest.head? ≠ some token) → Starts (read (found ++ rest)) expr rest) ∧
    eval names expr = some value

abbrev IsPrimary : Names → List Char → Literal → Prop :=
  Denotes readPrimary []

abbrev IsOperand : Names → List Char → Literal → Prop :=
  Denotes readOperand [.opening .square]

abbrev IsTest : Names → List Char → Literal → Prop :=
  Denotes readTest [.opening .square, .plus, .equals]

abbrev IsExpression : Names → List Char → Literal → Prop :=
  Denotes readExpression [.opening .square, .plus, .equals, .question]

/-- The code is a sum with a string as its value, to which operands behind it are added. -/
def IsText (names : Names) (code : List Char) (text : String) : Prop :=
  ∃ found left, Lexes code found ∧
    (∀ middle expr rest, middle.head? ≠ some (.opening .square) →
      (∃ h, readSummands left middle = some (expr, ⟨rest, h⟩)) →
        Starts (readSum (found ++ middle)) expr rest) ∧
    eval names left = some (.string text)

section

variable {names : Names} {code other : List Char} {value found : Literal}

theorem isPrimary_string (names : Names) (text : List Char) :
    IsPrimary names (quotedChars text) (.string (String.ofList text)) := by
  refine ⟨_, .string text, Lexes.string text, fun rest _ => ?_, rfl⟩
  rw [List.singleton_append]
  unfold Starts
  rw [readPrimary.eq_def]
  exact ⟨_, rfl⟩

theorem isPrimary_name (hname : isIdentifier code = true) (hreserved : ¬IsReserved code)
    (h : names code = some value) : IsPrimary names code value := by
  match code with
  | [] => cases hname
  | c :: cs =>
    obtain ⟨hstart, hcs⟩ := Bool.and_eq_true_iff.mp hname
    have hlexes := Lexes.word hstart hcs
    rw [wordToken, if_neg hreserved] at hlexes
    refine ⟨_, .name (c :: cs), hlexes, fun rest _ => ?_, h⟩
    rw [List.singleton_append]
    unfold Starts
    rw [readPrimary.eq_def]
    exact ⟨_, rfl⟩

theorem IsExpression.parentheses (h : IsExpression names code value) :
    IsPrimary names ('(' :: (code ++ [')'])) value := by
  obtain ⟨found, expr, hlexes, hread, heval⟩ := h
  have hclosed : Lexes (code ++ [')']) (found ++ [.closing .round]) :=
    hlexes.closed (by decide) (by decide) fun _ => rfl
  have hopening (rest : List Char) : token? '(' rest = some (.opening .round, rest) := rfl
  refine ⟨_, expr, hclosed.behind (by decide) hopening, fun rest _ => ?_, heval⟩
  have hinner := hread (.closing .round :: rest) (by simp)
  rw [List.cons_append, List.append_assoc]
  exact hinner.primary_parentheses

theorem IsPrimary.isOperand (h : IsPrimary names code value) : IsOperand names code value := by
  obtain ⟨found, expr, hlexes, hread, heval⟩ := h
  refine ⟨found, expr, hlexes, fun rest hrest => ?_, heval⟩
  exact (hread rest (by simp)).operand (hrest _ List.mem_cons_self)

theorem isOperand_quoted (names : Names) (text : String) :
    IsOperand names (quoted text).toList (.string text) := by
  have hstring := (isPrimary_string names text.toList).isOperand
  rwa [String.ofList_toList, ← String.toList_ofList (l := quotedChars text.toList)] at hstring

theorem IsPrimary.entry {entries : List (String × Literal)} {key : String}
    (h : IsPrimary names code (.object entries)) (hkey : IsExpression names other (.string key))
    (hget : Table.get? entries key = some value) :
    IsOperand names (code ++ '[' :: (other ++ [']'])) value := by
  obtain ⟨first, record, hfirst, hrecord, hevalRecord⟩ := h
  obtain ⟨second, inner, hsecond, hinner, hevalKey⟩ := hkey
  have hclosed : Lexes (other ++ [']']) (second ++ [.closing .square]) :=
    hsecond.closed (by decide) (by decide) fun _ => rfl
  have hbrackets : Lexes ('[' :: (other ++ [']'])) (.opening .square :: (second ++ [.closing .square])) :=
    hclosed.behind (by decide) fun _ => rfl
  refine ⟨_, .entry record inner, hfirst.append hbrackets fun rest _ => bounded_cons (by decide) _,
    fun rest _ => ?_, ?_⟩
  · have hopened := hrecord (.opening .square :: (second ++ .closing .square :: rest)) (by simp)
    have hclosing := hinner (.closing .square :: rest) (by simp)
    rw [List.append_assoc, List.cons_append, List.append_assoc, List.singleton_append]
    exact hopened.entry hclosing
  · rw [eval, hevalRecord, hevalKey]
    exact hget

theorem isText_of_isOperand {text : String} (h : IsOperand names code (.string text)) :
    IsText names code text := by
  obtain ⟨found, expr, hlexes, hread, heval⟩ := h
  refine ⟨found, expr, hlexes, fun middle sum rest hmiddle hmore => ?_, heval⟩
  exact (hread middle (by simpa using hmiddle)).sum hmore

/-- An operand is joined to the text in front of it. -/
theorem IsText.add {text added : String} (h : IsText names code text)
    (h' : IsOperand names other value) (hadded : value.primitiveText? = some added) :
    IsText names (code ++ " + ".toList ++ other) (text ++ added) := by
  obtain ⟨first, left, hfirst, hleft, hevalLeft⟩ := h
  obtain ⟨second, right, hsecond, hright, hevalRight⟩ := h'
  have hlexes := hfirst.space (Lexes.plus.space hsecond)
  refine ⟨first ++ ([.plus] ++ second), .sum left right, ?_, fun middle sum rest hmiddle hmore => ?_,
    ?_⟩
  · rwa [List.append_assoc]
  · have hoperand := hright middle (by simpa using hmiddle)
    have hsummands := readSummands_cons hoperand hmore
    rw [List.append_assoc, List.append_assoc]
    exact hleft _ _ _ (by simp) hsummands
  · rw [eval, hevalLeft, hevalRight]
    change value.primitiveText?.map _ = _
    rw [hadded]
    rfl

theorem IsText.intercalate {operands : List String} {first text : String} {texts : List String}
    (h : IsText names first.toList text)
    (h' : List.Forall₂ (fun operand added => ∃ value, IsOperand names operand.toList value ∧
      value.primitiveText? = some added) operands texts) :
    IsText names (" + ".intercalate (first :: operands)).toList (text ++ String.join texts) := by
  induction h' generalizing first text with
  | nil => simpa using h
  | @cons operand added operands texts hoperand hrest ih =>
    obtain ⟨value, hvalue, hadded⟩ := hoperand
    have hsum : IsText names (first ++ " + " ++ operand).toList (text ++ added) := by
      rw [String.toList_append, String.toList_append]
      exact h.add hvalue hadded
    have hmore := ih hsum
    rwa [String.intercalate_cons_append, ← String.intercalate_cons_cons, String.append_assoc,
      ← String.join_cons] at hmore

theorem IsText.isTest {text : String} (h : IsText names code text) :
    IsTest names code (.string text) := by
  obtain ⟨found, left, hlexes, hread, heval⟩ := h
  refine ⟨found, left, hlexes, fun rest hrest => ?_, heval⟩
  have hsum := hread rest left rest (hrest _ (by simp))
    (readSummands_of_ne (hrest _ (by simp)))
  exact hsum.test (hrest _ (by simp))

theorem IsTest.isExpression (h : IsTest names code value) : IsExpression names code value := by
  obtain ⟨found, expr, hlexes, hread, heval⟩ := h
  refine ⟨found, expr, hlexes, fun rest hrest => ?_, heval⟩
  have hsubset : [Token.opening .square, .plus, .equals] ⊆
      [Token.opening .square, .plus, .equals, .question] := by decide
  exact (hread rest fun token htoken => hrest token (hsubset htoken)).expression
    (hrest _ (by simp))

theorem IsOperand.isExpression (h : IsOperand names code value) : IsExpression names code value := by
  obtain ⟨found, expr, hlexes, hread, heval⟩ := h
  refine ⟨found, expr, hlexes, fun rest hrest => ?_, heval⟩
  have hoperand := hread rest fun token htoken => hrest token (by simp_all)
  have hsum := hoperand.sum (readSummands_of_ne (hrest _ (by simp)))
  exact (hsum.test (hrest _ (by simp))).expression (hrest _ (by simp))

theorem IsOperand.isNull (h : IsOperand names code value) (hnull : value ≠ .null)
    (hundefined : value ≠ .undefined) :
    IsTest names (code ++ " == null".toList) (.bool false) := by
  obtain ⟨found, expr, hlexes, hread, heval⟩ := h
  have hword : Lexes "null".toList [.reserved "null".toList] := Lexes.word (by decide) (by decide)
  refine ⟨_, .isNull expr, hlexes.space (Lexes.equals.space hword), fun rest _ => ?_, ?_⟩
  · have hoperand := hread (.equals :: .reserved "null".toList :: rest) (by simp)
    have hsum := hoperand.sum (readSummands_of_ne (by simp))
    rw [List.append_assoc]
    exact hsum.isNull
  · rw [eval, heval]
    cases value with
    | null => exact absurd rfl hnull
    | undefined => exact absurd rfl hundefined
    | _ => rfl

theorem IsTest.conditional {yes no : List Char} {whenTrue whenFalse : Literal} {condition : Bool}
    (h : IsTest names code (.bool condition)) (hyes : IsExpression names yes whenTrue)
    (hno : IsExpression names no whenFalse) :
    IsExpression names (code ++ " ? ".toList ++ yes ++ " : ".toList ++ no)
      (if condition then whenTrue else whenFalse) := by
  obtain ⟨first, test, hfirst, htest, hevalTest⟩ := h
  obtain ⟨second, left, hsecond, hleft, hevalLeft⟩ := hyes
  obtain ⟨third, right, hthird, hright, hevalRight⟩ := hno
  have hlexes := hfirst.space (Lexes.question.space (hsecond.space (Lexes.colon.space hthird)))
  refine ⟨first ++ ([.question] ++ (second ++ ([.colon] ++ third))), .conditional test left right,
    ?_, fun rest hrest => ?_, ?_⟩
  · simpa using hlexes
  · have hquestion := htest (.question :: (second ++ .colon :: (third ++ rest))) (by simp)
    have hcolon := hleft (.colon :: (third ++ rest)) (by simp)
    have hlast := hright rest hrest
    have hassoc : first ++ ([.question] ++ (second ++ ([.colon] ++ third))) ++ rest =
        first ++ .question :: (second ++ .colon :: (third ++ rest)) := by
      simp
    rw [hassoc]
    exact hquestion.conditional hcolon hlast
  · rw [eval, hevalTest]
    cases condition with
    | true => exact hevalLeft
    | false => exact hevalRight

theorem run_of_isExpression {code : String} (h : IsExpression names code.toList value) :
    run names code = some value := by
  obtain ⟨found, expr, hlexes, hread, heval⟩ := h
  have hwhole := hread [] (by simp)
  rw [List.append_nil] at hwhole
  obtain ⟨hlength, hwhole⟩ := hwhole
  unfold run
  rw [hlexes.tokens_eq]
  dsimp only [bind, Option.bind]
  rw [hwhole]
  exact heval

/-- A function returns the value of its body, in which its parameter is the only name. -/
theorem call_of_isExpression {body : String} {argument : Literal}
    (h : IsExpression (fun name => if name = ['p'] then some argument else none) body.toList value) :
    call ("(function(p)\x7breturn " ++ body ++ ";\x7d)") argument = some value := by
  obtain ⟨found, expr, hlexes, hread, heval⟩ := h
  have hfunction : Lexes "function".toList [.reserved "function".toList] :=
    Lexes.word (by decide) (by decide)
  have hparam : Lexes ['p'] [.name ['p']] := Lexes.word (by decide) (by decide)
  have hreturn : Lexes "return".toList [.reserved "return".toList] :=
    Lexes.word (by decide) (by decide)
  have hend : Lexes (body.toList ++ [';', '}', ')'])
      (found ++ [.semicolon, .closing .curly, .closing .round]) := by
    have hcurly := (hlexes.closed (c := ';') (by decide) (by decide) fun _ => rfl).closed
      (c := '}') (by decide) (by decide) fun _ => rfl
    have hround := hcurly.closed (c := ')') (by decide) (by decide) fun _ => rfl
    simpa only [List.append_assoc, List.cons_append, List.nil_append] using hround
  have hbraces := ((hreturn.space hend).behind (c := '{') (by decide) fun _ => rfl).behind
    (c := ')') (by decide) fun _ => rfl
  have hparams := (hparam.append hbraces fun rest _ => bounded_cons (by decide) _).behind
    (c := '(') (by decide) fun _ => rfl
  have hwhole := (hfunction.append hparams fun rest _ => bounded_cons (by decide) _).behind
    (c := '(') (by decide) fun _ => rfl
  have htext : ("(function(p)\x7breturn " ++ body ++ ";\x7d)").toList =
      '(' :: ("function".toList ++ '(' :: (['p'] ++ ')' :: '{' :: ("return".toList ++ ' ' ::
        (body.toList ++ [';', '}', ')'])))) := by
    simp
  have hfound := (hread [.semicolon, .closing .curly, .closing .round] (by simp)).function? ['p']
  unfold call
  rw [htext, hwhole.tokens_eq]
  simp only [List.singleton_append, Option.bind_eq_bind, Option.bind_some, hfound]
  exact heval

end

end TemplateMessages.Script.Sum
