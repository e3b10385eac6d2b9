import TemplateMessages.Proofs.Expression.PlainName
import TemplateMessages.Proofs.Number.Text
import TemplateMessages.Proofs.Script.Expression

set_option autoImplicit false

/-!
# Reading code as an expression

One rule for each production of the grammar: a text that is put together from texts of operands is
read as the expression that is put together from the operands.
-/

namespace TemplateMessages.Script

open TemplateMessages.Expression (isIdentifierStart isIdentifierChar quotedChars escapeChar
  isDigit_eq_false_of_isIdentifierStart)
open TemplateMessages.Number (Binary64 IsNumeral IsMagnitude)

/-- No token reaches over the end of a text in front of `rest`. -/
def Bounded (rest : List Char) : Prop :=
  rest = [] ∨ ∃ cs, rest = ' ' :: cs

def Lexes (code : List Char) (found : List Token) : Prop :=
  ∀ rest, Bounded rest → tokens (code ++ rest) = (tokens rest).map (found ++ ·)

@[simp] theorem tokens_nil : tokens [] = some [] := by
  rw [tokens]

@[simp] theorem tokens_space (cs : List Char) : tokens (' ' :: cs) = tokens cs := by
  rw [tokens, if_pos rfl]

theorem tokens_cons {c : Char} {cs rest : List Char} {token : Token} (hspace : c ≠ ' ')
    (h : token? c cs = some (token, rest)) :
    tokens (c :: cs) = (tokens rest).map (token :: ·) := by
  rw [tokens, if_neg hspace]
  split
  · rename_i hnone
    rw [h] at hnone
    cases hnone
  · rename_i found after hfound
    rw [h] at hfound
    cases hfound
    rfl

theorem span_of_bounded {p : Char → Bool} {cs rest : List Char} (hcs : ∀ c ∈ cs, p c = true)
    (hspace : p ' ' = false) (h : Bounded rest) :
    (cs ++ rest).takeWhile p = cs ∧ (cs ++ rest).dropWhile p = rest := by
  have hrest : rest.takeWhile p = [] ∧ rest.dropWhile p = rest := by
    rcases h with rfl | ⟨more, rfl⟩
    · exact ⟨rfl, rfl⟩
    · constructor
      · rw [List.takeWhile_cons, hspace, if_neg Bool.false_ne_true]
      · rw [List.dropWhile_cons, hspace, if_neg Bool.false_ne_true]
  constructor
  · rw [List.takeWhile_append_of_pos hcs, hrest.1, List.append_nil]
  · rw [List.dropWhile_append_of_pos hcs, hrest.2]

namespace Lexes

theorem single {c : Char} {cs : List Char} {token : Token} (hspace : c ≠ ' ')
    (h : ∀ rest, Bounded rest → token? c (cs ++ rest) = some (token, rest)) :
    Lexes (c :: cs) [token] := by
  intro rest hrest
  rw [List.cons_append, tokens_cons hspace (h rest hrest)]
  rfl

theorem append {front back : List Char} {first second : List Token} (h : Lexes front first)
    (h' : Lexes back second) : Lexes (front ++ ' ' :: back) (first ++ second) := by
  intro rest hrest
  have hspace : Bounded (' ' :: (back ++ rest)) := Or.inr ⟨_, rfl⟩
  rw [List.append_assoc, List.cons_append, h _ hspace, tokens_space, h' rest hrest,
    Option.map_map]
  congr 1
  funext later
  exact (List.append_assoc first second later).symm

theorem name {c : Char} {cs : List Char} (hstart : isIdentifierStart c = true)
    (hcs : ∀ d ∈ cs, isIdentifierChar d = true) : Lexes (c :: cs) [.name (c :: cs)] := by
  apply single
  · rintro rfl
    revert hstart
    decide
  · intro rest hrest
    obtain ⟨htake, hdrop⟩ := span_of_bounded hcs (by decide) hrest
    rw [token?, isDigit_eq_false_of_isIdentifierStart hstart, if_neg Bool.false_ne_true,
      if_pos hstart, htake, hdrop]

theorem numeral {digits : List Char} (h : IsNumeral digits) :
    Lexes digits [.numeral digits] := by
  obtain ⟨c, cs, rfl, hc, hcs⟩ := h
  apply single
  · rintro rfl
    revert hc
    decide
  · intro rest hrest
    have hchars : ∀ d ∈ cs, isNumeralChar d = true := by
      intro d hd
      rcases hcs d hd with hdigit | rfl
      · rw [isNumeralChar, hdigit, Bool.true_or]
      · rfl
    obtain ⟨htake, hdrop⟩ := span_of_bounded hchars (by decide) hrest
    rw [token?, if_pos hc, htake, hdrop]

theorem string (text : List Char) : Lexes (quotedChars text) [.string text] := by
  apply single (by decide)
  intro rest _
  have hread := readString?_escaped text rest
  rw [token?, if_neg (by decide), if_neg (by decide), if_pos (Or.inl rfl), List.append_assoc,
    List.singleton_append, hread]
  rfl

theorem strictEquals : Lexes "===".toList [.strictEquals] :=
  single (by decide) fun _ _ => rfl

theorem colon : Lexes [':'] [.colon] :=
  single (by decide) fun _ _ => rfl

theorem or : Lexes "||".toList [.or] := by
  apply single (by decide)
  intro rest hrest
  rcases hrest with rfl | ⟨more, rfl⟩ <;> rfl

/-- A magnitude starts with a digit or a letter, so no longer token starts with the sign. -/
theorem minus {body : List Char} {found : List Token} (h : Lexes body found)
    (hbody : IsMagnitude body) : Lexes ('-' :: body) (.minus :: found) := by
  intro rest hrest
  have htoken : token? '-' (body ++ rest) = some (.minus, body ++ rest) := by
    have hhead : ¬((body ++ rest).head? = some '-' ∨ (body ++ rest).head? = some '=') := by
      rcases hbody with rfl | ⟨c, cs, rfl, hc, _⟩
      · simp
      · rw [List.cons_append, List.head?_cons, Option.some.injEq, Option.some.injEq]
        rintro (rfl | rfl)
        · revert hc
          decide
        · revert hc
          decide
    have hsymbol : symbol? ('-' :: (body ++ rest)) = some (.minus, body ++ rest) := by
      rw [symbol?, if_neg hhead]
    rw [← hsymbol]
    rfl
  rw [List.cons_append, tokens_cons (by decide) htoken, h rest hrest, Option.map_map]
  rfl

theorem question : Lexes ['?'] [.question] := by
  apply single (by decide)
  intro rest hrest
  rcases hrest with rfl | ⟨more, rfl⟩ <;> rfl

end Lexes

/-- The text is read as the operand in front of anything. -/
def IsOperand (code : List Char) (expr : Expr) : Prop :=
  ∃ found, Lexes code found ∧ ∀ rest, readOperand (found ++ rest) = some (expr, rest)

/-- The text is read as the expression in front of anything but an operator that binds as
tightly. -/
def IsEquality (code : List Char) (expr : Expr) : Prop :=
  ∃ found, Lexes code found ∧ ∀ rest, rest.head? ≠ some .strictEquals →
    readEquality (found ++ rest) = some (expr, rest)

def IsOr (code : List Char) (expr : Expr) : Prop :=
  ∃ found, Lexes code found ∧ ∀ rest, rest.head? ≠ some .strictEquals → rest.head? ≠ some .or →
    readOr (found ++ rest) = some (expr, rest)

/-- The tokens start with an expression, behind which `rest` is left. -/
def StartsWith (text : List Token) (expr : Expr) (rest : List Token) : Prop :=
  ∃ h, readExpression text = some (expr, ⟨rest, h⟩)

def IsExpression (code : List Char) (expr : Expr) : Prop :=
  ∃ found, Lexes code found ∧ ∀ rest, rest.head? ≠ some .strictEquals → rest.head? ≠ some .or →
    rest.head? ≠ some .question → StartsWith (found ++ rest) expr rest

theorem readComparisons_of_ne {left : Expr} {rest : List Token}
    (h : rest.head? ≠ some .strictEquals) : readComparisons left rest = some (left, rest) := by
  rw [readComparisons.eq_def]
  split
  · exact absurd rfl h
  · rfl

theorem readAlternatives_of_ne {left : Expr} {rest : List Token} (h : rest.head? ≠ some .or) :
    readAlternatives left rest = some (left, rest) := by
  rw [readAlternatives.eq_def]
  split
  · exact absurd rfl h
  · rfl

theorem readComparisons_cons {left right : Expr} {text rest : List Token}
    (h : readOperand text = some (right, rest)) :
    readComparisons left (.strictEquals :: text) =
      readComparisons (.strictEquals left right) rest := by
  rw [readComparisons]
  split
  · rename_i hnone
    rw [h] at hnone
    cases hnone
  · rename_i found after hfound
    rw [h] at hfound
    cases hfound
    rfl

theorem readAlternatives_cons {left right : Expr} {text rest : List Token}
    (h : readEquality text = some (right, rest)) :
    readAlternatives left (.or :: text) = readAlternatives (.or left right) rest := by
  rw [readAlternatives]
  split
  · rename_i hnone
    rw [h] at hnone
    cases hnone
  · rename_i found after hfound
    rw [h] at hfound
    cases hfound
    rfl

theorem startsWith_of_ne {expr : Expr} {text rest : List Token}
    (h : readOr text = some (expr, rest)) (hne : rest.head? ≠ some .question) :
    StartsWith text expr rest := by
  unfold StartsWith
  rw [readExpression.eq_def]
  split
  · rename_i hnone
    rw [h] at hnone
    cases hnone
  · rename_i found after hfound
    rw [h] at hfound
    cases hfound
    exact absurd rfl hne
  · rename_i found after hquestion hfound
    rw [h] at hfound
    cases hfound
    exact ⟨length_lt_of_readOr h, rfl⟩

theorem StartsWith.conditional {test yes no : Expr} {text middle last rest : List Token}
    (h : readOr text = some (test, .question :: middle))
    (hyes : StartsWith middle yes (.colon :: last)) (hno : StartsWith last no rest) :
    StartsWith text (.conditional test yes no) rest := by
  obtain ⟨hmiddle, hyes⟩ := hyes
  obtain ⟨hlast, hno⟩ := hno
  have hlength : rest.length < text.length := by
    have htest := length_lt_of_readOr h
    have hinner := hmiddle
    simp only [List.length_cons] at htest hinner
    omega
  unfold StartsWith
  rw [readExpression.eq_def]
  split
  · rename_i hnone
    rw [h] at hnone
    cases hnone
  · rename_i found after hfound
    rw [h] at hfound
    cases hfound
    simp only [hyes, hno]
    exact ⟨hlength, trivial⟩
  · rename_i found after hquestion hfound
    rw [h] at hfound
    cases hfound
    exact (hquestion _ rfl).elim

section

variable {a b c : List Char} {x y z : Expr}

theorem isOperand_name {d : Char} {ds : List Char} (hstart : isIdentifierStart d = true)
    (hds : ∀ e ∈ ds, isIdentifierChar e = true) : IsOperand (d :: ds) (.name (d :: ds)) :=
  ⟨_, Lexes.name hstart hds, fun _ => rfl⟩

theorem isOperand_numeral (h : IsNumeral a) : IsOperand a (.numeral a) :=
  ⟨_, Lexes.numeral h, fun _ => rfl⟩

theorem IsOperand.negative (h : IsOperand a x) (hbody : IsMagnitude a) :
    IsOperand ('-' :: a) (.negative x) := by
  obtain ⟨found, hlexes, hread⟩ := h
  refine ⟨_, hlexes.minus hbody, ?_⟩
  intro rest
  rw [List.cons_append, readOperand, hread]
  rfl

theorem eval_infinity {names : Names} (h : names.lookup "Infinity".toList = none) :
    eval names (.name "Infinity".toList) = some (.number (.infinity false)) := by
  rw [eval, h, if_pos rfl]
  rfl

/-- The text of a number is an operand, whose value depends on no name but `Infinity`. -/
theorem isOperand_number {value : Binary64} (h : value ≠ .nan) :
    ∃ x, IsOperand value.text.toList x ∧
      ∀ names : Names, names.lookup "Infinity".toList = none → eval names x = eval [] x := by
  obtain ⟨body, hbody, htext⟩ := Binary64.text_shape h
  obtain ⟨x, hx, heval⟩ : ∃ x, IsOperand body x ∧
      ∀ names : Names, names.lookup "Infinity".toList = none → eval names x = eval [] x := by
    rcases hbody with rfl | hnumeral
    · refine ⟨.name "Infinity".toList, ?_, ?_⟩
      · exact isOperand_name (by decide) (List.all_eq_true.mp (by decide))
      · intro names hnames
        rw [eval_infinity hnames, eval_infinity List.lookup_nil]
    · refine ⟨.numeral body, isOperand_numeral hnumeral, ?_⟩
      intro names _
      rw [eval, eval]
  rcases htext with heq | heq
  · rw [heq]
    exact ⟨x, hx, heval⟩
  · rw [heq]
    refine ⟨_, hx.negative hbody, ?_⟩
    intro names hnames
    rw [eval, eval, heval names hnames]

theorem isOperand_string (text : List Char) : IsOperand (quotedChars text) (.string text) :=
  ⟨_, Lexes.string text, fun _ => rfl⟩

theorem IsOperand.isEquality (h : IsOperand a x) : IsEquality a x := by
  obtain ⟨found, hlexes, hread⟩ := h
  refine ⟨found, hlexes, ?_⟩
  intro rest hrest
  rw [readEquality, hread]
  exact readComparisons_of_ne hrest

theorem IsOperand.strictEquals (h : IsOperand a x) (h' : IsOperand b y) :
    IsEquality (a ++ ' ' :: ("===".toList ++ ' ' :: b)) (.strictEquals x y) := by
  obtain ⟨first, hfirst, hx⟩ := h
  obtain ⟨second, hsecond, hy⟩ := h'
  refine ⟨_, hfirst.append (Lexes.strictEquals.append hsecond), ?_⟩
  intro rest hrest
  rw [readEquality, List.append_assoc, hx, List.append_assoc, List.singleton_append]
  exact (readComparisons_cons (hy rest)).trans (readComparisons_of_ne hrest)

theorem IsEquality.isOr (h : IsEquality a x) : IsOr a x := by
  obtain ⟨found, hlexes, hread⟩ := h
  refine ⟨found, hlexes, ?_⟩
  intro rest hrest hor
  rw [readOr, hread rest hrest]
  exact readAlternatives_of_ne hor

theorem IsEquality.or (h : IsEquality a x) (h' : IsEquality b y) :
    IsOr (a ++ ' ' :: ("||".toList ++ ' ' :: b)) (.or x y) := by
  obtain ⟨first, hfirst, hx⟩ := h
  obtain ⟨second, hsecond, hy⟩ := h'
  refine ⟨_, hfirst.append (Lexes.or.append hsecond), ?_⟩
  intro rest hrest hor
  rw [readOr, List.append_assoc, hx _ (by simp), List.append_assoc, List.singleton_append]
  exact (readAlternatives_cons (hy rest hrest)).trans (readAlternatives_of_ne hor)

theorem IsOr.isExpression (h : IsOr a x) : IsExpression a x := by
  obtain ⟨found, hlexes, hread⟩ := h
  refine ⟨found, hlexes, ?_⟩
  intro rest hrest hor hquestion
  exact startsWith_of_ne (hread rest hrest hor) hquestion

theorem IsOr.conditional (h : IsOr a x) (h' : IsExpression b y) (h'' : IsExpression c z) :
    IsExpression (a ++ ' ' :: (['?'] ++ ' ' :: (b ++ ' ' :: ([':'] ++ ' ' :: c))))
      (.conditional x y z) := by
  obtain ⟨first, hfirst, hx⟩ := h
  obtain ⟨second, hsecond, hy⟩ := h'
  obtain ⟨third, hthird, hz⟩ := h''
  refine ⟨_, hfirst.append (Lexes.question.append (hsecond.append (Lexes.colon.append hthird))), ?_⟩
  intro rest hrest hor hquestion
  simp only [List.append_assoc, List.cons_append]
  have htest := hx (.question :: (second ++ .colon :: (third ++ rest))) (by simp) (by simp)
  have hyes := hy (.colon :: (third ++ rest)) (by simp) (by simp) (by simp)
  exact StartsWith.conditional htest hyes (hz rest hrest hor hquestion)

theorem run_of_isExpression (names : Names) (h : IsExpression a x) :
    run names a = eval names x := by
  obtain ⟨found, hlexes, hread⟩ := h
  have htokens : tokens a = some found := by
    have hwhole := hlexes [] (Or.inl rfl)
    rwa [List.append_nil, tokens_nil, Option.map_some, List.append_nil] at hwhole
  have hwhole := hread [] (by simp) (by simp) (by simp)
  rw [List.append_nil] at hwhole
  obtain ⟨_, hstarts⟩ := hwhole
  unfold run
  simp only [htokens, Option.bind_eq_bind, Option.bind_some, hstarts]

end

end TemplateMessages.Script
