import TemplateMessages.Number.Decimal

set_option autoImplicit false

/-!
# Cardinal plural rules

A rule gives the numbers of one plural category as an alternative of conditions on the operands of
a number. The operands come from the printed number, so only digits that are printed count.
-/

namespace TemplateMessages.Plural

open TemplateMessages.Number (Binary64)

inductive Category where
  | zero
  | one
  | two
  | few
  | many
  | other
  deriving DecidableEq, Repr, Inhabited

def Category.name : Category → String
  | zero => "zero"
  | one => "one"
  | two => "two"
  | few => "few"
  | many => "many"
  | other => "other"

inductive Operand where
  /-- The absolute value; it meets no number when there is a fraction. -/
  | n
  | i
  | v
  /-- The fraction as a whole number. -/
  | f
  /-- The same without trailing zeros. -/
  | t
  deriving DecidableEq, Repr, Inhabited

/-- The digits of a number: its whole part and its fraction, cut after `maxFraction` digits. -/
structure Operands where
  whole : Nat
  fraction : List Char
  deriving Repr, Inhabited

def maxFraction : Nat := 18

namespace Operands

/-- The operands of a printed decimal number without an exponent. -/
def ofText (text : List Char) : Operands where
  whole := Number.Decimal.digitsValue ((text.takeWhile (· != '.')).filter Char.isDigit)
  fraction := ((text.dropWhile (· != '.')).drop 1).take maxFraction

def value (operands : Operands) : Operand → Option Nat
  | .n => if operands.fraction.all (· == '0') then some operands.whole else none
  | .i => some operands.whole
  | .v => some operands.fraction.length
  | .f => some (Number.Decimal.digitsValue operands.fraction)
  | .t => some (Number.Decimal.digitsValue
      (operands.fraction.reverse.dropWhile (· == '0')).reverse)

end Operands

/-- An operand's remainder by a modulus lies in one of the ranges, or in none. The modulus 0 leaves
the operand as it is. -/
inductive Relation where
  | among (operand : Operand) (modulus : Nat) (ranges : List (Nat × Nat))
  | notAmong (operand : Operand) (modulus : Nat) (ranges : List (Nat × Nat))
  deriving Repr, Inhabited

def inRanges (value : Option Nat) (modulus : Nat) (ranges : List (Nat × Nat)) : Bool :=
  value.any fun value =>
    ranges.any fun (low, high) => low ≤ value % modulus && value % modulus ≤ high

def Relation.holds (operands : Operands) : Relation → Bool
  | among operand modulus ranges => inRanges (operands.value operand) modulus ranges
  | notAmong operand modulus ranges => !inRanges (operands.value operand) modulus ranges

abbrev Condition := List (List Relation)

def Condition.holds (condition : Condition) (operands : Operands) : Bool :=
  condition.any fun relations => relations.all (·.holds operands)

abbrev Rules := List (Category × Condition)

namespace Rules

def categoryOf (rules : Rules) (operands : Operands) : Category :=
  match rules.find? fun rule => Condition.holds rule.2 operands with
  | some rule => rule.1
  | none => .other

def category (rules : Rules) (number : Binary64) : Category :=
  if number.isFinite then categoryOf rules (Operands.ofText number.text.toList) else .other

end Rules

end TemplateMessages.Plural
