import TemplateMessages.Number.Binary64

set_option autoImplicit false

/-!
# Decimal text of numbers

`Decimal.shortest` finds the fewest digits that read back as a given number, and of those the
nearest. `Binary64.text` is the text that a script prints, and `Decimal.ofText?` reads a decimal
text.
-/

namespace TemplateMessages.Number

structure Decimal where
  digits : Nat
  exponent : Int
  deriving DecidableEq, Repr, Inhabited

namespace Decimal

structure Interval where
  low : Nat
  value : Nat
  high : Nat
  /-- The ends themselves round to the number. -/
  closed : Bool
  deriving Repr

/-- Half-way to both neighbours; the lower neighbour of a power of two is half as far away. -/
def Interval.around (significand scale : Nat) : Interval where
  low :=
    Binary64.units
      (if significand = leastFull ∧ 0 < scale then 4 * significand - 1 else 4 * significand - 2)
      scale
  value := Binary64.units (4 * significand) scale
  high := Binary64.units (4 * significand + 2) scale
  closed := significand % 2 == 0

def Interval.holds (interval : Interval) (numerator denominator : Nat) : Bool :=
  if interval.closed then
    interval.low * denominator ≤ numerator && numerator ≤ interval.high * denominator
  else interval.low * denominator < numerator && numerator < interval.high * denominator

def magnitude (value : Nat) : Int :=
  let one := 4 * unitsPerOne
  if one ≤ value then (Nat.toDigits 10 (value / one)).length
  else
    let inverse := (one + value - 1) / value
    1 - ((Nat.toDigits 10 (inverse - 1)).length : Int)

/-- The multiple of `10 ^ exponent` that lies in the interval and is nearest to its value: one of
the two neighbours of the value, the upper one on a tie. -/
def nearestAt (interval : Interval) (exponent : Int) : Option Nat :=
  let one := 4 * unitsPerOne
  let step := if 0 ≤ exponent then one * Nat.pow 10 exponent.toNat else one
  let denominator := if 0 ≤ exponent then 1 else Nat.pow 10 (-exponent).toNat
  let scaled := interval.value * denominator
  let below := scaled / step
  let remainder := scaled % step
  let lower := decide (0 < below) && interval.holds (below * step) denominator
  let upper := interval.holds ((below + 1) * step) denominator
  match lower, upper with
  | true, true => if 2 * remainder < step then some below else some (below + 1)
  | true, false => some below
  | false, true => some (below + 1)
  | false, false => none

def firstGrid (interval : Interval) (top : Int) (count : Nat) : Nat → Decimal
  | 0 => ⟨interval.value, 0⟩
  | remaining + 1 =>
    match nearestAt interval (top - count) with
    | some digits => ⟨digits, top - count⟩
    | none => firstGrid interval top (count + 1) remaining

def shortest (significand scale : Nat) : Decimal :=
  let interval := Interval.around significand scale
  firstGrid interval (magnitude interval.value) 1 17

def positional (decimal : Decimal) : String :=
  let digits := Nat.toDigits 10 decimal.digits
  if 0 ≤ decimal.exponent then
    String.ofList (digits ++ List.replicate decimal.exponent.toNat '0')
  else
    let places := (-decimal.exponent).toNat
    let padded := List.replicate (places + 1 - digits.length) '0' ++ digits
    let whole := padded.take (padded.length - places)
    let fraction := padded.drop (padded.length - places)
    String.ofList (whole ++ '.' :: fraction)

def withoutTrailingZeros (decimal : Decimal) : Decimal :=
  let zeros := ((Nat.toDigits 10 decimal.digits).reverse.takeWhile (· = '0')).length
  if decimal.digits = 0 then decimal
  else ⟨decimal.digits / Nat.pow 10 zeros, decimal.exponent + zeros⟩

def digitsValue (cs : List Char) : Nat :=
  cs.foldl (fun value c => 10 * value + (c.toNat - '0'.toNat)) 0

def exponentOfText? (cs : List Char) : Option Int :=
  let read (digits : List Char) : Option Nat :=
    if digits.isEmpty || !digits.all Char.isDigit then none else some (digitsValue digits)
  match cs with
  | '-' :: digits => (read digits).map fun n => -(n : Int)
  | '+' :: digits => (read digits).map fun n => (n : Int)
  | digits => (read digits).map fun n => (n : Int)

def ofText? (cs : List Char) : Option Decimal :=
  let whole := cs.takeWhile Char.isDigit
  let afterWhole := cs.dropWhile Char.isDigit
  let (fraction, rest) := match afterWhole with
    | '.' :: more => (more.takeWhile Char.isDigit, more.dropWhile Char.isDigit)
    | _ => ([], afterWhole)
  if whole.isEmpty && fraction.isEmpty then none
  else
    let digits := digitsValue (whole ++ fraction)
    match rest with
    | [] => some ⟨digits, -(fraction.length : Int)⟩
    | e :: exponent =>
      if e = 'e' ∨ e = 'E' then
        (exponentOfText? exponent).map fun n => ⟨digits, n - fraction.length⟩
      else none

end Decimal

namespace Binary64

def ofText? (cs : List Char) : Option Binary64 :=
  match cs with
  | '-' :: unsigned => (Decimal.ofText? unsigned).map fun d => ofDecimal true d.digits d.exponent
  | '+' :: unsigned => (Decimal.ofText? unsigned).map fun d => ofDecimal false d.digits d.exponent
  | unsigned => (Decimal.ofText? unsigned).map fun d => ofDecimal false d.digits d.exponent

/-- The text of a number in a script: a whole number under `10 ^ 21` with all its digits, any other
one with the fewest that read back, always positional; both zeros as `0`. -/
def text : Binary64 → String
  | nan => "NaN"
  | infinity negative => if negative then "-Infinity" else "Infinity"
  | finite negative significand scale =>
    let number := Binary64.finite negative significand scale
    if number.isZero then "0"
    else
      let unsigned :=
        if number.isWhole && decide (number.wholePart < Nat.pow 10 21) then
          toString number.wholePart
        else (Decimal.shortest significand scale).withoutTrailingZeros.positional
      if negative then "-" ++ unsigned else unsigned

end Binary64

end TemplateMessages.Number
