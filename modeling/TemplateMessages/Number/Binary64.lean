set_option autoImplicit false

/-!
# Double precision numbers

A finite number is kept as its exact value, a significand times a power of two, and every operation
is exact integer arithmetic followed by one rounding to the nearest number, a tie going to the even
significand.
-/

namespace TemplateMessages.Number

/-- A finite number is `± significand * 2 ^ scale` units, the unit being `2 ^ -1074`. The functions
below give a significand under `2 ^ 53`, and one of at least `2 ^ 52` unless the scale is 0. -/
inductive Binary64 where
  | nan
  | infinity (negative : Bool)
  | finite (negative : Bool) (significand : Nat) (scale : Nat)
  deriving DecidableEq, Repr, Inhabited

def unitsPerOne : Nat := Nat.pow 2 1074

def leastFull : Nat := 0x10000000000000

/-- The integer nearest to `numerator / denominator`, a tie going to the even one. -/
def roundHalfEven (numerator denominator : Nat) : Nat :=
  let quotient := numerator / denominator
  let twice := 2 * (numerator % denominator)
  if denominator < twice ∨ (twice = denominator ∧ quotient % 2 = 1) then quotient + 1 else quotient

namespace Binary64

def zero : Binary64 := .finite false 0 0

def ofUnits (negative : Bool) (numerator denominator : Nat) : Binary64 :=
  let scale := (numerator / denominator).log2 - 52
  let significand := roundHalfEven numerator (denominator * Nat.pow 2 scale)
  let (significand, scale) :=
    if significand = 2 * leastFull then (leastFull, scale + 1) else (significand, scale)
  if 2045 < scale then .infinity negative else .finite negative significand scale

def ofRatio (negative : Bool) (numerator denominator : Nat) : Binary64 :=
  ofUnits negative (numerator * unitsPerOne) denominator

/-- The number nearest to `digits * 10 ^ exponent`. The far ends of the exponent are decided
without computing the power: nothing reaches `10 ^ 400`, and nothing below `10 ^ -400` is more than
half a unit. -/
def ofDecimal (negative : Bool) (digits : Nat) (exponent : Int) : Binary64 :=
  if digits = 0 then .finite negative 0 0
  else if 400 ≤ exponent then .infinity negative
  else if 0 ≤ exponent then ofRatio negative (digits * Nat.pow 10 exponent.toNat) 1
  else if (Nat.toDigits 10 digits).length + exponent < -400 then .finite negative 0 0
  else ofRatio negative digits (Nat.pow 10 (-exponent).toNat)

def ofNat (n : Nat) : Binary64 :=
  ofRatio false n 1

def neg : Binary64 → Binary64
  | nan => nan
  | infinity negative => infinity (!negative)
  | finite negative significand scale => finite (!negative) significand scale

def units (significand scale : Nat) : Nat :=
  significand * Nat.pow 2 scale

def signedUnits (negative : Bool) (significand scale : Nat) : Int :=
  if negative then -(units significand scale : Int) else (units significand scale : Int)

/-- The rounded sum. The sum of two opposite numbers is positive zero, and that of two negative
zeros is a negative one. -/
def add : Binary64 → Binary64 → Binary64
  | nan, _ => nan
  | _, nan => nan
  | infinity a, infinity b => if a = b then infinity a else nan
  | infinity a, finite .. => infinity a
  | finite .., infinity b => infinity b
  | finite a m s, finite b n t =>
    let sum := signedUnits a m s + signedUnits b n t
    if sum = 0 then .finite (a && b) 0 0 else ofUnits (decide (sum < 0)) sum.natAbs 1

def isNegative : Binary64 → Bool
  | nan => false
  | infinity negative => negative
  | finite negative .. => negative

def mul (a b : Binary64) : Binary64 :=
  let negative := a.isNegative != b.isNegative
  match a, b with
  | nan, _ => nan
  | _, nan => nan
  | infinity _, infinity _ => infinity negative
  | infinity _, finite _ n _ => if n = 0 then nan else infinity negative
  | finite _ m _, infinity _ => if m = 0 then nan else infinity negative
  | finite _ m s, finite _ n t => ofUnits negative (units m s * units n t) unitsPerOne

def div (a b : Binary64) : Binary64 :=
  let negative := a.isNegative != b.isNegative
  match a, b with
  | nan, _ => nan
  | _, nan => nan
  | infinity _, infinity _ => nan
  | infinity _, finite .. => infinity negative
  | finite .., infinity _ => finite negative 0 0
  | finite _ m s, finite _ n t =>
    if n = 0 then (if m = 0 then nan else infinity negative)
    else ofUnits negative (units m s * unitsPerOne) (units n t)

def isZero : Binary64 → Bool
  | finite _ 0 _ => true
  | _ => false

def isFinite : Binary64 → Bool
  | finite .. => true
  | _ => false

/-- Equal as numbers: nothing equals `nan`, and both zeros are equal. -/
def equals (a b : Binary64) : Bool :=
  match a, b with
  | nan, _ => false
  | _, nan => false
  | _, _ => a == b || (a.isZero && b.isZero)

def wholePart : Binary64 → Nat
  | finite _ significand scale => units significand scale / unitsPerOne
  | _ => 0

def isWhole : Binary64 → Bool
  | finite _ significand scale => units significand scale % unitsPerOne == 0
  | _ => false

def signBit : Nat := 0x8000000000000000

def toBits : Binary64 → Nat
  | nan => 0x7FF8000000000000
  | infinity negative => (if negative then signBit else 0) + 0x7FF0000000000000
  | finite negative significand scale =>
    let sign := if negative then signBit else 0
    if significand < leastFull then sign + significand
    else sign + (scale + 1) * leastFull + (significand - leastFull)

def ofBits (bits : Nat) : Binary64 :=
  let negative := bits / signBit % 2 == 1
  let field := bits / leastFull % 0x800
  let fraction := bits % leastFull
  if field = 0x7FF then (if fraction = 0 then .infinity negative else .nan)
  else if field = 0 then .finite negative fraction 0
  else .finite negative (leastFull + fraction) (field - 1)

end Binary64

end TemplateMessages.Number
