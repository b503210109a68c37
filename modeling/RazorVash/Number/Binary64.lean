import RazorVash.Text.Basic

/-!
Double-precision numbers as exact values: a finite one is its significand times a power of two. A
decimal is rounded to the nearest of them, to the even significand at a tie, and a double is shown
by the fewest digits that round back to it, in exact arithmetic throughout.
-/
namespace RazorVash

inductive Binary64
  | finite (negative : Bool) (significand : Nat) (exponent : Int)
  | infinite (negative : Bool)
  | nan
deriving DecidableEq, Repr

namespace Binary64

/-- The least significand of a number that is not among the smallest, two to the power of 52. -/
def leastFull : Nat := 0x10000000000000

def smallestExponent : Int := -1074

def largestExponent : Int := 971

/-- The numerator and the denominator of `value * base ^ exponent`. -/
def scaled (base value : Nat) (exponent : Int) : Nat × Nat :=
  if exponent < 0 then (value, base.pow exponent.natAbs)
  else (value * base.pow exponent.natAbs, 1)

/-- The quotient rounded to the nearest number, a half to the even one. -/
def roundDiv (numerator denominator : Nat) : Nat :=
  let quotient := numerator / denominator
  let twice := 2 * (numerator % denominator)
  if twice > denominator ∨ (twice = denominator ∧ quotient % 2 = 1) then quotient + 1 else quotient

/-- The quotient over a power of two, as a numerator and a denominator. -/
def overPower (numerator denominator : Nat) (exponent : Int) : Nat × Nat :=
  if exponent < 0 then (numerator * Nat.pow 2 exponent.natAbs, denominator)
  else (numerator, denominator * Nat.pow 2 exponent.natAbs)

def ofQuotient (negative : Bool) (numerator denominator : Nat) : Binary64 :=
  let guess : Int := (Nat.log2 numerator : Int) - Nat.log2 denominator - 52
  let (n, d) := overPower numerator denominator guess
  let exponent := max smallestExponent (if n / d < leastFull then guess - 1 else guess)
  let (n, d) := overPower numerator denominator exponent
  let significand := roundDiv n d
  let (significand, exponent) :=
    if significand = 2 * leastFull then (leastFull, exponent + 1) else (significand, exponent)
  if exponent > largestExponent then .infinite negative
  else .finite negative significand exponent

def zero (negative : Bool) : Binary64 := .finite negative 0 smallestExponent

/-- The double nearest to `digits` with the decimal point moved by `shift` places. Numbers far out
of range are settled by the count of their digits. -/
def ofDecimal (negative : Bool) (digits : Nat) (shift : Int) : Binary64 :=
  let size : Int := (Text.ofNat digits).length + shift
  if digits = 0 ∨ size < -400 then zero negative
  else if size > 400 then .infinite negative
  else
    let (n, d) := scaled 10 digits shift
    ofQuotient negative n d

def quotient (significand : Nat) (exponent : Int) : Nat × Nat := scaled 2 significand exponent

/-- The largest power of ten not above a positive quotient. -/
def decimalExponent (numerator denominator : Nat) : Int :=
  let guess : Int := (Text.ofNat numerator).length - (Text.ofNat denominator).length
  let (n, d) := scaled 10 1 guess
  if n * denominator ≤ numerator * d then guess else guess - 1

/-- Whether `candidate * 10 ^ place` rounds to the double: it lies between the midpoints to the two
neighbours, an end counting when the significand is even. -/
def readsBack (significand : Nat) (exponent : Int) (candidate : Nat) (place : Int) : Bool :=
  let (n, d) := scaled 10 candidate place
  let (lowN, lowD) :=
    if significand = leastFull ∧ exponent > smallestExponent then
      quotient (4 * significand - 1) (exponent - 2)
    else quotient (2 * significand - 1) (exponent - 1)
  let (highN, highD) := quotient (2 * significand + 1) (exponent - 1)
  if significand % 2 = 0 then lowN * d ≤ n * lowD && n * highD ≤ highN * d
  else lowN * d < n * lowD && n * highD < highN * d

/-- The decimal with `count` digits that reads back, the nearer one of two. -/
def nearestWith (count : Nat) (significand : Nat) (exponent : Int) : Option (Nat × Int) :=
  let (n, d) := quotient significand exponent
  let place := decimalExponent n d - count + 1
  let (stepN, stepD) := scaled 10 1 place
  let below := n * stepD / (d * stepN)
  let nearest := roundDiv (n * stepD) (d * stepN)
  let other := if nearest = below then below + 1 else below
  if readsBack significand exponent nearest place then some (nearest, place)
  else if readsBack significand exponent other place then some (other, place)
  else none

def shortest (significand : Nat) (exponent : Int) : Nat × Int :=
  ((List.range 17).findSome? fun count => nearestWith (count + 1) significand exponent).getD (0, 0)

/-- The digits without the zeros at their end, and where the decimal point stands from their
beginning. -/
def digitsAndPoint (significand : Nat) (exponent : Int) : Text × Int :=
  if significand = 0 then (['0'], 1)
  else
    let (value, place) := shortest significand exponent
    let digits := Text.ofNat value
    let trimmed := (digits.reverse.dropWhile (· = '0')).reverse
    (trimmed, digits.length + place)

/-- Positional from 0.0001 to below 10^16, with an exponent of at least two digits elsewhere. -/
def layout (digits : Text) (point : Int) : Text :=
  if -4 < point ∧ point ≤ 16 then
    if point ≤ 0 then "0.".toList ++ List.replicate point.natAbs '0' ++ digits
    else if digits.length ≤ point then
      digits ++ List.replicate (point.toNat - digits.length) '0' ++ ".0".toList
    else digits.take point.toNat ++ '.' :: digits.drop point.toNat
  else
    let exponent := point - 1
    let mantissa := if digits.length = 1 then digits else digits.take 1 ++ '.' :: digits.drop 1
    mantissa ++ 'e' :: (if exponent < 0 then '-' else '+') :: Text.decimal 2 exponent.natAbs

def render : Binary64 → Text
  | nan => "nan".toList
  | infinite negative => if negative then "-inf".toList else "inf".toList
  | finite negative significand exponent =>
    let (digits, point) := digitsAndPoint significand exponent
    let text := layout digits point
    if negative then '-' :: text else text

def floor? : Binary64 → Option Int
  | finite negative significand exponent =>
    let (n, d) := quotient significand exponent
    some (if negative then -((n + d - 1) / d : Nat) else (n / d : Nat))
  | _ => none

end Binary64

end RazorVash
