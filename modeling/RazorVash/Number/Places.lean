import RazorVash.Number.Binary64

namespace RazorVash.Binary64

abbrev Magnitude := Nat × Nat

def roundScaled (value : Magnitude) (shift : Int) : Nat :=
  let (n, d) := scaled 10 1 shift
  roundDiv (value.1 * n) (value.2 * d)

/-- Digits with a decimal point before the last `places` of them; `pointed` keeps a point that
nothing follows. -/
def withPoint (pointed : Bool) (places : Nat) (digits : Text) : Text :=
  let whole := digits.take (digits.length - places)
  let fraction := digits.drop (digits.length - places)
  if fraction = [] ∧ !pointed then whole else whole ++ '.' :: fraction

def showFixed (pointed : Bool) (places : Nat) (value : Magnitude) : Text :=
  withPoint pointed places (Text.decimal (places + 1) (roundScaled value places))

/-- The number rounded to `count` digits, as a whole number, with the exponent of its first
digit. -/
def leadingDigits (count : Nat) (value : Magnitude) : Nat × Int :=
  if value.1 = 0 then (0, 0)
  else
    let exponent := decimalExponent value.1 value.2
    let digits := roundScaled value (count - 1 - exponent)
    if digits = Nat.pow 10 count then (Nat.pow 10 (count - 1), exponent + 1)
    else (digits, exponent)

def showExponent (exponent : Int) : Text :=
  'e' :: (if exponent < 0 then '-' else '+') :: Text.decimal 2 exponent.natAbs

def showScientific (pointed : Bool) (places : Nat) (value : Magnitude) : Text :=
  let (digits, exponent) := leadingDigits (places + 1) value
  withPoint pointed places (Text.decimal (places + 1) digits) ++ showExponent exponent

def withoutZeros (text : Text) : Text :=
  if '.' ∈ text then
    match text.reverse.dropWhile (· = '0') with
    | '.' :: rest => rest.reverse
    | rest => rest.reverse
  else text

/-- `count` significant digits, with an exponent below 0.0001 and where the digits do not reach the
point. Zeros at the end are left out unless they are to be kept. -/
def showGeneral (keepZeros : Bool) (count : Nat) (value : Magnitude) : Text :=
  let count := max count 1
  let (digits, exponent) := leadingDigits count value
  let trim (text : Text) : Text := if keepZeros then text else withoutZeros text
  if -4 ≤ exponent ∧ exponent < count then
    trim (showFixed keepZeros (count - 1 - exponent).toNat value)
  else trim (withPoint keepZeros (count - 1) (Text.decimal count digits)) ++ showExponent exponent

end RazorVash.Binary64
