import LineProbe.Text.Basic

/-!
# Binary floating-point numbers

Numbers with 53 binary digits and a bounded exponent, an infinity of each sign, and one value that is no number.
-/

namespace LineProbe

/-- A double-precision number. A finite one is `± significand * 2 ^ exponent`. -/
inductive Binary64 where
  | nan
  | infinite (negative : Bool)
  | finite (negative : Bool) (significand : Nat) (exponent : Int)
deriving DecidableEq, Repr

namespace Binary64

def minExponent : Int := -1074

def maxExponent : Int := 971

def zero (negative : Bool) : Binary64 :=
  .finite negative 0 minExponent

def scaled (numerator denominator : Nat) (exponent : Int) : Nat × Nat :=
  if 0 ≤ exponent then (numerator, denominator * Nat.pow 2 exponent.toNat)
  else (numerator * Nat.pow 2 (-exponent).toNat, denominator)

def roundedRatio (numerator denominator : Nat) : Nat :=
  let quotient := numerator / denominator
  let twice := 2 * (numerator % denominator)
  if twice < denominator || (twice == denominator && quotient % 2 == 0) then quotient
  else quotient + 1

def ofRatio (negative : Bool) (numerator denominator : Nat) : Binary64 :=
  if numerator = 0 then zero negative
  else
    let guess : Int := (numerator.log2 : Int) - denominator.log2 - 53
    let atGuess := scaled numerator denominator guess
    let exponent := max minExponent (if Nat.pow 2 53 ≤ atGuess.1 / atGuess.2 then guess + 1 else guess)
    let ratio := scaled numerator denominator exponent
    let significand := roundedRatio ratio.1 ratio.2
    let carried := significand == Nat.pow 2 53
    let exponent := if carried then exponent + 1 else exponent
    if maxExponent < exponent then .infinite negative
    else .finite negative (if carried then Nat.pow 2 52 else significand) exponent

def ofDecimal (negative : Bool) (digits : Nat) (exponent : Int) : Binary64 :=
  let magnitude := (Text.ofNat digits).length + exponent
  if digits = 0 || magnitude < -400 then zero negative
  else if 400 < magnitude then .infinite negative
  else if 0 ≤ exponent then ofRatio negative (digits * Nat.pow 10 exponent.toNat) 1
  else ofRatio negative digits (Nat.pow 10 (-exponent).toNat)

def truncate? : Binary64 → Option Int
  | .finite negative significand exponent =>
    let ratio := scaled significand 1 (-exponent)
    let whole : Int := ratio.1 / ratio.2
    some (if negative then -whole else whole)
  | _ => none

def isWhole : Binary64 → Bool
  | .finite _ significand exponent =>
    let ratio := scaled significand 1 (-exponent)
    ratio.1 % ratio.2 == 0
  | _ => false

end Binary64

end LineProbe
