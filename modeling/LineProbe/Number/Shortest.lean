import LineProbe.Number.Binary64

/-!
# Shortest decimals

The text of a floating-point number has the fewest significant digits that read back as that number; of several such
digit strings, the one nearest to the number is taken.
-/

namespace LineProbe.Binary64

structure Ratio where
  numerator : Nat
  denominator : Nat

def Ratio.lt (a b : Ratio) : Bool :=
  a.numerator * b.denominator < b.numerator * a.denominator

def Ratio.ofBinary (significand : Nat) (exponent : Int) : Ratio :=
  let ratio := scaled significand 1 (-exponent)
  ⟨ratio.1, ratio.2⟩

def Ratio.ofDecimal (digits : Nat) (exponent : Int) : Ratio :=
  if 0 ≤ exponent then ⟨digits * Nat.pow 10 exponent.toNat, 1⟩ else ⟨digits, Nat.pow 10 (-exponent).toNat⟩

def Ratio.firstWeight (ratio : Ratio) : Int :=
  let guess : Int := (Text.ofNat ratio.numerator).length - (Text.ofNat ratio.denominator).length
  if ratio.lt (.ofDecimal 1 guess) then guess - 1 else guess

structure Neighbourhood where
  low : Ratio
  high : Ratio
  closed : Bool

def neighbourhood (significand : Nat) (exponent : Int) : Neighbourhood where
  low :=
    if significand = Nat.pow 2 52 && minExponent < exponent then
      .ofBinary (4 * significand - 1) (exponent - 2)
    else .ofBinary (2 * significand - 1) (exponent - 1)
  high := .ofBinary (2 * significand + 1) (exponent - 1)
  closed := significand % 2 == 0

def Neighbourhood.contains (near : Neighbourhood) (ratio : Ratio) : Bool :=
  if near.closed then !ratio.lt near.low && !near.high.lt ratio
  else near.low.lt ratio && ratio.lt near.high

def nearestMultiple? (near : Neighbourhood) (value : Ratio) (unit : Int) : Option Nat :=
  let step := Ratio.ofDecimal 1 unit
  let numerator := value.numerator * step.denominator
  let denominator := value.denominator * step.numerator
  let below := numerator / denominator
  let above := below + 1
  let belowFits := near.contains (.ofDecimal below unit)
  let aboveFits := near.contains (.ofDecimal above unit)
  if belowFits && aboveFits then some (roundedRatio numerator denominator)
  else if belowFits then some below
  else if aboveFits then some above
  else none

def searchDigits (near : Neighbourhood) (value : Ratio) (weight : Int) : Nat → Nat → Nat × Int
  | 0, count => (value.numerator / value.denominator, weight - count)
  | tries + 1, count =>
    let unit := weight - count + 1
    match nearestMultiple? near value unit with
    | some multiple => (multiple, unit)
    | none => searchDigits near value weight tries (count + 1)

def shortestDigits (significand : Nat) (exponent : Int) : Text × Int :=
  let value := Ratio.ofBinary significand exponent
  let near := neighbourhood significand exponent
  let (multiple, unit) := searchDigits near value value.firstWeight 17 1
  let digits := Text.ofNat multiple
  let weight := unit + digits.length - 1
  let kept := (digits.reverse.dropWhile (· == '0')).reverse
  (kept, weight)

def exponentText (exponent : Int) : Text :=
  let digits := Text.ofNat exponent.natAbs
  (if exponent < 0 then '-' else '+') :: (if digits.length < 2 then '0' :: digits else digits)

def positioned (digits : Text) (weight : Int) : Text :=
  if -4 ≤ weight && weight < 16 then
    if weight < 0 then "0." ++ List.replicate (-weight - 1).toNat '0' ++ digits
    else
      let whole := weight.toNat + 1
      let padded := digits ++ List.replicate (whole - digits.length) '0'
      let fraction := padded.drop whole
      padded.take whole ++ ['.'] ++ (if fraction = [] then ['0'] else fraction)
  else
    digits.take 1 ++ (if digits.length ≤ 1 then [] else '.' :: digits.drop 1) ++ ['e'] ++
      exponentText weight

def text : Binary64 → Text
  | .nan => "nan"
  | .infinite negative => if negative then "-inf" else "inf"
  | .finite negative significand exponent =>
    let magnitude :=
      if significand = 0 then "0.0".toList
      else
        let (digits, weight) := shortestDigits significand exponent
        positioned digits weight
    if negative then '-' :: magnitude else magnitude

end LineProbe.Binary64
