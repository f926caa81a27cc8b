/-!
# Binary64 numbers

The finite doubles as sign, significand and exponent, and the correctly rounded
quotient of two integers: nearest, ties to the even significand.
-/

namespace FeedbackQueue

/-- The nearest natural number to `num / den`, ties going to the even one. -/
def roundHalfEven (num den : Nat) : Nat :=
  let floor := num / den
  let rest := 2 * (num % den)
  if rest < den ∨ (rest = den ∧ floor % 2 = 0) then floor else floor + 1

/-- The finite double of magnitude `significand * 2 ^ exponent`. -/
structure Binary64 where
  negative : Bool
  significand : Nat
  exponent : Int
  canonical : significand < 1 <<< 53 ∧ -1074 ≤ exponent ∧ exponent ≤ 971 ∧
    (exponent = -1074 ∨ 1 <<< 52 ≤ significand)
deriving DecidableEq, Repr

namespace Binary64

def zero (negative : Bool) : Binary64 := ⟨negative, 0, -1074, by decide⟩

/-- A numerator and a denominator of `num / den` divided by `2 ^ exponent`. -/
def scale (num den : Nat) (exponent : Int) : Nat × Nat :=
  (num <<< (-exponent).toNat, den <<< exponent.toNat)

/-- The exponent of the leading binary digit of the positive number `num / den`. -/
def leading (num den : Nat) : Int :=
  let guess : Int := num.log2 - den.log2
  let (n, d) := scale num den guess
  if d ≤ n then guess else guess - 1

/-- The exponent of the last significand digit for a positive `num / den`. -/
def unitExponent (num den : Nat) : Int :=
  max (leading num den - 52) (-1074)

/-- The double nearest to `num / den`, for a positive `den`; `none` when that
quotient is too large. -/
def ofQuotient? (negative : Bool) (num den : Nat) : Option Binary64 :=
  if num = 0 then some (zero negative)
  else
    let exponent := unitExponent num den
    let (n, d) := scale num den exponent
    let rounded := roundHalfEven n d
    let (significand, exponent) :=
      if rounded = 1 <<< 53 then (1 <<< 52, exponent + 1) else (rounded, exponent)
    if canonical : significand < 1 <<< 53 ∧ -1074 ≤ exponent ∧ exponent ≤ 971 ∧
        (exponent = -1074 ∨ 1 <<< 52 ≤ significand) then
      some { negative, significand, exponent, canonical }
    else none

/-- The double nearest to `num / den`, for a positive `den`. -/
def ofRatio? (num : Int) (den : Nat) : Option Binary64 :=
  ofQuotient? (num < 0) num.natAbs den

/-- A numerator and a denominator of the magnitude. -/
def magnitude (x : Binary64) : Nat × Nat :=
  (x.significand <<< x.exponent.toNat, 1 <<< (-x.exponent).toNat)

/-- The interchange format: sign, eleven exponent bits, fifty-two fraction bits. -/
def bits (x : Binary64) : Nat :=
  let sign := if x.negative then 1 <<< 63 else 0
  if x.significand < 1 <<< 52 then sign + x.significand
  else sign + (x.exponent + 1075).toNat <<< 52 + (x.significand - 1 <<< 52)

end Binary64

end FeedbackQueue
