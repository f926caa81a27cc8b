import FeedbackQueue.Binary64.Basic

/-!
# Decimal text of binary64 numbers

Reading a decimal to the nearest double, writing a double with the fewest
digits that read back to it, and writing it with two places after the point.
-/

namespace FeedbackQueue

/-- A floating-point datum: a finite double, an infinity or not a number. -/
inductive Number where
  | finite (value : Binary64)
  | infinite (negative : Bool)
  | nan
deriving DecidableEq, Repr

namespace Number

/-- The double nearest to `digits * 10 ^ exponent`, infinite when that is too
large. Exponents far outside the range of doubles are decided by size alone. -/
def ofDecimal (negative : Bool) (digits : Nat) (exponent : Int) : Number :=
  let width : Int := digits.log2 / 3 + 1
  if digits = 0 ∨ exponent + width < -330 then .finite (.zero negative)
  else if 310 < exponent then .infinite negative
  else
    let num := digits * Nat.pow 10 exponent.toNat
    let den := Nat.pow 10 (-exponent).toNat
    match Binary64.ofQuotient? negative num den with
    | some x => .finite x
    | none => .infinite negative

end Number

namespace Binary64

/-- The exponent of the leading decimal digit of the positive number `num / den`. -/
def leadingDecimal (num den : Nat) : Int :=
  let guess := (leading num den * 30103).fdiv 100000
  let reaches (e : Int) : Bool := den * Nat.pow 10 e.toNat ≤ num * Nat.pow 10 (-e).toNat
  if !reaches guess then guess - 1
  else if reaches (guess + 1) then guess + 1
  else guess

/-- The nearest number of `places` digits that reads back to `x`, as digits and
a power of ten, where `top` is the exponent of the leading digit. -/
def atPrecision? (x : Binary64) (top : Int) (places : Nat) : Option (Nat × Int) :=
  let exponent := top + 1 - places
  let (num, den) := x.magnitude
  let n := num * Nat.pow 10 (-exponent).toNat
  let d := den * Nat.pow 10 exponent.toNat
  let floor := n / d
  let readsBack (digits : Nat) : Bool :=
    Number.ofDecimal x.negative digits exponent == .finite x
  let nearest := roundHalfEven n d
  let other := if nearest = floor then floor + 1 else floor
  if readsBack nearest then some (nearest, exponent)
  else if readsBack other then some (other, exponent)
  else none

/-- The fewest digits that read back to the nonzero `x`, as digits and a power
of ten. Seventeen always suffice. -/
def shortest (x : Binary64) : Nat × Int :=
  let (num, den) := x.magnitude
  let top := leadingDecimal num den
  ((List.range 17).findSome? fun k => x.atPrecision? top (k + 1)).getD (0, 0)

end Binary64

/-- How digits are laid out: positionally while the exponent of the leading
digit lies in a range, and with an exponent of a least width otherwise. -/
structure NumberFormat where
  leastPositional : Int
  greatestPositional : Int
  exponentWidth : Nat

namespace NumberFormat

def padLeft (width : Nat) (s : String) : String :=
  String.ofList (List.replicate (width - s.length) '0') ++ s

/-- Digits without trailing zeros, and the exponent of the leading one. -/
def layout (format : NumberFormat) (digits : List Char) (top : Int) : String :=
  if format.leastPositional ≤ top ∧ top ≤ format.greatestPositional then
    if top < 0 then
      "0." ++ String.ofList (List.replicate (-top - 1).toNat '0' ++ digits)
    else
      let count := top.toNat + 1
      let whole := digits.take count ++ List.replicate (count - digits.length) '0'
      let rest := digits.drop count
      String.ofList whole ++ "." ++ (if rest.isEmpty then "0" else String.ofList rest)
  else
    let rest := digits.drop 1
    String.ofList (digits.take 1) ++ (if rest.isEmpty then "" else "." ++ String.ofList rest) ++
      "e" ++ (if top < 0 then "-" else "+") ++ padLeft format.exponentWidth (toString top.natAbs)

def trimZeros (digits : List Char) : List Char :=
  (digits.reverse.dropWhile (· == '0')).reverse

end NumberFormat

/-- Positional from `0.0001` up to sixteen whole digits; two exponent digits. -/
def Number.format : NumberFormat := ⟨-4, 15, 2⟩

def Number.text : Number → String
  | .nan => "nan"
  | .infinite negative => if negative then "-inf" else "inf"
  | .finite x =>
    let sign := if x.negative then "-" else ""
    if x.significand = 0 then sign ++ "0.0"
    else
      let (n, exponent) := x.shortest
      let digits := (toString n).toList
      let top := exponent + digits.length - 1
      sign ++ Number.format.layout (NumberFormat.trimZeros digits) top

/-- Two places after the point, a half going to the even neighbour. -/
def Binary64.twoPlaces (x : Binary64) : String :=
  let (num, den) := x.magnitude
  let cents := roundHalfEven (num * 100) den
  let digits := (NumberFormat.padLeft 3 (toString cents)).toList
  let whole := digits.length - 2
  (if x.negative then "-" else "") ++ String.ofList (digits.take whole) ++ "." ++
    String.ofList (digits.drop whole)

end FeedbackQueue
