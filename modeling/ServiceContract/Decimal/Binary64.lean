/-!
# Double-precision numbers, exactly

A finite binary64 number is a sign, a mantissa below `2^53` and a power of two. Every operation is
exact arithmetic on natural numbers followed by one rounding to the nearest number, a tie going to
the even mantissa. Results from `2^1024` on have no finite number and give `none`.
-/

namespace ServiceContract

/-- A finite number `± mantissa · 2^exponent`. -/
structure Binary64 where
  negative : Bool
  mantissa : Nat
  exponent : Int
  deriving DecidableEq, Repr, Inhabited

namespace Binary64

/-- Bits of a mantissa. -/
def precision : Nat := 53

/-- The exponent of the smallest positive number. -/
def minExponent : Int := -1074

/-- The exponent of the largest number. -/
def maxExponent : Int := 971

/-- `numerator / denominator` scaled by `2^(-exponent)`, as a fraction of natural numbers. -/
def scaled (numerator denominator : Nat) (exponent : Int) : Nat × Nat :=
  if 0 ≤ exponent then (numerator, denominator * Nat.pow 2 exponent.toNat)
  else (numerator * Nat.pow 2 (-exponent).toNat, denominator)

/-- The exponent at which the rounded quotient has at most 53 bits, and exactly 53 if it can. -/
def exponentOf (numerator denominator : Nat) : Int :=
  let guess := max (numerator.log2 - denominator.log2 - precision : Int) minExponent
  let (n, d) := scaled numerator denominator guess
  if n / d < Nat.pow 2 precision then guess else guess + 1

/-- The quotient rounded to the nearest whole number, a tie going to the even one. -/
def roundDiv (n d : Nat) : Nat :=
  let quotient := n / d
  let rest := n % d
  if 2 * rest < d then quotient
  else if d < 2 * rest then quotient + 1
  else quotient + quotient % 2

/-- The number nearest to `numerator / denominator`, or `none` when that is too large. -/
def ofRatio? (negative : Bool) (numerator denominator : Nat) : Option Binary64 :=
  if numerator = 0 then some ⟨negative, 0, minExponent⟩
  else
    let exponent := exponentOf numerator denominator
    let (n, d) := scaled numerator denominator exponent
    let mantissa := roundDiv n d
    let (mantissa, exponent) :=
      if mantissa = Nat.pow 2 precision then (Nat.pow 2 (precision - 1), exponent + 1)
      else (mantissa, exponent)
    if exponent ≤ maxExponent then some ⟨negative, mantissa, exponent⟩ else none

/-- The number nearest to a natural number. -/
def ofNat? (n : Nat) : Option Binary64 := ofRatio? false n 1

/-- The magnitude as a fraction of natural numbers. -/
def ratio (x : Binary64) : Nat × Nat :=
  if 0 ≤ x.exponent then (x.mantissa * Nat.pow 2 x.exponent.toNat, 1)
  else (x.mantissa, Nat.pow 2 (-x.exponent).toNat)

def isZero (x : Binary64) : Bool := x.mantissa == 0

/-- The nearest number to the product. -/
def mul? (x y : Binary64) : Option Binary64 :=
  ofRatio? (x.negative != y.negative) (x.ratio.1 * y.ratio.1) (x.ratio.2 * y.ratio.2)

/-- The nearest number to the quotient by a number other than zero. -/
def div? (x y : Binary64) : Option Binary64 :=
  ofRatio? (x.negative != y.negative) (x.ratio.1 * y.ratio.2) (x.ratio.2 * y.ratio.1)

/-- A power of ten above which every factor but zero is too large, and below which it rounds away.
-/
def decimalReach : Nat := 400

/-- The number nearest to `digits · 10^power`, or `none` when that is too large. -/
def ofDecimal? (negative : Bool) (digits : Nat) (power : Int) : Option Binary64 :=
  let size : Int := (Nat.toDigits 10 digits).length
  if digits = 0 then some ⟨negative, 0, minExponent⟩
  else if power + size > decimalReach then none
  else if power + size < -decimalReach then some ⟨negative, 0, minExponent⟩
  else if 0 ≤ power then ofRatio? negative (digits * Nat.pow 10 power.toNat) 1
  else ofRatio? negative digits (Nat.pow 10 (-power).toNat)

end Binary64

end ServiceContract
