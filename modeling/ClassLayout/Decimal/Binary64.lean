/-!
# Magnitudes of binary floating point

A magnitude is `mantissa * 2 ^ exponent` with a mantissa of at most 53 bits and an exponent of at
least `-1074`: what a 64-bit binary number can hold, its sign apart and without an upper bound on
the exponent. Every operation is exact arithmetic on natural numbers followed by one rounding to
the nearest such number, a tie going to the even mantissa.
-/

namespace ClassLayout.Decimal

structure Binary64 where
  mantissa : Nat
  exponent : Int
deriving DecidableEq, Repr

namespace Binary64

/-- The least mantissa of 53 bits. -/
def leastNormal : Nat := Nat.pow 2 52

def leastExponent : Int := -1074

/-- The greatest exponent of a finite number. -/
def greatestExponent : Int := 971

/-- The quotient rounded to the nearest natural number, a tie to the even one. -/
def roundDiv (num den : Nat) : Nat :=
  let quotient := num / den
  let twice := 2 * (num % den)
  if twice > den ∨ (twice = den ∧ quotient % 2 = 1) then quotient + 1 else quotient

/-- The ratio `num / den` in units of `2 ^ exponent`, as a ratio again. -/
def inUnits (num den : Nat) (exponent : Int) : Nat × Nat :=
  (num <<< (-exponent).toNat, den <<< exponent.toNat)

/-- The magnitude nearest to `num / den`. The exponent is the one at which the quotient has 53 bits,
or the least one if that is greater. -/
def ofRatio (num den : Nat) : Binary64 :=
  let guess : Int := (num.log2 : Int) - den.log2 - 53
  let scaled := inUnits num den guess
  let fitted := if scaled.1 / scaled.2 < 2 * leastNormal then guess else guess + 1
  let exponent := max fitted leastExponent
  let units := inUnits num den exponent
  let mantissa := roundDiv units.1 units.2
  if mantissa = 2 * leastNormal then ⟨leastNormal, exponent + 1⟩ else ⟨mantissa, exponent⟩

def ofNat (n : Nat) : Binary64 := ofRatio n 1

/-- The magnitude as a ratio of natural numbers. -/
def ratio (x : Binary64) : Nat × Nat :=
  (x.mantissa <<< x.exponent.toNat, 1 <<< (-x.exponent).toNat)

def mul (x y : Binary64) : Binary64 := ofRatio (x.ratio.1 * y.ratio.1) (x.ratio.2 * y.ratio.2)

def div (x y : Binary64) : Binary64 := ofRatio (x.ratio.1 * y.ratio.2) (x.ratio.2 * y.ratio.1)

def isZero (x : Binary64) : Bool := x.mantissa == 0

def isFinite (x : Binary64) : Bool := x.exponent ≤ greatestExponent

/-- The greatest power of ten that one scaling step uses. -/
def stepExponent : Nat := 308

def powerOfTen (k : Nat) : Binary64 := ofNat (Nat.pow 10 k)

/-- `x * 10 ^ k`, by one rounded multiplication or division with a rounded power of ten, after as
many divisions by `10 ^ 308` as a smaller `k` needs; `none` when the result is not finite. -/
def scale? (x : Binary64) (k : Int) : Option Binary64 :=
  if k.natAbs ≤ stepExponent then
    if 0 ≤ k then
      let product := x.mul (powerOfTen k.natAbs)
      if product.isFinite then some product else none
    else some (x.div (powerOfTen k.natAbs))
  else if x.isZero then some x
  else if 0 ≤ k then none
  else scale? (x.div (powerOfTen stepExponent)) (k + stepExponent)
termination_by (-k).toNat
decreasing_by simp only [stepExponent] at *; omega

end Binary64

end ClassLayout.Decimal
