import ClassLayout.Decimal.Binary64

/-!
# Shortest decimals

The decimal with the fewest digits that rounds back to a given magnitude, the nearest one if
several have that many digits. A magnitude is read back from every real number in the interval
that reaches half way to its two neighbours, the ends included iff the mantissa is even.
-/

namespace ClassLayout.Decimal

/-- The number `digits * 10 ^ exponent`. -/
structure Scaled where
  digits : Nat
  exponent : Int
deriving DecidableEq, Repr

namespace Binary64

/-- The number of places before the point: `10 ^ (places - 1) ≤ x < 10 ^ places`. -/
def places (x : Binary64) : Int :=
  let (num, den) := x.ratio
  if den ≤ num then (Nat.toDigits 10 (num / den)).length
  else 1 - (((List.range 400).find? fun j => den ≤ num * Nat.pow 10 j).getD 0 : Nat)

/-- Whether `digits * 10 ^ k` reads back as `x`. Everything is compared in quarters of the gap above
`x`; below a power of two the gap is half as wide. -/
def readsBack (x : Binary64) (digits : Nat) (k : Int) : Bool :=
  let below := if x.mantissa = leastNormal ∧ x.exponent ≠ leastExponent then 1 else 2
  let unit := x.exponent - 2
  let left := (digits * Nat.pow 10 k.toNat) <<< (-unit).toNat
  let scale := Nat.pow 10 (-k).toNat <<< unit.toNat
  let low := (4 * x.mantissa - below) * scale
  let high := (4 * x.mantissa + 2) * scale
  if x.mantissa % 2 = 0 then low ≤ left ∧ left ≤ high else low < left ∧ left < high

/-- The nearest multiple of `10 ^ k` that reads back as `x`, if one of its two neighbours does. -/
def shortestAt? (x : Binary64) (k : Int) : Option Nat :=
  let (num, den) := x.ratio
  let up := num * Nat.pow 10 (-k).toNat
  let down := den * Nat.pow 10 k.toNat
  let floor := up / down
  match x.readsBack floor k, x.readsBack (floor + 1) k with
  | true, true => some (roundDiv up down)
  | true, false => some floor
  | false, true => some (floor + 1)
  | false, false => none

/-- The shortest decimal of `x`; seventeen digits always suffice. -/
def shortest (x : Binary64) : Scaled :=
  if x.isZero then ⟨0, 0⟩
  else
    ((List.range 17).findSome? fun n =>
      let k := x.places - (n + 1 : Nat)
      (x.shortestAt? k).map fun digits => ⟨digits, k⟩).getD ⟨0, 0⟩

end Binary64

end ClassLayout.Decimal
