import ClassLayout.Decimal.Shortest

/-!
# Numbers of a JSON text

A numeral is a number as it is written. Its value is a 64-bit integer when it is written without
fraction and exponent and fits one, and otherwise a binary floating-point number.
-/

namespace ClassLayout.Json

open Decimal

/-- A number as written; digits stand most significant first. -/
structure Numeral where
  negative : Bool
  whole : List Nat
  fraction : List Nat
  exponent : Option Int
deriving DecidableEq, Repr

inductive Number
  | integer (value : Int)
  | real (negative : Bool) (magnitude : Binary64)
deriving DecidableEq, Repr

/-- The numbers of 64 bits are below it. -/
def wordLimit : Nat := Nat.pow 2 64

/-- The greatest amount that a signed number of 64 bits can be below zero. -/
def signedLimit : Nat := Nat.pow 2 63

namespace Numeral

/-- The digits appended to `start` while the result fits a word, and the number of digits left. -/
def absorb (start : Nat) : List Nat → Nat × Nat
  | [] => (start, 0)
  | d :: rest =>
    if 10 * start + d < wordLimit then absorb (10 * start + d) rest else (start, rest.length + 1)

/-- The floating-point value: whole digits beyond the significand raise the exponent, fraction
digits beyond it are dropped. -/
def real? (n : Numeral) : Option Number :=
  let (head, surplus) := absorb 0 n.whole
  let (significand, dropped) := absorb head n.fraction
  let exponent : Int := surplus - (n.fraction.length - dropped : Nat) + n.exponent.getD 0
  ((Binary64.ofNat significand).scale? exponent).map (.real n.negative)

/-- The value, unless it is too large for a floating-point number. A negative zero has no integer
value. -/
def value? (n : Numeral) : Option Number :=
  let (significand, surplus) := absorb 0 n.whole
  if n.fraction = [] ∧ n.exponent = none ∧ surplus = 0 then
    if n.negative then
      if 0 < significand ∧ significand ≤ signedLimit then some (.integer (-significand)) else n.real?
    else some (.integer significand)
  else n.real?

end Numeral

/-- Digits of a floating-point number: positional from `1e-5` up to `1e16`, with at least one place
after the point, and outside that range with an exponent, which always has a sign. -/
def realText (negative : Bool) (magnitude : Binary64) : String :=
  let shortest := magnitude.shortest
  let padded := Nat.toDigits 10 shortest.digits
  let digits := (padded.reverse.dropWhile (· == '0')).reverse
  let point : Int := if digits.isEmpty then 1 else padded.length + shortest.exponent
  let body :=
    if digits.isEmpty then "0.0".toList
    else if digits.length ≤ point ∧ point ≤ 16 then
      digits ++ List.replicate (point - digits.length).toNat '0' ++ ".0".toList
    else if 0 < point ∧ point ≤ 16 then
      digits.take point.toNat ++ '.' :: digits.drop point.toNat
    else if -5 < point ∧ point ≤ 0 then
      "0.".toList ++ List.replicate (-point).toNat '0' ++ digits
    else
      let mantissa := match digits with
        | [d] => [d]
        | d :: rest => d :: '.' :: rest
        | [] => []
      let sign := if 0 < point then '+' else '-'
      mantissa ++ 'e' :: sign :: Nat.toDigits 10 (point - 1).natAbs
  String.ofList (if negative then '-' :: body else body)

end ClassLayout.Json
