import ScriptHost.Number.Binary64

/-!
# Shortest decimals

The decimal with the fewest digits that reads back as a given binary number. Every real number in
an interval around the binary number reads back as it; the end points belong to the interval
exactly when the mantissa is even. The search goes through the decimal grids from coarse to fine
and stops at the first one with a point in the interval.
-/

namespace ScriptHost
namespace Number

/-- The number `coefficient * 10 ^ exponent`. -/
structure Decimal where
  coefficient : Nat
  exponent : Int
  deriving DecidableEq, Repr

namespace Decimal

/-! ## The interval that reads back -/

/-- A positive binary number with the interval of reals that round to it, all in quarters of the
last binary place: the number is `4 * m`, the ends are `low` and `high`, the unit is
`2 ^ (exponent - 2)`. -/
structure Target where
  low : Nat
  value : Nat
  high : Nat
  exponent : Int
  inclusive : Bool

def Target.ofBinary (m : Nat) (q : Int) : Target where
  low := if m = Binary64.leastNormalMantissa ∧ Binary64.leastExponent < q then 4 * m - 1
    else 4 * m - 2
  value := 4 * m
  high := 4 * m + 2
  exponent := q - 2
  inclusive := m % 2 = 0

/-! ## One decimal grid -/

/-- The point of the grid with spacing `10 ^ k` that lies in the interval and is nearest to the
number; of two points at the same distance the upper one. -/
def Target.nearestOn (t : Target) (k : Int) : Option Nat :=
  -- a quarter unit is `up / down` times the spacing of the grid
  let up := Nat.pow 2 t.exponent.toNat * Nat.pow 10 (-k).toNat
  let down := Nat.pow 10 k.toNat * Nat.pow 2 (-t.exponent).toNat
  let below := t.value * up / down
  let above := below + 1
  let lowerFits :=
    if t.inclusive then t.low * up ≤ below * down else t.low * up < below * down
  let upperFits :=
    if t.inclusive then above * down ≤ t.high * up else above * down < t.high * up
  let belowNearer := 2 * (t.value * up - below * down) < down
  match decide lowerFits, decide upperFits with
  | true, true => some (if belowNearer then below else above)
  | true, false => some below
  | false, true => some above
  | false, false => none

/-! ## From coarse to fine -/

/-- A power of ten above the number, from its binary magnitude: `0.30103` is just above the
decimal logarithm of two. -/
def coarsest (m : Nat) (q : Int) : Int :=
  (m.log2 + q + 1) * 30103 / 100000 + 1

def Target.search (t : Target) : Nat → Int → Decimal
  | 0, k => ⟨t.value, k⟩
  | steps + 1, k =>
      match t.nearestOn k with
      | some c => ⟨c, k⟩
      | none => t.search steps (k - 1)

/-- Seventeen digits always suffice, so the search ends well before its bound. -/
def shortest (m : Nat) (q : Int) : Decimal :=
  (Target.ofBinary m q).search 24 (coarsest m q)

/-! ## Layouts -/

def digits (d : Decimal) : List Char :=
  Nat.toDigits 10 d.coefficient

/-- The position of the first digit: the exponent of the scientific form. -/
def magnitude (d : Decimal) : Int :=
  d.exponent + (d.digits.length : Int) - 1

/-- All digits around the decimal point, without an exponent; a whole number has no point. -/
def positional (d : Decimal) : List Char :=
  if 0 ≤ d.exponent then
    d.digits ++ List.replicate d.exponent.toNat '0'
  else
    let places := (-d.exponent).toNat
    if places < d.digits.length then
      d.digits.take (d.digits.length - places) ++ '.' :: d.digits.drop (d.digits.length - places)
    else
      ['0', '.'] ++ List.replicate (places - d.digits.length) '0' ++ d.digits

/-- One digit, a point and the other digits if there are any, then the exponent. -/
def scientific (d : Decimal) : List Char :=
  let exponent := (toString d.magnitude).toList
  match d.digits with
  | [] => []
  | [c] => c :: 'e' :: exponent
  | c :: rest => c :: '.' :: rest ++ 'e' :: exponent

end Decimal

end Number
end ScriptHost
