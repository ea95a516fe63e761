/-!
# Binary floating-point numbers by their bits

A number is a bit pattern of 64 bits. This module splits the pattern into its three cases, so that
printing can go on in exact arithmetic on natural numbers.
-/

namespace ScriptHost
namespace Number

/-- A finite number is `mantissa * 2 ^ exponent` with the given sign. -/
inductive Binary64
  | nan
  | infinite (negative : Bool)
  | finite (negative : Bool) (mantissa : Nat) (exponent : Int)
  deriving DecidableEq, Repr

namespace Binary64

/-- The least mantissa of a normal number, 2 to the power of 52. Its neighbour below is only half
as far as the one above. -/
def leastNormalMantissa : Nat :=
  4503599627370496

def leastExponent : Int :=
  -1074

def ofBits (bits : Nat) : Binary64 :=
  let negative : Bool := bits / 9223372036854775808 % 2 == 1
  let biased : Nat := bits / leastNormalMantissa % 2048
  let fraction : Nat := bits % leastNormalMantissa
  -- the largest and the least biased exponent do not stand for powers of two
  if biased == 2047 then
    if fraction == 0 then .infinite negative else .nan
  else if biased == 0 then
    .finite negative fraction leastExponent
  else
    .finite negative (leastNormalMantissa + fraction) ((biased : Int) - 1 + leastExponent)

def ofFloat (x : Float) : Binary64 :=
  ofBits x.toBits.toNat

/-- The whole number `m * 2 ^ q`, when it is one. -/
def natural? (m : Nat) (q : Int) : Option Nat :=
  if 0 ≤ q then
    some (m * Nat.pow 2 q.toNat)
  else
    let divisor := Nat.pow 2 (-q).toNat
    if m % divisor = 0 then some (m / divisor) else none

end Binary64

end Number
end ScriptHost
