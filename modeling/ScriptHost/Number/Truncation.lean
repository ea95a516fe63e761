import ScriptHost.Number.Binary64

/-!
# Truncation to machine integers

A number as a signed integer of 32 bits: the fraction is cut off, what lies beyond an end of the
range becomes that end, and what is not a number becomes zero.
-/

namespace ScriptHost
namespace Number

def int32Min : Int :=
  -2147483648

def int32Max : Int :=
  2147483647

def clampInt32 (n : Int) : Int :=
  max int32Min (min int32Max n)

/-- The whole part of `m * 2 ^ q`. -/
def wholePart (m : Nat) (q : Int) : Nat :=
  if 0 ≤ q then m * Nat.pow 2 q.toNat else m / Nat.pow 2 (-q).toNat

def truncateBinary : Binary64 → Int
  | .nan => 0
  | .infinite negative => if negative then int32Min else int32Max
  | .finite negative m q =>
      -- the sign is put on last, so that both signs are cut off towards zero
      clampInt32 (if negative then -(wholePart m q : Int) else wholePart m q)

def toInt32 (x : Float) : Int :=
  truncateBinary (Binary64.ofFloat x)

end Number
end ScriptHost
