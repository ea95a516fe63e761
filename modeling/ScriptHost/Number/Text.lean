import ScriptHost.Number.Decimal

/-!
# Texts of numbers

Two ways to write a number. Values are shown plainly: whole numbers below a quadrillion as
integers, everything else by its shortest digits and never with an exponent. Diagnostics show a
numeral so that it is seen to be one: with a decimal point, or with an exponent when it is very
large or very small.
-/

namespace ScriptHost
namespace Number

def signed (negative : Bool) (cs : List Char) : String :=
  String.ofList (if negative then '-' :: cs else cs)

/-- Whole numbers of this size and above are written by their shortest digits. -/
def integerLimit : Nat :=
  1000000000000000

def plainFinite (negative : Bool) (m : Nat) (q : Int) : String :=
  match Binary64.natural? m q with
  | some n =>
      if n < integerLimit then
        -- the negative zero is shown without its sign
        signed (negative && n != 0) (Nat.toDigits 10 n)
      else
        signed negative (Decimal.shortest m q).positional
  | none => signed negative (Decimal.shortest m q).positional

/-- The text of a number as a value. -/
def plain (x : Float) : String :=
  match Binary64.ofFloat x with
  | .nan => "NaN"
  | .infinite negative => signed negative "inf".toList
  | .finite negative m q => plainFinite negative m q

/-- Decimal magnitudes that a numeral writes without an exponent. -/
def isPointed (d : Decimal) : Bool :=
  -4 ≤ d.magnitude && d.magnitude < 16

def numeralFinite (negative : Bool) (m : Nat) (q : Int) : String :=
  if m = 0 then
    signed negative "0.0".toList
  else
    let d := Decimal.shortest m q
    if isPointed d then
      signed negative (d.positional ++ if 0 ≤ d.exponent then ".0".toList else [])
    else
      signed negative d.scientific

/-- The text of a number as a numeral in a diagnostic. -/
def numeral (x : Float) : String :=
  match Binary64.ofFloat x with
  | .nan => "NaN"
  | .infinite negative => signed negative "inf".toList
  | .finite negative m q => numeralFinite negative m q

end Number
end ScriptHost
