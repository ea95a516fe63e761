/-!
# Numerals

Digits, and the numbers that rows of digits denote.
-/

namespace ScriptHost
namespace Number

def isDigit (c : Char) : Bool :=
  '0' ≤ c && c ≤ '9'

def isHexDigit (c : Char) : Bool :=
  isDigit c || ('a' ≤ c && c ≤ 'f') || ('A' ≤ c && c ≤ 'F')

def digitValue (c : Char) : Nat :=
  if isDigit c then c.toNat - '0'.toNat
  else if 'a' ≤ c then c.toNat - 'a'.toNat + 10
  else c.toNat - 'A'.toNat + 10

/-- The number that a row of digits denotes in a base, the most significant digit first. -/
def numeralValue (base : Nat) (digits : List Char) : Nat :=
  digits.foldl (fun n c => base * n + digitValue c) 0

theorem numeralValue_append_singleton (base : Nat) (cs : List Char) (c : Char) :
    numeralValue base (cs ++ [c]) = base * numeralValue base cs + digitValue c := by
  simp [numeralValue]

end Number
end ScriptHost
