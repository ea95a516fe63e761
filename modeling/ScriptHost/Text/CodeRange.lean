/-!
# Ranges of code points

Character properties are given as ascending lists of closed ranges of code points. This module
defines membership in such a list; the property tables are stated in the modules that follow.
-/

namespace ScriptHost
namespace Text

/-- A closed range of code points, first and last. -/
abbrev CodeRange := Nat × Nat

/-- Whether the code point of `c` lies in one of the ranges. -/
def within (ranges : List CodeRange) (c : Char) : Bool :=
  ranges.any fun r => r.1 ≤ c.toNat && c.toNat ≤ r.2

end Text
end ScriptHost
