import ScriptHost.Script.Error
import ScriptHost.Text.Flag

/-!
# Values

The four kinds of script values and the operators on them. Arithmetic is that of binary
floating-point numbers; strings are ordered by their characters.
-/

namespace ScriptHost
namespace Script

inductive Value
  | null
  | bool (b : Bool)
  | number (x : Float)
  | text (s : String)
  deriving DecidableEq, Inhabited

namespace Value

def kind : Value → Kind
  | .null => .null
  | .bool _ => .bool
  | .number _ => .number
  | .text _ => .string

/-- The value as text, which is also what concatenation appends. -/
def shown : Value → String
  | .null => "null"
  | .bool b => Text.flag b
  | .number x => Number.plain x
  | .text s => s

/-- What counts as true in conditions and under negation. -/
def isTruthy : Value → Bool
  | .null => false
  | .bool b => b
  | .number x => x != 0.0
  | .text s => s != ""

/-- Equality of the language: values of one kind with equal contents, where numbers compare as
numbers, so that the two zeros are equal and a NaN equals nothing. -/
def equals : Value → Value → Bool
  | .null, .null => true
  | .bool a, .bool b => a == b
  | .number x, .number y => x == y
  | .text s, .text t => s == t
  | _, _ => false

/-! ## Operators -/

def mismatch (operator : String) (a b : Value) : ScriptError :=
  .type (.operands operator a.kind b.kind)

/-- Sum of two numbers, or concatenation as soon as one side is a string. -/
def add (a b : Value) : Except ScriptError Value :=
  match a, b with
  | .number x, .number y => .ok (.number (x + y))
  | .text s, b => .ok (.text (s ++ b.shown))
  | a, .text t => .ok (.text (a.shown ++ t))
  | a, b => .error (mismatch "+" a b)

/-- The operators that take numbers only, by their sign. -/
def arith (operator : Char) (a b : Value) : Except ScriptError Value :=
  match a, b with
  | .number x, .number y =>
      match operator with
      | '-' => .ok (.number (x - y))
      | '*' => .ok (.number (x * y))
      | '/' => if y == 0.0 then .error (.runtime .divisionByZero) else .ok (.number (x / y))
      | c => .error (.runtime (.unknownOperator c))
  | a, b => .error (mismatch operator.toString a b)

def compareNumbers (x y : Float) : Except ScriptError Ordering :=
  if x < y then .ok .lt
  else if x == y then .ok .eq
  else if y < x then .ok .gt
  -- neither below, nor equal, nor above: one of them is a NaN
  else .error (.type .unordered)

/-- The order of numbers among numbers and of strings among strings. -/
def compare (a b : Value) : Except ScriptError Ordering :=
  match a, b with
  | .number x, .number y => compareNumbers x y
  | .text s, .text t => .ok (if s < t then .lt else if s = t then .eq else .gt)
  | a, b => .error (mismatch "compare" a b)

end Value

end Script
end ScriptHost
