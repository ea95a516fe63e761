import ScriptHost.Toml.Text

/-!
# Numbers, dates and flags

The scalars that are written without quotes. Integers have 64 bits with a sign. Of floating-point
numbers, dates and times only the shape is read, since no setting is made of them; even so a date
must exist, and a number must not be too large to be represented.
-/

namespace ScriptHost
namespace Toml

open Reader Number

/-! ## Digits -/

/-- Digits, between every two of which one underscore may stand. -/
def grouped (digit : Char → Bool) : Reader (List Char) := do
  let groups ← separated (do
    let first ← charWhere digit
    let rest ← takeWhile digit
    return first :: rest) (char '_')
  return groups.flatten

/-- The given number of digits, read as a numeral that lies between two bounds. -/
def fixedDigits (count least greatest : Nat) : Reader Nat := do
  let digits ← upTo (charWhere isDigit) count
  let n := numeralValue 10 digits
  if digits.length = count ∧ least ≤ n ∧ n ≤ greatest then return n else failure

def sign : Reader Bool := do
  match ← optional (charWhere fun c => c == '+' || c == '-') with
  | some '-' => return true
  | _ => return false

/-- A decimal numeral without leading zeros: its sign and its digits. -/
def decimal : Reader (Bool × List Char) := do
  let negative ← sign
  match ← peek with
  | some '0' =>
      char '0'
      -- what follows a leading zero is left to whoever reads on
      return (negative, ['0'])
  | _ =>
      let digits ← grouped isDigit
      return (negative, digits)

/-! ## Integers -/

/-- The numbers of a signed word of 64 bits. -/
def inRange (n : Int) : Reader Int :=
  if -9223372036854775808 ≤ n ∧ n ≤ 9223372036854775807 then return n else failure

def decimalInteger : Reader Int := do
  let (negative, digits) ← decimal
  let n : Int := numeralValue 10 digits
  inRange (if negative then -n else n)

def inBase (start : String) (base : Nat) (digit : Char → Bool) : Reader Int := do
  word start
  let digits ← grouped digit
  inRange (numeralValue base digits)

def integer : Reader Int :=
  firstOf [
    inBase "0x" 16 isHexDigit,
    inBase "0o" 8 fun c => '0' ≤ c && c ≤ '7',
    inBase "0b" 2 fun c => c == '0' || c == '1',
    decimalInteger]

/-! ## Floating-point numbers -/

/-- Half-way between the largest double and the power of two above it, from where numbers are
rounded to infinity. -/
def doubleLimit : Nat :=
  Nat.pow 2 1024 - Nat.pow 2 970

/-- Whether `n * 10 ^ e` rounds to infinity as a double. The number of digits decides that by
itself unless it is near the limit. -/
def isTooLarge (n : Nat) (e : Int) : Bool :=
  let magnitude : Int := (Nat.toDigits 10 n).length + e
  if n = 0 || magnitude < 308 then false
  else if 310 < magnitude then true
  -- cutting off the quotient does no harm, as the limit is a whole number
  else doubleLimit ≤ n * Nat.pow 10 e.toNat / Nat.pow 10 (-e).toNat

def fraction : Reader (List Char) := do
  char '.'
  grouped isDigit

def exponent : Reader Int := do
  let _ ← charWhere fun c => c == 'e' || c == 'E'
  let negative ← sign
  let digits ← grouped isDigit
  let n : Int := numeralValue 10 digits
  return if negative then -n else n

def plainReal : Reader Unit := do
  let (negative, whole) ← decimal
  let part ← optional fraction
  let power ← optional exponent
  if part.isNone && power.isNone then
    failure
  let digits := part.getD []
  let tooLarge :=
    isTooLarge (numeralValue 10 (whole ++ digits)) (power.getD 0 - digits.length)
  -- only the positive infinity is refused
  if !negative && tooLarge then
    failure

def specialReal : Reader Unit := do
  let _ ← sign
  firstOf [word "inf", word "nan"]

def real : Reader Unit :=
  firstOf [plainReal, specialReal]

/-! ## Dates and times -/

def isLeapYear (year : Nat) : Bool :=
  year % 4 = 0 && (year % 100 ≠ 0 || year % 400 = 0)

def daysInMonth (year month : Nat) : Nat :=
  if month = 2 then (if isLeapYear year then 29 else 28)
  else if month = 4 ∨ month = 6 ∨ month = 9 ∨ month = 11 then 30
  else 31

def date : Reader Unit := do
  let year ← fixedDigits 4 0 9999
  char '-'
  let month ← fixedDigits 2 1 12
  char '-'
  let _ ← fixedDigits 2 1 (daysInMonth year month)

def hourAndMinute : Reader Unit := do
  let _ ← fixedDigits 2 0 23
  char ':'
  let _ ← fixedDigits 2 0 59

def time : Reader Unit := do
  hourAndMinute
  char ':'
  -- sixty for a leap second
  let _ ← fixedDigits 2 0 60
  let _ ← optional do
    char '.'
    let _ ← charWhere isDigit
    takeWhile isDigit

def offset : Reader Unit :=
  firstOf [
    do let _ ← charWhere fun c => c == 'Z' || c == 'z',
    do
      let _ ← charWhere fun c => c == '+' || c == '-'
      hourAndMinute]

def dateAndTime : Reader Unit := do
  date
  let _ ← optional do
    let _ ← charWhere fun c => c == 'T' || c == 't' || c == ' '
    time
    optional offset

/-- A date, a time or both. -/
def moment : Reader Unit :=
  firstOf [dateAndTime, time]

/-! ## Flags -/

def flag : Reader Bool :=
  firstOf [do word "true"; return true, do word "false"; return false]

end Toml
end ScriptHost
