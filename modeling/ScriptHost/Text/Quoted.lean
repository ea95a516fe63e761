import ScriptHost.Text.PrintData

/-!
# Quoted text

The form in which diagnostics show a piece of text: between double quotes, with short escapes for
the common control characters, the quote and the backslash, and a numeric escape for every other
character that has no visible form of its own.
-/

namespace ScriptHost
namespace Text

def isVisible (c : Char) : Bool :=
  !within unprintableRanges c && !within extendingMarkRanges c

/-- The code point in lower-case hexadecimal, without leading zeros. -/
def hexDigits (n : Nat) : List Char :=
  Nat.toDigits 16 n

def quotedChar (c : Char) : List Char :=
  match c with
  | '\t' => ['\\', 't']
  | '\r' => ['\\', 'r']
  | '\n' => ['\\', 'n']
  | '\\' => ['\\', '\\']
  | '"' => ['\\', '"']
  | '\x00' => ['\\', '0']
  | c => if isVisible c then [c] else ['\\', 'u', '\x7b'] ++ hexDigits c.toNat ++ ['\x7d']

def quoted (s : String) : String :=
  String.ofList (['"'] ++ s.toList.flatMap quotedChar ++ ['"'])

end Text
end ScriptHost
