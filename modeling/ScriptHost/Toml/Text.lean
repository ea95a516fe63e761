import ScriptHost.Number.Numeral
import ScriptHost.Toml.Reader

/-!
# Space, comments and strings

The four kinds of string literals and what may stand between the parts of a document. A line ends
with a line feed or with a carriage return and a line feed, and a string that spans several lines
holds line feeds only.
-/

namespace ScriptHost
namespace Toml

open Reader Number

/-! ## Characters -/

def isBlank (c : Char) : Bool :=
  c == ' ' || c == '\t'

/-- What may stand in a comment or between quotes: no control character but the tab. -/
def isPrintable (c : Char) : Bool :=
  c == '\t' || (' ' ≤ c && c ≠ '\x7f')

/-! ## Between the parts -/

def blanks : Reader Unit := do
  let _ ← takeWhile isBlank

def newline : Reader Unit :=
  firstOf [char '\n', word "\r\n"]

def comment : Reader Unit := do
  char '#'
  let _ ← takeWhile isPrintable

def lineEnd : Reader Unit :=
  firstOf [newline, endOfInput]

/-- The rest of a line after its last part. -/
def lineRest : Reader Unit := do
  blanks
  let _ ← optional comment
  lineEnd

/-- Blanks, comments and line ends in any number. -/
def anySpace : Reader Unit := do
  let _ ← many (firstOf [do let _ ← charWhere isBlank, newline, do comment; newline])

/-! ## Escapes -/

def hexEscape (count : Nat) : Reader Char := do
  let digits ← upTo (charWhere isHexDigit) count
  let n := numeralValue 16 digits
  if digits.length = count ∧ n.isValidChar then
    return Char.ofNat n
  else
    failure

/-- What follows the backslash. -/
def escape : Reader Char := do
  match ← charWhere fun _ => true with
  | 'b' => return '\x08'
  | 't' => return '\t'
  | 'n' => return '\n'
  | 'f' => return '\x0c'
  | 'r' => return '\r'
  | '"' => return '"'
  | '\\' => return '\\'
  | 'u' => hexEscape 4
  | 'U' => hexEscape 8
  | _ => failure

/-- A line end that is escaped vanishes together with the space around it. -/
def lineContinuation : Reader Unit := do
  char '\\'
  blanks
  newline
  let _ ← many (firstOf [do let _ ← charWhere isBlank, newline])

/-! ## Strings of one line -/

def escaped : Reader Char := do
  char '\\'
  escape

def basicChar : Reader Char :=
  firstOf [charWhere fun c => isPrintable c && c ≠ '"' && c ≠ '\\', escaped]

def basicString : Reader String := do
  char '"'
  let cs ← many basicChar
  char '"'
  return String.ofList cs

def literalString : Reader String := do
  char '\''
  let cs ← takeWhile fun c => isPrintable c && c ≠ '\''
  char '\''
  return String.ofList cs

/-! ## Strings of several lines -/

def newlineChar : Reader Char := do
  newline
  return '\n'

/-- One or two quotes in front of something else. -/
def fewQuotes (quote : Char) : Reader (List Char) := do
  let quotes ← takeWhile (· == quote)
  if quotes.length = 1 ∨ quotes.length = 2 then return quotes else failure

/-- The end of the string: three quotes, before which up to two more belong to the text. -/
def closingQuotes (quote : Char) : Reader (List Char) := do
  let quotes ← upTo (charWhere (· == quote)) 5
  if 3 ≤ quotes.length then return quotes.drop 3 else failure

def multiline (quote : Char) (piece : Reader (List Char)) : Reader String := do
  word (String.ofList [quote, quote, quote])
  let _ ← optional newline
  let pieces ← many (firstOf [piece, fewQuotes quote])
  let last ← closingQuotes quote
  return String.ofList (pieces.flatten ++ last)

def basicPiece : Reader (List Char) :=
  -- a backslash at the end of a line is tried before the other escapes
  firstOf [do return [← newlineChar], do lineContinuation; return [], do return [← basicChar]]

def literalPiece : Reader (List Char) :=
  firstOf [do return [← newlineChar],
    do return [← charWhere fun c => isPrintable c && c ≠ '\'']]

def string : Reader String :=
  firstOf [multiline '"' basicPiece, basicString, multiline '\'' literalPiece, literalString]

end Toml
end ScriptHost
