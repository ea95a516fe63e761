import ScriptHost.Toml.Document

/-!
# The written form of documents

Values, keys and lines. Brackets may be nested to a fixed depth only, and a key has a fixed number
of parts at most.
-/

namespace ScriptHost
namespace Toml

open Reader Number

/-! ## Keys -/

def isKeyChar (c : Char) : Bool :=
  isDigit c || ('a' ≤ c && c ≤ 'z') || ('A' ≤ c && c ≤ 'Z') || c == '_' || c == '-'

def bareKey : Reader String := do
  let first ← charWhere isKeyChar
  let rest ← takeWhile isKeyChar
  return String.ofList (first :: rest)

def keyPart : Reader String := do
  blanks
  let part ← firstOf [basicString, literalString, bareKey]
  blanks
  return part

def nestingLimit : Nat :=
  80

def key : Reader Key := do
  let parts ← separated keyPart (char '.')
  if parts.length < nestingLimit then
    StateT.lift (Key.ofParts? parts)
  else
    failure

/-! ## Values -/

def scalar : Reader Node :=
  firstOf [
    do return .text (← string),
    -- a date begins like a number and a real like an integer, so the longer forms are tried first
    do moment; return .moment,
    do real; return .real,
    do return .integer (← integer),
    do return .flag (← flag)]

/-- Values between brackets, with any space around them and a comma after the last one if one
likes. -/
def array (value : Reader Node) : Reader Node := do
  char '['
  let items ← optional do
    let items ← separated (do anySpace; let v ← value; anySpace; return v) (char ',')
    let _ ← optional (char ',')
    return items
  anySpace
  char ']'
  return .list (items.getD [])

def assignment (value : Reader Node) : Reader (Key × Node) := do
  let k ← key
  char '='
  blanks
  let v ← value
  return (k, v)

/-- Assignments between braces, all on one line and without a comma after the last one. -/
def inlineTable (value : Reader Node) : Reader Node := do
  char '\x7b'
  let assignments ← optional
    (separated (do let a ← assignment value; blanks; return a) (char ','))
  blanks
  char '\x7d'
  let entries ← StateT.lift (ofAssignments? (assignments.getD []))
  return .inline entries

/-- A value in which brackets are nested no deeper than that. -/
def value : Nat → Reader Node
  | 0 => scalar
  | depth + 1 => firstOf [scalar, array (value depth), inlineTable (value depth)]

/-! ## Lines -/

def blankLine : Reader Line := do
  firstOf [do comment; lineEnd, newline]
  return .blank

def elementLine : Reader Line := do
  word "[["
  let k ← key
  word "]]"
  lineRest
  return .element k

def headerLine : Reader Line := do
  char '['
  let k ← key
  char ']'
  lineRest
  return .header k

def assignmentLine : Reader Line := do
  let (k, v) ← assignment (value (nestingLimit - 1))
  lineRest
  return .assignment k v

def line : Reader Line := do
  let l ← firstOf [blankLine, elementLine, headerLine, assignmentLine]
  blanks
  return l

def byteOrderMark : Char :=
  '\ufeff'

def document : Reader (List Line) := do
  let _ ← optional (char byteOrderMark)
  -- every line takes the blanks behind it, so only the first has some in front
  blanks
  toEnd line

/-- The root table of a document; nothing if the text is not a document. -/
def parse (text : String) : Option Entries := do
  let (lines, _) ← document text.toList
  ofLines? lines

end Toml
end ScriptHost
