import ScriptHost.Number.Numeral
import ScriptHost.Script.Error

/-!
# Lexical analysis

A source is cut into lexemes from left to right, each as long as its class allows. Blanks and
comments separate tokens and vanish; what begins no lexeme, or begins a string literal that does
not end or contains an unknown escape, is refused together with the characters read so far.
-/

namespace ScriptHost
namespace Script
namespace Lexer

/-! ## Character classes -/

def isBlank (c : Char) : Bool :=
  c == ' ' || c == '\t' || c == '\r' || c == '\n'

def isNameStart (c : Char) : Bool :=
  ('A' ≤ c && c ≤ 'Z') || ('a' ≤ c && c ≤ 'z') || c == '_'

def isNamePart (c : Char) : Bool :=
  isNameStart c || Number.isDigit c

/-! ## Numerals -/

/-- The number nearest to a numeral with the given digits before and after the point. -/
def numeralValue (whole fraction : List Char) : Float :=
  Float.ofScientific (Number.numeralValue 10 (whole ++ fraction)) true fraction.length

/-! ## String literals -/

/-- How far the body of a string literal extends, counted with the closing quote if there is one,
and whether there is one. A backslash takes the next character with it, except a line feed. -/
def bodyExtent : List Char → Nat × Bool
  | [] => (0, false)
  | '"' :: _ => (1, true)
  | '\\' :: '\n' :: _ => (0, false)
  | '\\' :: _ :: rest =>
      let (n, closed) := bodyExtent rest
      (n + 2, closed)
  | '\\' :: [] => (0, false)
  | _ :: rest =>
      let (n, closed) := bodyExtent rest
      (n + 1, closed)

def escapedChar : Char → Option Char
  | 'n' => some '\n'
  | 't' => some '\t'
  | '"' => some '"'
  | '\\' => some '\\'
  | _ => none

/-- The characters that the body of a string literal denotes. -/
def unescape : List Char → Option (List Char)
  | [] => some []
  | '\\' :: [] => none
  | '\\' :: c :: rest => do
      let d ← escapedChar c
      let ds ← unescape rest
      return d :: ds
  | c :: rest => do
      let ds ← unescape rest
      return c :: ds

/-! ## One lexeme -/

inductive Lexeme
  | skipped
  | token (t : Token)
  | malformed
  deriving DecidableEq

def keyword? (name : String) : Option Keyword :=
  Keyword.all.find? fun k => k.spelling == name

def word (name : String) : Token :=
  match keyword? name with
  | some k => .keyword k
  | none => .ident name

def numeral (c : Char) (rest : List Char) : Lexeme × Nat :=
  let whole := rest.takeWhile Number.isDigit
  match rest.drop whole.length with
  -- a point belongs to the numeral only if a digit follows
  | '.' :: after =>
      match after.takeWhile Number.isDigit with
      | [] => (.token (.number (numeralValue (c :: whole) [])), whole.length)
      | fraction =>
          (.token (.number (numeralValue (c :: whole) fraction)),
            whole.length + 1 + fraction.length)
  | _ => (.token (.number (numeralValue (c :: whole) [])), whole.length)

def stringLiteral (rest : List Char) : Lexeme × Nat :=
  match bodyExtent rest with
  | (n, false) => (.malformed, n)
  | (n, true) =>
      match unescape (rest.take (n - 1)) with
      | some cs => (.token (.text (String.ofList cs)), n)
      | none => (.malformed, n)

/-- A symbol of one character that turns into another one when an equals sign follows. -/
def orEqual (rest : List Char) (short long : Symbol) : Lexeme × Nat :=
  match rest with
  | '=' :: _ => (.token (.symbol long), 1)
  | _ => (.token (.symbol short), 0)

def symbol (s : Symbol) : Lexeme × Nat :=
  (.token (.symbol s), 0)

/-- The lexeme that begins with `c`, and how many characters after `c` belong to it. -/
def next (c : Char) (rest : List Char) : Lexeme × Nat :=
  if isBlank c then
    (.skipped, (rest.takeWhile isBlank).length)
  else if isNameStart c then
    let tail := rest.takeWhile isNamePart
    (.token (word (String.ofList (c :: tail))), tail.length)
  else if Number.isDigit c then
    numeral c rest
  else
    match c with
    | '"' => stringLiteral rest
    | '/' =>
        match rest with
        | '/' :: _ => (.skipped, (rest.takeWhile (· != '\n')).length)
        | _ => symbol .slash
    | '=' => orEqual rest .assign .eqEq
    | '!' => orEqual rest .bang .notEq
    | '<' => orEqual rest .lt .ltEq
    | '>' => orEqual rest .gt .gtEq
    | '+' => symbol .plus
    | '-' => symbol .minus
    | '*' => symbol .star
    | '(' => symbol .openParen
    | ')' => symbol .closeParen
    | '\x7b' => symbol .openBrace
    | '\x7d' => symbol .closeBrace
    | ',' => symbol .comma
    | ';' => symbol .semicolon
    | _ => (.malformed, 0)

/-! ## All lexemes -/

def scan (line : Nat) : List Char → Except CompileError (List Located)
  | [] => .ok []
  | c :: cs =>
      let (lexeme, n) := next c cs
      let slice := c :: cs.take n
      -- a lexeme is reported on the line on which it begins
      let lineAfter := line + slice.count '\n'
      match lexeme with
      | .malformed => .error ⟨line, .unreadable (String.ofList slice), none⟩
      | .skipped => scan lineAfter (cs.drop n)
      | .token t => do
          let rest ← scan lineAfter (cs.drop n)
          return ⟨t, line⟩ :: rest
termination_by cs => cs.length
decreasing_by all_goals (simp only [List.length_drop, List.length_cons]; omega)

end Lexer

/-- The tokens of a source with their lines, or the first place that cannot be read. -/
def tokenize (source : String) : Except CompileError (List Located) :=
  Lexer.scan 1 source.toList

end Script
end ScriptHost
