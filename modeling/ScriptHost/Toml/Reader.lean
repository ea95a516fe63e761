/-!
# Readers

A reader takes what it recognises from the front of a text and leaves the rest; it gives nothing
if the text does not begin with it. Of two alternatives the first that succeeds is taken.
-/

namespace ScriptHost
namespace Toml

abbrev Reader (α : Type) :=
  StateT (List Char) Option α

namespace Reader

variable {α β : Type}

/-! ## Characters -/

/-- The next character, which stays where it is. -/
def peek : Reader (Option Char) := fun cs =>
  some (cs.head?, cs)

def charWhere (p : Char → Bool) : Reader Char
  | [] => none
  | c :: rest => if p c then some (c, rest) else none

def char (c : Char) : Reader Unit := do
  let _ ← charWhere (· == c)

def word (text : String) : Reader Unit :=
  text.toList.forM char

def takeWhile (p : Char → Bool) : Reader (List Char) := fun cs =>
  some (cs.takeWhile p, cs.dropWhile p)

def endOfInput : Reader Unit
  | [] => some ((), [])
  | _ :: _ => none

/-! ## Combinations -/

/-- The next one of the alternatives that succeeds. -/
def firstOf : List (Reader α) → Reader α
  | [] => fun _ => none
  | x :: rest => fun cs => (x cs).or (firstOf rest cs)

/-- Up to `limit` times, until it fails. -/
def upTo (x : Reader α) : Nat → Reader (List α)
  | 0 => pure []
  | limit + 1 => do
      match ← optional x with
      | none => return []
      | some a =>
          let rest ← upTo x limit
          return a :: rest

/-- As often as possible. A reader that succeeds takes a character at least, so the length of the
text bounds the repetitions. -/
def many (x : Reader α) : Reader (List α) := fun cs =>
  upTo x cs.length cs

/-- Repeats a reader to the end of the text; fails as soon as it fails. -/
def toEnd (x : Reader α) : Reader (List α) := do
  let items ← many x
  endOfInput
  return items

/-- One or more items with something between every two of them. -/
def separated (item : Reader α) (sep : Reader β) : Reader (List α) := do
  let first ← item
  let rest ← many do
    let _ ← sep
    item
  return first :: rest

end Reader

end Toml
end ScriptHost
