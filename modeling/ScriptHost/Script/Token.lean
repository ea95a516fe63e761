import ScriptHost.Number.Text
import ScriptHost.Text.Quoted

/-!
# Tokens

The vocabulary of the script language. Keywords and symbols have one spelling each; identifiers,
numerals and string literals carry what they stand for. Every token also has a label, the name
under which a diagnostic mentions it.
-/

namespace ScriptHost
namespace Script

/-! ## Fixed words -/

inductive Keyword
  | func
  | return
  | if
  | else
  | while
  | true
  | false
  | null
  deriving DecidableEq, Repr

namespace Keyword

def all : List Keyword :=
  [.func, .return, .if, .else, .while, .true, .false, .null]

def spelling : Keyword → String
  | .func => "func"
  | .return => "return"
  | .if => "if"
  | .else => "else"
  | .while => "while"
  | .true => "true"
  | .false => "false"
  | .null => "null"

def label : Keyword → String
  | .func => "Func"
  | .return => "Return"
  | .if => "If"
  | .else => "Else"
  | .while => "While"
  | .true => "True"
  | .false => "False"
  | .null => "Null"

end Keyword

inductive Symbol
  | eqEq
  | notEq
  | ltEq
  | gtEq
  | lt
  | gt
  | assign
  | bang
  | plus
  | minus
  | star
  | slash
  | openParen
  | closeParen
  | openBrace
  | closeBrace
  | comma
  | semicolon
  deriving DecidableEq, Repr

namespace Symbol

def spelling : Symbol → String
  | .eqEq => "=="
  | .notEq => "!="
  | .ltEq => "<="
  | .gtEq => ">="
  | .lt => "<"
  | .gt => ">"
  | .assign => "="
  | .bang => "!"
  | .plus => "+"
  | .minus => "-"
  | .star => "*"
  | .slash => "/"
  | .openParen => "("
  | .closeParen => ")"
  | .openBrace => "\x7b"
  | .closeBrace => "\x7d"
  | .comma => ","
  | .semicolon => ";"

def label : Symbol → String
  | .eqEq => "EqEq"
  | .notEq => "NotEq"
  | .ltEq => "LtEq"
  | .gtEq => "GtEq"
  | .lt => "Lt"
  | .gt => "Gt"
  | .assign => "Assign"
  | .bang => "Bang"
  | .plus => "Plus"
  | .minus => "Minus"
  | .star => "Star"
  | .slash => "Slash"
  | .openParen => "LParen"
  | .closeParen => "RParen"
  | .openBrace => "LBrace"
  | .closeBrace => "RBrace"
  | .comma => "Comma"
  | .semicolon => "Semicolon"

end Symbol

/-! ## Tokens -/

inductive Token
  | keyword (k : Keyword)
  | symbol (s : Symbol)
  | ident (name : String)
  | number (x : Float)
  | text (s : String)
  deriving DecidableEq

/-- The class under which a diagnostic mentions the token. -/
def Token.label : Token → String
  | .keyword k => k.label
  | .symbol s => s.label
  | .ident _ => "Ident"
  | .number _ => "Number"
  | .text _ => "Str"

/-- The token as a diagnostic shows it: its label, with what it carries in parentheses. -/
def Token.shown : Token → String
  | .ident name => "Ident(" ++ Text.quoted name ++ ")"
  | .number x => "Number(" ++ Number.numeral x ++ ")"
  | .text s => "Str(" ++ Text.quoted s ++ ")"
  | t => t.label

/-- A token with the line it starts on, counted from one. -/
structure Located where
  token : Token
  line : Nat
  deriving DecidableEq

end Script
end ScriptHost
