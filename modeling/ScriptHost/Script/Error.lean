import ScriptHost.Script.Token

/-!
# Errors of the language

Everything that can go wrong with a script, by cause. Compilation stops at a token on some line;
a running script breaks a type rule or a rule of the machine, or a host function raises an error
of its own. The wording is fixed once, in the `message` functions.
-/

namespace ScriptHost
namespace Script

/-! ## Compilation -/

/-- What the grammar asks for at a place where something else stands. -/
inductive Expectation
  | openBrace
  | closeBrace
  | openParen
  | closeParen
  | closeArguments
  | functionName
  | parameterName
  deriving DecidableEq, Repr

def Expectation.phrase : Expectation → String
  | .openBrace => "'\x7b'"
  | .closeBrace => "'\x7d'"
  | .openParen => "'('"
  | .closeParen => "')'"
  | .closeArguments => "')' after arguments"
  | .functionName => "function name"
  | .parameterName => "parameter name"

inductive SyntaxFault
  | unreadable (slice : String)
  | noOperand
  | expected (what : Expectation)
  | duplicateParameter (name : String)
  | nestedFunction
  | tooDeep (limit : Nat)
  deriving DecidableEq, Repr

/-- A rejected source: the fault, its line and the token that stands there, if any does. -/
structure CompileError where
  line : Nat
  fault : SyntaxFault
  found : Option Token
  deriving DecidableEq

namespace CompileError

def foundPhrase : Option Token → String
  | some t => t.shown
  | none => "end of input"

def message (e : CompileError) : String :=
  match e.fault, e.found with
  | .unreadable slice, _ => "Unexpected input '" ++ slice ++ "'"
  | .noOperand, some t => "Unexpected token " ++ t.shown
  | .noOperand, none => "Unexpected end of input"
  | .expected what, found => "Expected " ++ what.phrase ++ ", found " ++ foundPhrase found
  | .duplicateParameter name, found =>
      "Duplicate parameter '" ++ name ++ "', found " ++ foundPhrase found
  | .nestedFunction, found =>
      "Nested func declarations are not allowed, found " ++ foundPhrase found
  | .tooDeep limit, found =>
      "Maximum nesting depth of " ++ toString limit ++ " exceeded, found " ++ foundPhrase found

end CompileError

/-! ## Types -/

inductive Kind
  | null
  | bool
  | number
  | string
  deriving DecidableEq, Repr

def Kind.name : Kind → String
  | .null => "null"
  | .bool => "bool"
  | .number => "number"
  | .string => "string"

inductive TypeFault
  | operands (operator : String) (left right : Kind)
  | unordered
  | negation (operand : Kind)
  | arity (function : String) (expected given : Nat)
  | argument (function : String) (position : Nat) (expected given : Kind)
  deriving DecidableEq, Repr

def TypeFault.message : TypeFault → String
  | .operands operator left right =>
      "Cannot apply " ++ operator ++ " to " ++ left.name ++ " and " ++ right.name
  | .unordered => "Cannot order NaN"
  | .negation operand => "Cannot negate " ++ operand.name
  | .arity function expected given =>
      function ++ " expects " ++ toString expected ++ " argument(s), got " ++ toString given
  | .argument function position expected given =>
      function ++ " argument " ++ toString position ++ " must be a " ++ expected.name ++ ", got " ++
        given.name

/-! ## Running -/

/-- A broken rule of the machine. The last one is raised by host functions, with a text of their
own choice. -/
inductive RuntimeFault
  | divisionByZero
  | unknownOperator (operator : Char)
  | noCallSetup
  | noFrameToPop
  | noActiveFrame
  | constantRange (index : Nat)
  | nameRange (index : Nat)
  | localRange (index limit : Nat)
  | instructionRange (index : Nat) (function : String)
  | raised (text : String)
  deriving DecidableEq, Repr

def RuntimeFault.message : RuntimeFault → String
  | .divisionByZero => "Division by zero"
  | .unknownOperator operator => "Unknown operator " ++ operator.toString
  | .noCallSetup => "Call without a loaded function"
  | .noFrameToPop => "No call frame to pop"
  | .noActiveFrame => "No active call frame"
  | .constantRange index => "Constant " ++ toString index ++ " out of range"
  | .nameRange index => "Name " ++ toString index ++ " out of range"
  | .localRange index limit =>
      "Local index " ++ toString index ++ " out of bounds (max " ++ toString limit ++ ")"
  | .instructionRange index function =>
      "Instruction pointer " ++ toString index ++ " out of range in " ++ function
  | .raised text => text

inductive ScriptError
  | compile (e : CompileError)
  | stackOverflow
  | stackUnderflow
  | callDepthExceeded (limit : Nat)
  | unknownFunction (name : String)
  | type (fault : TypeFault)
  | runtime (fault : RuntimeFault)
  deriving DecidableEq

def ScriptError.message : ScriptError → String
  | .compile e => "Compile error at line " ++ toString e.line ++ ": " ++ e.message
  | .stackOverflow => "Stack overflow"
  | .stackUnderflow => "Stack underflow"
  | .callDepthExceeded limit => "Call depth exceeded (max " ++ toString limit ++ ")"
  | .unknownFunction name => "Unknown function: " ++ name
  | .type fault => "Type error: " ++ fault.message
  | .runtime fault => "Runtime error: " ++ fault.message

end Script
end ScriptHost
