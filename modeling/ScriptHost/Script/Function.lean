import ScriptHost.Script.Syntax

/-!
# Compiled functions

Instructions and the functions made of them. An instruction refers to the constants and names of
its function by index; both pools hold each entry once.
-/

namespace ScriptHost
namespace Script

/-! ## Instructions -/

/-- Jumps go to absolute instruction indexes. A call of a function is in two parts: `loadFunc`
resolves the callee before the arguments are evaluated, `call` completes it. -/
inductive Opcode
  | const (index : Nat)
  | loadGlobal (index : Nat)
  | storeGlobal (index : Nat)
  | loadLocal (slot : Nat)
  | storeLocal (slot : Nat)
  | binary (op : BinaryOp)
  | prefixed (op : PrefixOp)
  | jump (target : Nat)
  | jumpIfFalse (target : Nat)
  | loadFunc (index : Nat)
  | call (argc : Nat)
  | pop
  | ret
  deriving DecidableEq, Repr

/-! ## Functions -/

structure Function where
  name : String
  paramCount : Nat
  code : Array Opcode
  constants : Array Value
  names : Array String
  deriving DecidableEq

namespace Function

def new (name : String) (paramCount : Nat) : Function :=
  ⟨name, paramCount, #[], #[], #[]⟩

/-- Interns a constant and tells its index. An entry serves every constant that the language
considers equal to it. -/
def addConstant (f : Function) (v : Value) : Function × Nat :=
  match f.constants.findIdx? fun c => c.equals v with
  | some i => (f, i)
  | none => ({ f with constants := f.constants.push v }, f.constants.size)

def addName (f : Function) (name : String) : Function × Nat :=
  match f.names.findIdx? fun n => n == name with
  | some i => (f, i)
  | none => ({ f with names := f.names.push name }, f.names.size)

/-- The index that the next instruction gets. -/
def nextIndex (f : Function) : Nat :=
  f.code.size

def emit (f : Function) (op : Opcode) : Function :=
  { f with code := f.code.push op }

end Function

/-- A compiled source: its top-level statements as a function of their own, and the functions it
declares in source order. -/
structure CompiledUnit where
  main : Function
  functions : List Function

/-- The name of the function that holds the top-level statements of a unit. -/
def mainName : String :=
  "<main>"

end Script
end ScriptHost
