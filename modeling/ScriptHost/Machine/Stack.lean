import ScriptHost.Attempt
import ScriptHost.Script.Function

/-!
# The stacks of the machine

Three stacks grow together: operands (arguments, locals and temporaries), the callees that have
been resolved and wait for their arguments, and the frames of active script calls. The heights of
all three make a mark to which the machine can be cut back.
-/

namespace ScriptHost
namespace Machine

open Script

/-! ## Entries -/

/-- An entry of the function table; `ν` names the host functions. -/
inductive Callable (ν : Type)
  | script (function : Function)
  | native (name : ν)

/-- A resolved callee. Its arguments are the operands from height `base` upward. -/
structure CallSetup (ν : Type) where
  name : String
  callee : Callable ν
  base : Nat

/-- An active script call: the next instruction, and where its parameters begin. -/
structure Frame where
  function : Function
  ip : Nat
  base : Nat

structure Mark where
  operands : Nat
  setups : Nat
  frames : Nat
  deriving DecidableEq, Repr

/-! ## The stacks -/

structure Stack (ν : Type) where
  slots : Array Value
  setups : Array (CallSetup ν)
  frames : Array Frame
  capacity : Nat

namespace Stack

variable {ν : Type}

def defaultCapacity : Nat :=
  65536

def empty (capacity : Nat) : Stack ν :=
  ⟨#[], #[], #[], capacity⟩

def mark (s : Stack ν) : Mark :=
  ⟨s.slots.size, s.setups.size, s.frames.size⟩

/-! ## Operands -/

def push (v : Value) : Attempt ScriptError (Stack ν) Unit := fun s =>
  if s.slots.size < s.capacity then
    (.ok (), { s with slots := s.slots.push v })
  else
    (.error .stackOverflow, s)

def pop : Attempt ScriptError (Stack ν) Value := fun s =>
  match s.slots.back? with
  | some v => (.ok v, { s with slots := s.slots.pop })
  | none => (.error .stackUnderflow, s)

def peek (s : Stack ν) : Except ScriptError Value :=
  match s.slots.back? with
  | some v => .ok v
  | none => .error .stackUnderflow

/-- Takes off every operand from height `base` upward. -/
def splitOff (base : Nat) : Attempt ScriptError (Stack ν) (List Value) := fun s =>
  (.ok (s.slots.drop base).toList, { s with slots := s.slots.take base })

/-! ## Resolved callees -/

def pushSetup (name : String) (callee : Callable ν) (s : Stack ν) : Stack ν :=
  { s with setups := s.setups.push ⟨name, callee, s.slots.size⟩ }

def popSetup : Attempt ScriptError (Stack ν) (CallSetup ν) := fun s =>
  match s.setups.back? with
  | some setup => (.ok setup, { s with setups := s.setups.pop })
  | none => (.error (.runtime .noCallSetup), s)

/-! ## Frames -/

def pushFrame (function : Function) (base : Nat) (s : Stack ν) : Stack ν :=
  { s with frames := s.frames.push ⟨function, 0, base⟩ }

def currentFrame? (s : Stack ν) : Option Frame :=
  s.frames.back?

/-- Takes off the innermost frame together with its operands. -/
def popFrame : Attempt ScriptError (Stack ν) Frame := fun s =>
  match s.frames.back? with
  | some frame => (.ok frame, { s with frames := s.frames.pop, slots := s.slots.take frame.base })
  | none => (.error (.runtime .noFrameToPop), s)

/-- Moves the innermost frame, if there is one, to another instruction. -/
def setIp (ip : Nat) (s : Stack ν) : Stack ν :=
  { s with frames := s.frames.modify (s.frames.size - 1) fun frame => { frame with ip := ip } }

/-! ## Locals -/

/-- The operand that holds a parameter of the innermost call. -/
def localSlot (index : Nat) (s : Stack ν) : Except ScriptError Nat :=
  match s.currentFrame? with
  | none => .error (.runtime .noActiveFrame)
  | some frame =>
      if frame.function.paramCount ≤ index then
        .error (.runtime (.localRange index frame.function.paramCount))
      -- the index is one of the function, but its operand is gone
      else if s.slots.size ≤ frame.base + index then
        .error .stackUnderflow
      else
        .ok (frame.base + index)

def loadLocal (index : Nat) (s : Stack ν) : Except ScriptError Value :=
  match s.localSlot index with
  | .error e => .error e
  | .ok slot =>
      match s.slots[slot]? with
      | some v => .ok v
      | none => .error .stackUnderflow

def storeLocal (index : Nat) (v : Value) : Attempt ScriptError (Stack ν) Unit := fun s =>
  match s.localSlot index with
  | .error e => (.error e, s)
  | .ok slot => (.ok (), { s with slots := s.slots.setIfInBounds slot v })

/-! ## Marks -/

/-- Cuts every stack back to the mark; a stack that is not higher stays as it is. -/
def restore (m : Mark) (s : Stack ν) : Stack ν :=
  { s with
    slots := s.slots.take m.operands
    setups := s.setups.take m.setups
    frames := s.frames.take m.frames }

end Stack

end Machine
end ScriptHost
