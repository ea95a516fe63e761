import ScriptHost.Machine.Vm

/-!
# Instructions

One step fetches the instruction at which the innermost frame stands, moves the frame past it and
executes it. A call of a native function is a single step; a call of a script function only
pushes a frame, and the steps that follow run it.
-/

namespace ScriptHost
namespace Machine

open Script

variable {ν σ : Type}

namespace Step

/-! ## Operands -/

def push (v : Value) : Exec ν σ Unit :=
  Exec.onStack (Stack.push v)

def pop : Exec ν σ Value :=
  Exec.onStack Stack.pop

def binaryValue (op : BinaryOp) (a b : Value) : Except ScriptError Value :=
  match op with
  | .add => a.add b
  | .sub => a.arith '-' b
  | .mul => a.arith '*' b
  | .div => a.arith '/' b
  | .eq => .ok (.bool (a.equals b))
  | .ne => .ok (.bool (!a.equals b))
  | .lt => (a.compare b).map fun o => .bool (o == .lt)
  | .le => (a.compare b).map fun o => .bool (o != .gt)
  | .gt => (a.compare b).map fun o => .bool (o == .gt)
  | .ge => (a.compare b).map fun o => .bool (o != .lt)

def prefixValue (op : PrefixOp) (v : Value) : Except ScriptError Value :=
  match op, v with
  | .not, v => .ok (.bool (!v.isTruthy))
  | .neg, .number x => .ok (.number (-x))
  | .neg, v => .error (.type (.negation v.kind))

/-! ## Calls -/

/-- Brings the operands above `base` to the number of parameters: extra arguments are dropped,
missing ones are null. -/
def adjustArguments (paramCount base : Nat) : Attempt ScriptError (Stack ν) Unit := fun s =>
  let given := s.slots.size - base
  if paramCount < given then
    (.ok (), { s with slots := s.slots.take (base + paramCount) })
  else
    fill (paramCount - given) s
where
  fill : Nat → Attempt ScriptError (Stack ν) Unit
    | 0 => pure ()
    | n + 1 => do
        Stack.push .null
        fill n

def callScript (f : Function) (base : Nat) : Exec ν σ Unit := do
  let m ← Attempt.get
  let limit := m.vm.limits.callDepth
  if limit ≤ m.vm.stack.frames.size then
    Attempt.fail (.callDepthExceeded limit)
  else
    -- the arguments stay where they are and become the locals of the callee
    Exec.onStack (adjustArguments f.paramCount base)
    Exec.onStack (Attempt.modify (Stack.pushFrame f base))

def callNative (natives : Natives ν σ) (native : ν) (base : Nat) : Exec ν σ Unit := do
  let args ← Exec.onStack (Stack.splitOff base)
  let v ← Exec.onHost (natives native args)
  push v

/-- Completes the innermost call setup with the operands above it. -/
def call (natives : Natives ν σ) : Exec ν σ Unit := do
  let setup ← Exec.onStack Stack.popSetup
  match setup.callee with
  | .native native => callNative natives native setup.base
  | .script f => callScript f setup.base

/-! ## Instructions -/

def nameAt (f : Function) (index : Nat) : Except ScriptError String :=
  match f.names[index]? with
  | some name => .ok name
  | none => .error (.runtime (.nameRange index))

def constantAt (f : Function) (index : Nat) : Except ScriptError Value :=
  match f.constants[index]? with
  | some v => .ok v
  | none => .error (.runtime (.constantRange index))

def loadGlobal (name : String) : Exec ν σ Unit := do
  let m ← Attempt.get
  push ((m.vm.globals.get? name).getD .null)

def storeGlobal (name : String) : Exec ν σ Unit := do
  let v ← pop
  Attempt.modify fun m => { m with vm.globals := m.vm.globals.insert name v }

def jump (target : Nat) : Exec ν σ Unit :=
  Exec.onStack (Attempt.modify (Stack.setIp target))

def loadFunc (name : String) : Exec ν σ Unit := fun m =>
  match m.vm.loadFunction name with
  | some vm => (.ok (), { m with vm := vm })
  | none => (.error (.unknownFunction name), m)

/-- Gives the value on top to the caller in place of the callee's operands. -/
def ret : Exec ν σ Unit := do
  let v ← pop
  -- whatever the callee has left above its base goes with its frame
  let _ ← Exec.onStack Stack.popFrame
  push v

def execute (natives : Natives ν σ) (f : Function) (op : Opcode) : Exec ν σ Unit :=
  match op with
  | .const index => do push (← Attempt.ofExcept (constantAt f index))
  | .loadGlobal index => do loadGlobal (← Attempt.ofExcept (nameAt f index))
  | .storeGlobal index => do storeGlobal (← Attempt.ofExcept (nameAt f index))
  | .loadLocal slot => do
      let m ← Attempt.get
      push (← Attempt.ofExcept (m.vm.stack.loadLocal slot))
  | .storeLocal slot => do
      let v ← pop
      Exec.onStack (Stack.storeLocal slot v)
  | .binary op => do
      -- the right operand is on top
      let b ← pop
      let a ← pop
      push (← Attempt.ofExcept (binaryValue op a b))
  | .prefixed op => do
      let v ← pop
      push (← Attempt.ofExcept (prefixValue op v))
  | .jump target => jump target
  | .jumpIfFalse target => do
      let v ← pop
      if v.isTruthy then pure () else jump target
  | .loadFunc index => do loadFunc (← Attempt.ofExcept (nameAt f index))
  -- the setup tells where the arguments begin, so their number is not needed
  | .call _ => call natives
  | .pop => do let _ ← pop
  | .ret => ret

/-- The function and the instruction index of the innermost frame, which moves on by one. -/
def advance : Attempt ScriptError (Stack ν) (Function × Nat) := fun s =>
  match s.currentFrame? with
  | some frame => (.ok (frame.function, frame.ip), s.setIp (frame.ip + 1))
  | none => (.error (.runtime .noActiveFrame), s)

def countStep : Exec ν σ Unit :=
  Attempt.modify fun m => { m with vm.steps := m.vm.steps + 1 }

end Step

/-- Executes one instruction. -/
def step (natives : Natives ν σ) : Exec ν σ Unit := do
  let (f, ip) ← Exec.onStack Step.advance
  match f.code[ip]? with
  | none => Attempt.fail (.runtime (.instructionRange ip f.name))
  | some op =>
      -- a fetch that fails is no step
      Step.countStep
      Step.execute natives f op

end Machine
end ScriptHost
