import ScriptHost.Machine.Stack
import ScriptHost.Script.Compiler
import ScriptHost.Store.Table

/-!
# The machine and its functions

A machine holds the stacks, the function table, the globals and a count of executed instructions.
It runs inside a host whose state the native functions may change; the machine itself is out of
their reach. Names of functions and globals are looked up in lower case.
-/

namespace ScriptHost
namespace Machine

open Script

/-! ## Limits -/

/-- What a machine allows at most: slots of the value stack, open calls, and nested blocks and
expressions of a source. -/
structure Limits where
  stackSize : Nat := Stack.defaultCapacity
  callDepth : Nat := 1024
  nestingDepth : Nat := 256
  deriving DecidableEq, Repr

/-! ## The state -/

/-- The state of a machine. Names of functions and of globals are kept in their normal form, and
`steps` counts instructions over all runs. -/
structure Vm (ν : Type) where
  stack : Stack ν
  functions : Store.Table (Callable ν)
  globals : Store.Table Value
  limits : Limits
  steps : Nat

/-- What each native function does with its arguments and the state of the host. -/
abbrev Natives (ν σ : Type) :=
  ν → List Value → Attempt ScriptError σ Value

/-- A machine in its host. -/
structure Hosted (ν σ : Type) where
  vm : Vm ν
  host : σ

/-- What a machine does together with its host. It changes both, also if it fails. -/
abbrev Exec (ν σ α : Type) :=
  Attempt ScriptError (Hosted ν σ) α

namespace Vm

variable {ν : Type}

def new (limits : Limits) : Vm ν :=
  ⟨Stack.empty limits.stackSize, .empty, .empty, limits, 0⟩

/-- Where the stacks are, so that a failed run can be undone. -/
def mark (vm : Vm ν) : Mark :=
  vm.stack.mark

def restore (m : Mark) (vm : Vm ν) : Vm ν :=
  { vm with stack := vm.stack.restore m }

/-! ## Tables -/

/-- Adds a function, or replaces the one of that name. -/
def define (name : String) (callee : Callable ν) (vm : Vm ν) : Vm ν :=
  { vm with functions := vm.functions.insert (normalizeName name) callee }

def defineFunction (f : Function) (vm : Vm ν) : Vm ν :=
  vm.define f.name (.script f)

/-- Of functions with the same name the last one counts. -/
def defineFunctions (fs : List Function) (vm : Vm ν) : Vm ν :=
  fs.foldl (fun vm f => vm.defineFunction f) vm

def registerNative (name : String) (native : ν) (vm : Vm ν) : Vm ν :=
  vm.define name (.native native)

/-- Globals are found whatever the case of the letters. -/
def global? (name : String) (vm : Vm ν) : Option Value :=
  vm.globals.get? (normalizeName name)

/-! ## Loading -/

/-- Compiles a source, registers the functions it declares and gives its top-level code. A source
that does not compile leaves the machine alone. -/
def load (source : String) : Attempt ScriptError (Vm ν) Function := fun vm =>
  match compile vm.limits.nestingDepth source with
  | .error e => (.error (.compile e), vm)
  -- whatever the top-level code does later, the functions are there
  | .ok compiled => (.ok compiled.main, vm.defineFunctions compiled.functions)

/-- Resolves a name and opens a call setup for it, if there is such a function. -/
def loadFunction (name : String) (vm : Vm ν) : Option (Vm ν) :=
  let key := normalizeName name
  (vm.functions.get? key).map fun callee => { vm with stack := vm.stack.pushSetup key callee }

end Vm

namespace Exec

variable {ν σ α : Type}

/-- An operation on the stacks alone. -/
def onStack (op : Attempt ScriptError (Stack ν) α) : Exec ν σ α := fun m =>
  match m with
  | ⟨⟨stack, functions, globals, limits, steps⟩, host⟩ =>
      let (r, stack) := op stack
      (r, ⟨⟨stack, functions, globals, limits, steps⟩, host⟩)

def onVm (op : Attempt ScriptError (Vm ν) α) : Exec ν σ α := fun m =>
  let (r, vm) := op m.vm
  (r, { m with vm := vm })

/-- A step that concerns the host alone. -/
def onHost (op : Attempt ScriptError σ α) : Exec ν σ α := fun m =>
  let (r, host) := op m.host
  (r, { m with host := host })

end Exec

end Machine
end ScriptHost
