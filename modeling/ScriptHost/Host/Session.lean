import ScriptHost.Host.ScriptApi
import ScriptHost.Machine.Invoke

/-!
# Sessions

A machine and the bridge around it, until the machine is dropped. Activities that may run a script
have a budget of instructions and of fragments; they give nothing if it is used up before they are
over, or if they wait for something that nobody is left to do.

Threads take turns. The thread that owns the event loop runs as soon as the calling thread has
finished an operation, and goes on until nothing is left to run.
-/

namespace ScriptHost
namespace Host

open Script Machine

/-! ## The state -/

/-- The machine is there until it is dropped; `spawned` tells whether the window's loop runs on a
thread of its own. -/
structure Session where
  machine : Option (Vm Builtin)
  bridge : Bridge
  spawned : Bool := false

/-- What is done in a session, unless it is never over. -/
abbrev Activity (α : Type) :=
  StateT Session Option α

namespace Session

variable {α : Type}

def isLive (s : Session) : Bool :=
  s.machine.isSome

/-- Callbacks and fragments that come later find no machine. -/
def dropMachine (s : Session) : Session :=
  { s with machine := none }

/-! ## Parts of a session -/

/-- An activity that is never over. -/
def unfinished : Activity α :=
  fun _ => none

/-- Something that concerns the bridge alone. -/
def onBridge (f : Bridge → α × Bridge) : Activity α := fun s =>
  let (a, bridge) := f s.bridge
  some (a, { s with bridge := bridge })

def updateBridge (f : Bridge → Bridge) : Activity Unit :=
  onBridge fun b => ((), f b)

def note (n : Notice) : Activity Unit :=
  updateBridge (Bridge.note n)

def actAs (thread : Thread) : Activity Unit :=
  updateBridge fun b => { b with thread := thread }

/-- Lets the machine run, if it is still there. -/
def onMachine (run : Hosted Builtin Bridge → Option (α × Hosted Builtin Bridge)) :
    Activity (Option α) := fun s =>
  match s.machine with
  | none => some (none, s)
  | some vm =>
      (run ⟨vm, s.bridge⟩).map fun (a, m) =>
        (some a, { s with machine := some m.vm, bridge := m.host })

/-! ## Running code -/

/-- Runs a source as a unit of its own; nothing if there is no machine. -/
def runCode (budget : Nat) (source : String) : Activity (Option (Except ScriptError Value)) := do
  if (← get).isLive then
    note (.codeStarted source.utf8ByteSize)
  onMachine (runSource Builtin.run budget source)

/-- What comes of a call is told to the log, since nobody waits for it. -/
def noteInvocation (name : String) : Invocation → Activity Unit
  | .unknown => note (.targetMissing name)
  | .failed e => note (.callFailed name e)
  | .ignored | .completed => pure ()

/-- Calls a script function and gives up what it returns. -/
def invoke (budget : Nat) (name : String) (args : List String) : Activity Unit := do
  match ← onMachine (Machine.invoke Builtin.run budget name args) with
  | some outcome => noteInvocation name outcome
  | none => pure ()

/-! ## Foreign calls -/

/-- The native side calls a bound function. Whatever is missing makes the call come to nothing. -/
def foreignCall (budget : Nat) (binding : Option Binding) (id payload : Option String) :
    Activity Unit := do
  match binding with
  | none => note .callUnbound
  | some x =>
      if x.target = "" then
        pure ()
      else if !(← get).isLive then
        note (.callOrphaned x.target)
      else
        match id, payload with
        | some id, some payload => invoke budget x.target [id, payload]
        | _, _ => note (.callIncomplete x.target)

/-- A foreign call by name, which waits for its result from then on. -/
def callBinding (budget : Nat) (name id payload : String) :
    Activity (Except NativeError Unit) := do
  match (← get).bridge.native.boundTo? name with
  | none => return .error .notFound
  | some x =>
      updateBridge fun b => (b.expectResult id).beginCallback x
      foreignCall budget (some x) (some id) (some payload)
      updateBridge (Bridge.endCallback x)
      return .ok ()

/-! ## Events -/

/-- Calls an event handler with the payload, if any, as its only argument. -/
def onEvent (budget : Nat) (handler payload : Option String) : Activity Unit := do
  match handler with
  | none => pure ()
  | some function =>
      let s ← get
      if function = "" then
        pure ()
      else if !s.isLive then
        note (.eventOrphaned function)
      else if !s.bridge.window.isRunning then
        note (.eventOutsideLoop function)
      else
        invoke budget function payload.toList

/-- A handler that terminates the window keeps those after it from being called. -/
def handleAll (budget : Nat) : List (Option String × Option String) → Activity Unit
  | [] => pure ()
  | (handler, payload) :: rest => do
      onEvent budget handler payload
      handleAll budget rest

/-- Sends an event along its routes, with the handlers that are set when it is fired. -/
def fire (budget : Nat) (event : Event) : Activity Unit := do
  let handlers := (← get).bridge.window.handlers
  handleAll budget (event.routes.map fun (slot, payload) => (handlers.get slot, payload))

/-! ## Dispatch -/

/-- Puts a source into the queue, unless the machine is gone. -/
def dispatch (source : String) : Activity (Except HostError Unit) := do
  if (← get).isLive then
    onBridge (Request.schedule source)
  else
    return .error .vmUnavailable

/-- Runs a fragment that is in hand, and gives it up. -/
def runFragment (budget : Nat) (f : Fragment) : Activity Unit := do
  match ← runCode budget f.source with
  | none => note .fragmentOrphaned
  | some (.error e) => note (.fragmentFailed e)
  | some (.ok _) => pure ()
  updateBridge (Bridge.finishFragment f)

/-- Takes a fragment in hand, if there is one to take. -/
def takeUp (take : Bridge → Option (Fragment × Bridge)) : Activity (Option Fragment) :=
  onBridge fun b =>
    match take b with
    | none => (none, b)
    | some (f, b) => (some f, b)

/-- Runs the fragments of the queue, and those that they add to it; counts them. -/
def pump (budget : Nat) : Nat → Activity Nat
  | 0 => do
      match ← takeUp Bridge.takeQueued? with
      | none => return 0
      -- one more fragment is there than the budget allows for
      | some _ => unfinished
  | n + 1 => do
      match ← takeUp Bridge.takeQueued? with
      | none => return 0
      | some f =>
          runFragment budget f
          let count ← pump budget n
          return count + 1

/-- Runs a draft outside of any loop; tells whether there was one. -/
def runDraft (budget : Nat) (slot : String) : Activity Bool := do
  match ← takeUp (Bridge.takeDraft? slot) with
  | none => return false
  | some f =>
      runFragment budget f
      return true

/-! ## The event loop -/

/-- Closes the queue, runs what is left in it and leaves the loop. -/
def shutDown (budget : Nat) : Activity Unit := do
  updateBridge fun b => { b with native := b.native.update EventLoop.close }
  -- whatever was accepted before the close is still run
  let count ← pump budget budget
  if 0 < count then
    note (.loopDrained count)
  updateBridge fun b => { b with native := b.native.update EventLoop.leave }

/-- Serves the queue until it is empty. Tells whether the loop has been terminated and left; if it
has not, it waits for more. -/
def serve (budget : Nat) : Activity Bool := do
  let _ ← pump budget budget
  -- fragments may have terminated the loop themselves
  if (← get).bridge.native.isTerminated then
    shutDown budget
    return true
  else
    return false

/-- Serves on the calling thread. Nobody else can end the wait of a loop that is not terminated. -/
def serveToEnd (budget : Nat) : Activity Unit := do
  if ← serve budget then pure () else unfinished

/-- Runs the loop of the native side on the calling thread; false if it is taken. -/
def runLoop (budget : Nat) : Activity Bool := do
  if ← onBridge Bridge.takeLoop then
    serveToEnd budget
    return true
  else
    return false

/-- Runs the window on the calling thread; false if the loop under it is taken, and then the
window counts as running all the same. -/
def run (budget : Nat) : Activity Bool := do
  if ← onBridge Bridge.startWindow then
    serveToEnd budget
    updateBridge Bridge.stopWindow
    return true
  else
    return false

/-! ## The owner thread -/

/-- Does something as the owner thread. -/
def asOwner (x : Activity α) : Activity α := do
  actAs .owner
  let a ← x
  actAs .caller
  return a

/-- A thread that was created for the window has its first turn. False if it has found the loop
taken, or none at all, and has ended at once. -/
def wake : Activity Bool := do
  let started ← asOwner (onBridge Bridge.wakeThread)
  if started then
    modify fun s => { s with spawned := true }
  return started

/-- Starts the window on a new thread, which has its first turn before anything else is done. -/
def spawn : Activity Bool := do
  updateBridge (Bridge.spawnThread true)
  wake

/-- The owner thread has its turn, if there is one. Tells whether it has ended. -/
def settle (budget : Nat) : Activity Bool := do
  if (← get).spawned then
    let ended ← asOwner (serve budget)
    if ended then
      asOwner (updateBridge Bridge.stopWindow)
      modify fun s => { s with spawned := false }
    return ended
  else
    return false

end Session

end Host
end ScriptHost
