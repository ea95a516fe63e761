import ScriptHost.Host.Bridge

/-!
# Requests to a window

The operations of a window that leave the machine alone, so that a running script may use them
too. Each one asks the native side first and changes the window only if that agrees.
-/

namespace ScriptHost
namespace Host

/-- What is asked of a window, by the host or by a script. -/
abbrev Request (α : Type) :=
  Attempt HostError Bridge α

namespace Request

variable {α : Type}

/-- A request to the native side as one to the window. -/
def ofNative (x : Attempt NativeError Bridge α) : Request α := fun b =>
  match x b with
  | (.ok a, b) => (.ok a, b)
  | (.error e, b) => (.error (.native e), b)

def note (n : Notice) : Request Unit :=
  Attempt.modify (Bridge.note n)

/-! ## Bindings -/

/-- Makes a script function known to the native side under a foreign name. A binding that is
refused is given up at once. -/
def bind (name function : String) : Request Unit := fun b =>
  let (x, b) := b.newBinding function
  match Bridge.bindNative name x b with
  -- nothing else refers to it, so this drops it
  | (.error e, b) => (.error (.native e), b.release x)
  | (.ok (), b) => (.ok (), (b.note (.bound name x.target)).enroll name x)

/-- The registry gives up a name only after the native side has. -/
def unbind (name : String) : Request Unit := do
  ofNative (Bridge.unbindNative name)
  Attempt.modify (Bridge.strike name)
  note (.unbound name)

/-! ## Dispatch and results -/

/-- Queues a source to be run later by the thread that owns the event loop. -/
def schedule (source : String) : Request Unit := fun b =>
  let (f, b) := b.newFragment source
  match Bridge.postNative f b with
  | (.ok (), b) => (.ok (), b.note (.dispatched source.utf8ByteSize))
  | (.error e, b) =>
      -- nobody has taken the fragment, so it is dropped
      (.error (.native e), b.dropFragment.note (.dispatchRefused source.utf8ByteSize e))

/-- Delivers the result of a foreign call that is waited for. -/
def returnValue (id : String) (status : Int) (payload : String) : Request Unit :=
  ofNative (Bridge.resolveNative id ⟨status, payload⟩)

/-! ## Handlers -/

/-- The empty name removes a handler. -/
def setHandler (slot : HandlerSlot) (function : String) : Request Unit :=
  Attempt.modify fun b => { b with window.handlers := b.window.handlers.set slot function }

/-! ## The event loop -/

/-- Final: neither the window nor the loop under it leaves this phase again. -/
def terminate : Request Unit :=
  Attempt.modify fun b =>
    { b with window.phase := .terminated, native := b.native.terminate }

end Request

namespace Bridge

/-- Marks an idle window as running; tells whether it was idle. -/
def markWindow (b : Bridge) : Bool × Bridge :=
  (b.window.phase == .idle, { b with window.phase := b.window.phase.start })

/-- A window that counts as running is idle again. -/
def unmarkWindow (b : Bridge) : Bridge :=
  { b with window.phase := b.window.phase.stop }

/-- Takes over the loop of the native side; tells whether it was free. -/
def takeLoop (b : Bridge) : Bool × Bridge :=
  match b.native with
  | .refusing _ => (false, b)
  | .headless l =>
      match l.enter? with
      -- only a loop that is there and taken leaves a notice
      | none => (false, b.note .loopTaken)
      | some l => (true, { b with native := .headless l })

/-- How a run begins: it marks the window, and then asks for the loop of the native side. Tells
whether that was free; the mark stays in any case. -/
def startWindow (b : Bridge) : Bool × Bridge :=
  takeLoop (b.markWindow.2.note .loopStarted)

/-- A window that has been terminated stays so. -/
def stopWindow (b : Bridge) : Bridge :=
  b.unmarkWindow.note .loopStopped

/-! ### Threads for the window -/

/-- Marks the window and has a thread created that is to run it. If there can be none, the mark is
taken back, unless somebody else has set it. -/
def spawnThread (created : Bool) (b : Bridge) : Bridge :=
  let (marked, b) := b.markWindow
  if created then
    { b with waiting := b.waiting + 1 }
  else if marked then
    b.unmarkWindow
  else
    b

/-- A thread that was created for the window begins to run it, if there is one. Tells whether it has
the loop. -/
def wakeThread (b : Bridge) : Bool × Bridge :=
  match b.waiting with
  | 0 => (false, b)
  | n + 1 => startWindow { b with waiting := n }

end Bridge

end Host
end ScriptHost
