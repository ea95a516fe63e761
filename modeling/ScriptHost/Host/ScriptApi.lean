import ScriptHost.Host.Request
import ScriptHost.Number.Truncation

/-!
# The script interface of a window

The native functions through which a running script drives the window that it belongs to. Wrong
arguments raise an error in the script; everything else is answered by a number, which is zero for
success and otherwise the code of the failure.
-/

namespace ScriptHost
namespace Host

open Script Machine

/-! ## Functions -/

/-- The functions by what they ask for; `errorCode none` is the constant for success. -/
inductive ApiFunction
  | bind
  | unbind
  | dispatch
  | deliver
  | terminate
  | on (slot : HandlerSlot)
  | version
  | errorCode (e : Option NativeError)
  deriving DecidableEq, Repr

namespace ApiFunction

def all : List ApiFunction :=
  [.bind, .unbind, .dispatch, .deliver, .terminate] ++ HandlerSlot.all.map .on ++ [.version] ++
    [.errorCode none] ++ NativeError.all.map fun e => .errorCode (some e)

def name : ApiFunction → String
  | .bind => "webview_bind"
  | .unbind => "webview_unbind"
  | .dispatch => "webview_dispatch"
  | .deliver => "webview_return"
  | .terminate => "webview_terminate"
  | .on slot => "webview_on_" ++ slot.ident
  | .version => "webview_version"
  | .errorCode none => "get_webview_error_ok"
  | .errorCode (some e) => "get_webview_error_" ++ e.ident

def versionText : String :=
  "0.2.0"

/-! ## Arguments -/

/-- Positions are counted from one. -/
def wrongKind (f : ApiFunction) (position : Nat) (expected : Kind) (v : Value) : ScriptError :=
  .type (.argument f.name position expected v.kind)

def wrongCount (f : ApiFunction) (expected : Nat) (args : List Value) : ScriptError :=
  .type (.arity f.name expected args.length)

def textArg (f : ApiFunction) (position : Nat) : Value → Except ScriptError String
  | .text s => .ok s
  | v => .error (wrongKind f position .string v)

def numberArg (f : ApiFunction) (position : Nat) : Value → Except ScriptError Float
  | .number x => .ok x
  | v => .error (wrongKind f position .number v)

/-! ## Answers -/

/-- Codes are given to a script as numbers. -/
def codeValue (code : Int) : Value :=
  .number (Float.ofInt code)

/-- The number that tells a script how a request ended. -/
def outcomeCode : Except HostError Unit → Int
  | .ok () => NativeError.okCode
  | .error (.native e) => e.code
  -- for a script a missing machine is a wrong state
  | .error .vmUnavailable => NativeError.invalidState.code
  | .error _ => NativeError.unspecified.code

/-- Failures that have no code leave a trace in the journal. -/
def afterOutcome : Except HostError Unit → Bridge → Bridge
  | .error .outOfMemory, b => b.note (.requestFailed .outOfMemory)
  | .error (.script e), b => b.note (.requestFailed (.script e))
  | _, b => b

/-- A request on behalf of a script, which never fails but answers with a code. -/
def answered (x : Request Unit) : Attempt ScriptError Bridge Value := fun b =>
  let (r, b) := x b
  (.ok (codeValue (outcomeCode r)), afterOutcome r b)

/-! ## Calls -/

/-- What a call asks of the window, if its arguments are right. -/
inductive Action
  | request (x : Request Unit)
  | value (v : Value)

/-- Arguments are checked from the first one on, and only then is anything done. -/
def action (f : ApiFunction) (args : List Value) : Except ScriptError Action :=
  match f, args with
  | .bind, [a, b] => do
      let foreign ← textArg f 1 a
      let function ← textArg f 2 b
      return .request (Request.bind foreign function)
  | .bind, args => .error (wrongCount f 2 args)
  | .unbind, [a] => do return .request (Request.unbind (← textArg f 1 a))
  | .unbind, args => .error (wrongCount f 1 args)
  | .dispatch, [a] => do return .request (Request.schedule (← textArg f 1 a))
  | .dispatch, args => .error (wrongCount f 1 args)
  | .deliver, [a, b, c] => do
      let id ← textArg f 1 a
      let status ← numberArg f 2 b
      let payload ← textArg f 3 c
      return .request (Request.returnValue id (Number.toInt32 status) payload)
  | .deliver, args => .error (wrongCount f 3 args)
  | .terminate, [] => .ok (.request Request.terminate)
  | .terminate, args => .error (wrongCount f 0 args)
  | .on slot, [a] => do return .request (Request.setHandler slot (← textArg f 1 a))
  | .on _, args => .error (wrongCount f 1 args)
  | .version, [] => .ok (.value (.text versionText))
  | .version, args => .error (wrongCount f 0 args)
  -- the constants take any arguments and ignore them
  | .errorCode none, _ => .ok (.value (codeValue NativeError.okCode))
  | .errorCode (some e), _ => .ok (.value (codeValue e.code))

def run (f : ApiFunction) (args : List Value) : Attempt ScriptError Bridge Value :=
  match f.action args with
  | .error e => Attempt.fail e
  | .ok (.request x) => answered x
  | .ok (.value v) => Attempt.succeed v

end ApiFunction

/-! ## All native functions -/

/-- Two functions look at the event loop: `probe` describes it, `probeRun` tries to run it once
more. -/
inductive Builtin
  | recorder (r : Recorder)
  | probe
  | probeRun
  | api (f : ApiFunction)
  deriving DecidableEq, Repr

namespace Builtin

def probeText (w : Window) (l : EventLoop Fragment) : String :=
  "running=" ++ Text.flag w.isRunning ++ " terminated=" ++ Text.flag l.isTerminated ++
    " queued=" ++ toString l.queue.length ++ " owned=" ++ Text.flag l.owned

/-- What a script can see of the window and its loop. -/
def runProbe (b : Bridge) : Value :=
  match b.native with
  | .headless l => .text (probeText b.window l)
  | .refusing _ => .null

/-- A second run is tried only while the loop has an owner, so that it always returns at once. -/
def runAgain (b : Bridge) : Value × Bridge :=
  if b.native.isOwned then
    let (r, b) := b.startWindow
    (.bool r, b)
  else
    (.null, b)

def runRecorder (r : Recorder) (args : List Value) : Attempt ScriptError Bridge Value := fun b =>
  let (v, calls) := r.run args b.calls
  (v, { b with calls := calls })

def run (f : Builtin) (args : List Value) : Attempt ScriptError Bridge Value :=
  match f with
  | .recorder r => runRecorder r args
  | .probe => fun b => (.ok (runProbe b), b)
  | .probeRun => fun b =>
      let (v, b) := runAgain b
      (.ok v, b)
  | .api f => f.run args

end Builtin

def withProbes (vm : Vm Builtin) : Vm Builtin :=
  (vm.registerNative "probe" .probe).registerNative "probe_run" .probeRun

/-- The machine with the script interface of a window. -/
def withApi (vm : Vm Builtin) : Vm Builtin :=
  ApiFunction.all.foldl (fun vm f => vm.registerNative f.name (.api f)) vm

end Host
end ScriptHost
