import ScriptHost.Command.Arguments
import ScriptHost.Command.Failure
import ScriptHost.Host.Session
import ScriptHost.Host.Settings

/-!
# Commands at work

What a command does with the files that it is given: it sets up a session with the script
interface, drives it, and prints what it was asked to print if nothing has failed by then.
-/

namespace ScriptHost
namespace Command

open Host Machine

/-- What the caller of a program sees of it. -/
structure Outcome where
  code : Nat
  output : String
  complaint : String
  deriving DecidableEq, Repr

namespace Outcome

def success (output : String) : Outcome :=
  ⟨0, output, ""⟩

def failure (f : Failure) : Outcome :=
  ⟨1, "", report f.messages⟩

def misuse : Outcome :=
  ⟨2, "", ""⟩

/-- The end of a program that asks for what the system cannot give. -/
def abort : Outcome :=
  ⟨101, "", ""⟩

end Outcome

/-! ## Sessions -/

def newSession (settings : Settings) : Session where
  machine := some (withApi (Vm.new settings.limits))
  bridge := { native := .headless (EventLoop.new settings.queueCapacity) }

def loadSettings (files : Files) : Option String → Except Failure Settings
  | none => .ok {}
  | some path =>
      match files path with
      | .error fault => .error (.configUnreadable path fault)
      | .ok text =>
          match Settings.ofText? text with
          | some settings => .ok settings
          | none => .error (.configInvalid path)

/-! ## Evaluation -/

def printed (vm : Vm Builtin) (name : String) : String :=
  name ++ " = " ++ ((vm.global? name).getD .null).shown ++ "\n"

def printedAll (s : Session) (names : List String) : String :=
  match s.machine with
  | some vm => String.join (names.map (printed vm))
  | none => ""

/-- Runs a code, and then what it has dispatched, on one thread; prints globals. -/
def evaluate (budget : Nat) (code : String) (names : List String) :
    Activity (Except Failure String) := do
  match ← Session.runCode budget code with
  | some (.error e) => return .error (.codeFailed e)
  | _ =>
      -- A loop that is told to end before it is run still runs what is queued.
      let _ ← Session.onBridge Request.terminate
      let _ ← Session.run budget
      return .ok (printedAll (← get) names)

/-! ## Script files -/

/-- A foreign call that is to be made. -/
structure Call where
  name : String
  id : String
  payload : String
  deriving DecidableEq, Repr

/-- A call is written as a name that is not empty, an id and a payload, with colons between. -/
def Call.ofText? (text : String) : Option Call := do
  let (name, rest) ← Text.splitAtFirst ':' text.toList
  let (id, payload) ← Text.splitAtFirst ':' rest
  if name.isEmpty then
    none
  else
    return ⟨String.ofList name, String.ofList id, String.ofList payload⟩

def readEvent (text : String) : Except Failure Event :=
  match Event.ofText? text with
  | some e => .ok e
  | none => .error (.eventUnknown text)

def readCall (text : String) : Except Failure Call :=
  match Call.ofText? text with
  | some c => .ok c
  | none => .error (.callMalformed text)

/-- Gives the owner thread its turn. -/
def yieldTurn (budget : Nat) : Activity Unit := do
  let _ ← Session.settle budget

def fireAll (budget : Nat) : List Event → Activity Unit
  | [] => pure ()
  | e :: rest => do
      Session.fire budget e
      yieldTurn budget
      fireAll budget rest

/-- Makes the calls in order, up to the first one of a name that is not bound. -/
def callAll (budget : Nat) : List Call → Activity (Except Failure Unit)
  | [] => return .ok ()
  | c :: rest => do
      match ← Session.callBinding budget c.name c.id c.payload with
      | .error e => return .error (.callFailed c.name e)
      | .ok () =>
          yieldTurn budget
          callAll budget rest

def drive (budget : Nat) (source : String) (events : List Event) (calls : List Call) :
    Activity (Except Failure Unit) := do
  match ← Session.runCode budget source with
  | some (.error e) => return .error (.scriptFailed e)
  | _ =>
      yieldTurn budget
      fireAll budget events
      callAll budget calls

def resultLine (c : Call) : Option CallResult → String
  | some r => c.id ++ ": " ++ toString r.status ++ " " ++ r.payload ++ "\n"
  | none => c.id ++ ": no result\n"

/-- The results of the calls, each of which is taken by the first call of its id. -/
def takeResults : List Call → Activity String
  | [] => return ""
  | c :: rest => do
      let r ← Session.onBridge (Bridge.takeResult c.id)
      let lines ← takeResults rest
      return resultLine c r ++ lines

/-- Runs a script while the window's loop runs on a thread of its own, which is ended before the
results are printed. -/
def runScript (budget : Nat) (source : String) (events : List Event) (calls : List Call) :
    Activity (Except Failure String) := do
  let _ ← Session.spawn
  let driven ← drive budget source events calls
  -- Done also when the script or a call has failed, since the thread is waited for.
  let _ ← Session.onBridge Request.terminate
  yieldTurn budget
  match driven with
  | .error f => return .error f
  | .ok () => return .ok (← takeResults calls)

/-! ## Commands -/

/-- The bytes that a queue sets aside for each fragment that it may come to hold. -/
def slotBytes : Nat :=
  40

def addressableBytes : Nat :=
  9223372036854775807

/-- The slots of a queue must fit into the memory that can be addressed. -/
def isQueueCapacity (capacity : Nat) : Bool :=
  slotBytes * capacity ≤ addressableBytes

def finish (settings : Settings) (activity : Activity (Except Failure String)) : Option Outcome :=
  if isQueueCapacity settings.queueCapacity then
    (activity (newSession settings)).map fun (r, _) =>
      match r with
      | .ok output => .success output
      | .error f => .failure f
  else
    some .abort

/-- Nothing is run before the script and all events and calls have been read. -/
def prepare (files : Files) (file : String) (events calls : List String) :
    Except Failure (String × List Event × List Call) := do
  let source ←
    match files file with
    | .ok source => .ok source
    | .error fault => .error (.fileUnreadable file fault)
  let events ← events.mapM readEvent
  let calls ← calls.mapM readCall
  return (source, events, calls)

/-- A thread cannot have a name with a null character in it. -/
def isThreadName (name : String) : Bool :=
  name.toList.all fun c => c ≠ '\x00'

def executeTask (budget : Nat) (files : Files) (settings : Settings) : Task → Option Outcome
  | .eval code names => finish settings (evaluate budget code names)
  | .run file events calls =>
      match prepare files file events calls with
      | .error f => some (.failure f)
      | .ok (source, events, calls) =>
          -- The thread is created only now, so a bad name is noticed after all else.
          if isThreadName settings.threadName then
            finish settings (runScript budget source events calls)
          else
            some .abort

def execute (budget : Nat) (files : Files) (j : Job) : Option Outcome :=
  match loadSettings files j.config with
  | .error f => some (.failure f)
  | .ok settings => executeTask budget files settings j.task

/-! ## The program -/

def programName : String :=
  "hostview"

def versionLine : String :=
  programName ++ " " ++ ApiFunction.versionText ++ "\n"

def helpText : String :=
  "Run hostview scripts against a headless webview runtime\n\n" ++
  "Usage: hostview [OPTIONS] <COMMAND>\n\n" ++
  "Commands:\n  run   Run a script file\n  eval  Evaluate inline code\n"

/-- Gives nothing if the budget is used up before the program is over. -/
def program (budget : Nat) (files : Files) (args : List String) : Option Outcome :=
  match read args with
  | .misuse => some .misuse
  | .version => some (.success versionLine)
  | .help => some (.success helpText)
  | .job j => execute budget files j

/-- The files that the program may read. -/
def filesOf (args : List String) : List String :=
  match read args with
  | .job ⟨config, .run file _ _⟩ => config.toList ++ [file]
  | .job ⟨config, .eval _ _⟩ => config.toList
  | _ => []

end Command
end ScriptHost
