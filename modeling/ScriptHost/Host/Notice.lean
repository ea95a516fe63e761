import ScriptHost.Host.NativeError

/-!
# Notices

What the host tells its log, by cause. Each notice has a level, a fixed text and some named
details. A journal keeps the notices in order, each with the thread that raised it.
-/

namespace ScriptHost
namespace Host

/-! ## Levels -/

/-- How much a notice matters. -/
inductive Level
  | trace
  | debug
  | warn
  deriving DecidableEq, Repr

namespace Level

def severity : Level → Nat
  | .trace => 0
  | .debug => 1
  | .warn => 2

def name : Level → String
  | .trace => "TRACE"
  | .debug => "DEBUG"
  | .warn => "WARN"

/-- Whether a log that starts at level `least` shows this level. -/
def isShownFrom (level least : Level) : Bool :=
  least.severity ≤ level.severity

end Level

/-! ## Notices -/

/-- What the host tells its log, with what belongs to the cause. -/
inductive Notice
  | bound (name target : String)
  | unbound (name : String)
  | dispatched (bytes : Nat)
  | dispatchRefused (bytes : Nat) (e : NativeError)
  | codeStarted (bytes : Nat)
  | fragmentOrphaned
  | fragmentFailed (e : Script.ScriptError)
  | targetMissing (function : String)
  | callFailed (function : String) (e : Script.ScriptError)
  | callUnbound
  | callOrphaned (function : String)
  | callIncomplete (function : String)
  | eventOrphaned (handler : String)
  | eventOutsideLoop (handler : String)
  | loopStarted
  | loopStopped
  | loopTaken
  | loopDrained (count : Nat)
  | requestFailed (e : HostError)
  deriving DecidableEq

namespace Notice

def level : Notice → Level
  | .bound _ _ | .unbound _ | .dispatched _ | .dispatchRefused _ _ => .debug
  | .loopStarted | .loopStopped | .loopDrained _ | .requestFailed _ => .debug
  | .fragmentFailed _ | .callFailed _ _ | .loopTaken => .warn
  | .codeStarted _ | .fragmentOrphaned | .targetMissing _ => .trace
  | .callUnbound | .callOrphaned _ | .callIncomplete _ => .trace
  | .eventOrphaned _ | .eventOutsideLoop _ => .trace

def text : Notice → String
  | .bound _ _ => "bound"
  | .unbound _ => "unbound"
  | .dispatched _ => "fragment dispatched"
  | .dispatchRefused _ _ => "dispatch refused"
  | .codeStarted _ => "running code from thread"
  | .fragmentOrphaned => "dispatched fragment outlived its VM; dropped"
  | .fragmentFailed _ => "dispatched fragment failed"
  | .targetMissing _ => "bridge target not found; dropped"
  | .callFailed _ _ => "script error in bridge call; VM state restored"
  | .callUnbound => "foreign call without binding; dropped"
  | .callOrphaned _ => "foreign call after VM teardown; dropped"
  | .callIncomplete _ => "foreign call with missing arguments; dropped"
  | .eventOrphaned _ => "event after VM teardown; dropped"
  | .eventOutsideLoop _ => "event outside run loop; dropped"
  | .loopStarted => "event loop started"
  | .loopStopped => "event loop stopped"
  | .loopTaken => "event loop is already running"
  | .loopDrained _ => "ran fragments accepted during shutdown"
  | .requestFailed _ => "webview call failed"

/-- The details, each under its name. -/
def details : Notice → List (String × String)
  | .bound name target => [("js_name", name), ("function", target)]
  | .unbound name => [("js_name", name)]
  | .dispatched bytes => [("bytes", toString bytes)]
  | .dispatchRefused bytes e => [("bytes", toString bytes), ("error", e.message)]
  | .codeStarted bytes => [("bytes", toString bytes)]
  | .fragmentFailed e => [("error", e.message)]
  | .targetMissing function => [("function", function)]
  | .callFailed function e => [("function", function), ("error", e.message)]
  | .callOrphaned function => [("function", function)]
  | .callIncomplete function => [("function", function)]
  | .eventOrphaned handler => [("handler", handler)]
  | .eventOutsideLoop handler => [("handler", handler)]
  | .loopDrained count => [("drained", toString count)]
  | .requestFailed e => [("error", e.message)]
  | .fragmentOrphaned | .callUnbound | .loopStarted | .loopStopped | .loopTaken => []

end Notice

/-! ## The journal -/

/-- The two kinds of threads that touch a window: those that call its operations, and the one
that its event loop runs on. -/
inductive Thread
  | caller
  | owner
  deriving DecidableEq, Repr

/-- A notice with the thread that has given it. -/
structure Entry where
  thread : Thread
  notice : Notice
  deriving DecidableEq

/-- Oldest entry first. -/
abbrev Journal := Array Entry

/-- What one thread has raised at a level or above. -/
def Journal.shown (j : Journal) (thread : Thread) (least : Level) : List Notice :=
  j.toList.filterMap fun e =>
    if e.thread = thread && e.notice.level.isShownFrom least then some e.notice else none

end Host
end ScriptHost
