import ScriptHost.Host.NativeError
import ScriptHost.Host.Record
import ScriptHost.Store.Table

/-!
# The native side

What a window needs from the system under it: a table of foreign names, a queue of records for
the thread that owns the event loop, and a place where results of foreign calls are put down. The
headless loop provides it without a display; the refusing system fails every request with one
error, whatever is asked.
-/

namespace ScriptHost
namespace Host

/-- The last phase is final. -/
inductive Phase
  | idle
  | running
  | terminated
  deriving DecidableEq, Repr

namespace Phase

/-- Only what is idle begins to run. -/
def start : Phase → Phase
  | .idle => .running
  | p => p

/-- What has been terminated stays so. -/
def stop : Phase → Phase
  | .running => .idle
  | p => p

end Phase

/-- What the host is given for a foreign call. -/
structure CallResult where
  status : Int
  payload : String
  deriving DecidableEq, Repr

/-! ## Clocks -/

/-- What a clock shows when somebody begins to wait, and the last time that it can show. Times are
counted from some beginning. -/
structure Clock where
  now : Nat
  last : Nat

inductive ClockError
  | overflow
  deriving DecidableEq, Repr

/-- The time at which a wait is over that lasts so long. -/
def Clock.deadline (c : Clock) (timeout : Nat) : Except ClockError Nat :=
  if c.now + timeout ≤ c.last then .ok (c.now + timeout) else .error .overflow

/-! ## The headless loop -/

/-- A loop for records of any type. The queue holds the oldest record first. `owned` tells whether
some thread runs the loop; `closed` is set once that thread has left it. -/
structure EventLoop (ρ : Type) where
  phase : Phase
  queue : List ρ
  capacity : Nat
  closed : Bool
  owned : Bool
  bindings : Store.Table Binding
  pending : List String
  results : Store.Table CallResult

namespace EventLoop

variable {ρ : Type}

/-- A loop whose queue has room for one record at least. -/
def new (capacity : Nat) : EventLoop ρ where
  phase := .idle
  queue := []
  capacity := max capacity 1
  closed := false
  owned := false
  bindings := .empty
  pending := []
  results := .empty

/-- A loop may be told to end before it is run. -/
def isTerminated (l : EventLoop ρ) : Bool :=
  l.phase == .terminated

/-! ### Bindings -/

/-- A name has one binding at most, and the one that it has is not replaced. -/
def bind (l : EventLoop ρ) (name : String) (b : Binding) : Except NativeError (EventLoop ρ) :=
  if l.bindings.contains name then
    .error .duplicate
  else
    .ok { l with bindings := l.bindings.insert name b }

def unbind (l : EventLoop ρ) (name : String) : Except NativeError (EventLoop ρ) :=
  if l.bindings.contains name then
    .ok { l with bindings := l.bindings.erase name }
  else
    .error .notFound

/-! ### The queue -/

/-- Records are accepted until the loop is told to end. -/
def isOpen (l : EventLoop ρ) : Bool :=
  !l.closed && !l.isTerminated

/-- What does not fit into the queue is refused. -/
def send (l : EventLoop ρ) (r : ρ) : Except NativeError (EventLoop ρ) :=
  if l.capacity ≤ l.queue.length then
    .error .canceled
  else
    .ok { l with queue := l.queue ++ [r] }

/-- Accepts a record, or says why not. -/
def post (l : EventLoop ρ) (r : ρ) : Except NativeError (EventLoop ρ) :=
  if l.isOpen then l.send r else .error .invalidState

/-- The oldest record comes first. -/
def next? (l : EventLoop ρ) : Option (ρ × EventLoop ρ) :=
  match l.queue with
  | [] => none
  | r :: rest => some (r, { l with queue := rest })

/-- Some thread takes the loop over, if none has it. -/
def enter? (l : EventLoop ρ) : Option (EventLoop ρ) :=
  -- A loop that is terminated may still be taken over: its queue has to be worked off.
  if l.owned then none else some { l with owned := true, phase := l.phase.start }

def close (l : EventLoop ρ) : EventLoop ρ :=
  { l with closed := true }

/-- The next caller may run the loop. -/
def leave (l : EventLoop ρ) : EventLoop ρ :=
  { l with owned := false }

/-- The loop is to end as soon as its queue is empty. -/
def terminate (l : EventLoop ρ) : EventLoop ρ :=
  { l with phase := .terminated }

/-! ### Results of foreign calls -/

/-- An id waits for one result, however often it is called. -/
def expectResult (l : EventLoop ρ) (id : String) : EventLoop ρ :=
  { l with pending := if l.pending.contains id then l.pending else id :: l.pending }

/-- Only an id that waits gets a result, and it waits no more afterwards. -/
def resolve (l : EventLoop ρ) (id : String) (result : CallResult) :
    Except NativeError (EventLoop ρ) :=
  if l.pending.contains id then
    .ok { l with
      pending := l.pending.filter fun p => p != id
      -- A result that nobody has taken is replaced.
      results := l.results.insert id result }
  else
    .error .notFound

/-- Hands out the result of a call, once. -/
def takeResult (l : EventLoop ρ) (id : String) : Option CallResult × EventLoop ρ :=
  (l.results.get? id, { l with results := l.results.erase id })

end EventLoop

/-! ## Any native side -/

/-- A headless loop, or a native side that refuses whatever it is asked for. -/
inductive Native
  | headless (l : EventLoop Fragment)
  | refusing (e : NativeError)

namespace Native

def headless? : Native → Option (EventLoop Fragment)
  | .headless l => some l
  | .refusing _ => none

/-- A native side that refuses gives its error whatever the operation. -/
def attempt (n : Native)
    (op : EventLoop Fragment → Except NativeError (EventLoop Fragment)) :
    Except NativeError Native :=
  match n with
  | .headless l => (op l).map .headless
  | .refusing e => .error e

def bind (n : Native) (name : String) (b : Binding) : Except NativeError Native :=
  n.attempt fun l => l.bind name b

def unbind (n : Native) (name : String) : Except NativeError Native :=
  n.attempt fun l => l.unbind name

def post (n : Native) (f : Fragment) : Except NativeError Native :=
  n.attempt fun l => l.post f

def resolve (n : Native) (id : String) (result : CallResult) : Except NativeError Native :=
  n.attempt fun l => l.resolve id result

/-- An action of the headless loop; the refusing system ignores it. -/
def update (n : Native) (f : EventLoop Fragment → EventLoop Fragment) : Native :=
  match n with
  | .headless l => .headless (f l)
  | .refusing e => .refusing e

def terminate (n : Native) : Native :=
  n.update EventLoop.terminate

def boundTo? (n : Native) (name : String) : Option Binding :=
  n.headless?.bind fun l => l.bindings.get? name

/-- The bindings in the table of foreign names. -/
def bindings (n : Native) : List Binding :=
  match n.headless? with
  | some l => l.bindings.values
  | none => []

/-- The fragments that wait to be run, the oldest first. -/
def queue (n : Native) : List Fragment :=
  match n.headless? with
  | some l => l.queue
  | none => []

def isTerminated (n : Native) : Bool :=
  match n.headless? with
  | some l => l.isTerminated
  | none => false

def isOwned (n : Native) : Bool :=
  match n.headless? with
  | some l => l.owned
  | none => false

end Native

end Host
end ScriptHost
