import ScriptHost.Host.Event
import ScriptHost.Host.EventLoop
import ScriptHost.Host.Notice
import ScriptHost.Host.Recorder

/-!
# The bridge

All that lies between the machine and the window system: the window with its registry of bindings
and its event handlers, the native side, the records that callers keep for themselves, and the
ledger and the journal of what happens to them.

A binding lives as long as something refers to it: the registry, the table of the native side, a
caller, or a callback in progress. A fragment has one holder at a time: a caller, the queue, or
the thread that runs it.
-/

namespace ScriptHost
namespace Host

/-! ## The state -/

/-- A window counts as running by its own phase, whoever owns the loop under it. The registry tells
which bindings the window itself has made. -/
structure Window where
  phase : Phase := .idle
  registry : Store.Table Binding := .empty
  handlers : Handlers := {}

namespace Window

/-- Whether the loop under the window runs is not asked. -/
def isRunning (w : Window) : Bool :=
  w.phase == .running

def shown (w : Window) (live : Bool) : String :=
  "Window \x7b vm: " ++ ownerText live ++ ", bindings: " ++ toString w.registry.size ++
    ", running: " ++ Text.flag w.isRunning ++ " \x7d"

end Window

/-- Besides the window and the native side: `held` and `drafts` are the bindings and the fragments
that callers keep, under names of their own; `inProgress` are the bindings whose callbacks have
begun and not ended; `inHand` are the fragments that have been taken up to be run; `thread` is the
one that is at work; and `waiting` counts the threads that have been created to run the window and
have not begun. -/
structure Bridge where
  window : Window := {}
  native : Native
  ledger : Ledger := {}
  held : Store.Table Binding := .empty
  drafts : Store.Table Fragment := .empty
  inProgress : List Binding := []
  inHand : List Fragment := []
  thread : Thread := .caller
  waiting : Nat := 0
  journal : Journal := #[]
  calls : CallLog := #[]

namespace Bridge

/-- A notice bears the thread that is at work. -/
def note (n : Notice) (b : Bridge) : Bridge :=
  { b with journal := b.journal.push ⟨b.thread, n⟩ }

def count (f : Ledger → Ledger) (b : Bridge) : Bridge :=
  { b with ledger := f b.ledger }

/-! ## Bindings -/

/-- Every reference to a binding, place after place. -/
def references (b : Bridge) : List Binding :=
  b.window.registry.values ++ b.native.bindings ++ b.held.values ++ b.inProgress

def refersTo (b : Bridge) (x : Binding) : Bool :=
  b.references.any fun y => y.id == x.id

/-- A new binding for a function of that name, to which nothing refers yet. -/
def newBinding (function : String) (b : Bridge) : Binding × Bridge :=
  (⟨b.ledger.bindingsCreated, Script.normalizeName function⟩,
    b.count fun l => { l with bindingsCreated := l.bindingsCreated + 1 })

/-- Follows the removal of a reference: the binding is gone if that was the last one. -/
def release (x : Binding) (b : Bridge) : Bridge :=
  if b.refersTo x then b
  else b.count fun l => { l with bindingsDropped := l.bindingsDropped + 1 }

def releaseAny : Option Binding → Bridge → Bridge
  | none, b => b
  | some x, b => b.release x

/-! ### The native table -/

/-- A binding that is refused is given back to the caller. -/
def bindNative (name : String) (x : Binding) : Attempt NativeError Bridge Unit := fun b =>
  match b.native.bind name x with
  | .error e => (.error e, b)
  | .ok native => (.ok (), { b with native := native })

/-- Whoever holds the binding besides keeps it. -/
def unbindNative (name : String) : Attempt NativeError Bridge Unit := fun b =>
  match b.native.unbind name with
  | .error e => (.error e, b)
  -- what the name stood for is told by the table from before
  | .ok native => (.ok (), { b with native := native }.releaseAny (b.native.boundTo? name))

/-! ### The registry -/

def binding? (name : String) (b : Bridge) : Option Binding :=
  b.window.registry.get? name

/-- The registry holds the binding instead of what it has held under that name. -/
def enroll (name : String) (x : Binding) (b : Bridge) : Bridge :=
  { b with window.registry := b.window.registry.insert name x }.releaseAny (b.binding? name)

def strike (name : String) (b : Bridge) : Bridge :=
  { b with window.registry := b.window.registry.erase name }.releaseAny (b.binding? name)

/-! ### Bindings that callers keep -/

def hold (slot : String) (x : Binding) (b : Bridge) : Bridge :=
  { b with held := b.held.insert slot x }.releaseAny (b.held.get? slot)

/-- The caller gives up what it has held under that name. -/
def letGo (slot : String) (b : Bridge) : Bridge :=
  { b with held := b.held.erase slot }.releaseAny (b.held.get? slot)

def holdNew (slot function : String) (b : Bridge) : Binding × Bridge :=
  let (x, b) := b.newBinding function
  (x, b.hold slot x)

/-! ### Callbacks in progress -/

/-- A callback holds its binding, so that it outlives an unbind. -/
def beginCallback (x : Binding) (b : Bridge) : Bridge :=
  { b with inProgress := x :: b.inProgress }

def endCallback (x : Binding) (b : Bridge) : Bridge :=
  { b with inProgress := b.inProgress.erase x }.release x

/-! ## Fragments -/

def newFragment (source : String) (b : Bridge) : Fragment × Bridge :=
  (⟨source⟩, b.count fun l => { l with dispatchesCreated := l.dispatchesCreated + 1 })

/-- The only holder of a fragment gives it up. -/
def dropFragment (b : Bridge) : Bridge :=
  b.count fun l => { l with dispatchesDropped := l.dispatchesDropped + 1 }

def postNative (f : Fragment) : Attempt NativeError Bridge Unit := fun b =>
  match b.native.post f with
  | .error e => (.error e, b)
  | .ok native => (.ok (), { b with native := native })

/-! ### Fragments that are run -/

/-- Takes the oldest fragment of the queue in hand. -/
def takeQueued? (b : Bridge) : Option (Fragment × Bridge) :=
  match b.native with
  | .headless l =>
      -- the queue gives up its hold and the thread takes over, so the count is unchanged
      l.next?.map fun (f, l) => (f, { b with native := .headless l, inHand := f :: b.inHand })
  | .refusing _ => none

/-- Takes a draft in hand. -/
def takeDraft? (slot : String) (b : Bridge) : Option (Fragment × Bridge) :=
  (b.drafts.get? slot).map fun f =>
    (f, { b with drafts := b.drafts.erase slot, inHand := f :: b.inHand })

def finishFragment (f : Fragment) (b : Bridge) : Bridge :=
  { b with inHand := b.inHand.erase f }.dropFragment

/-! ### Fragments that callers keep -/

/-- A draft that is given up is dropped. -/
def discardDraft (slot : String) (b : Bridge) : Bridge :=
  if b.drafts.contains slot then { b with drafts := b.drafts.erase slot }.dropFragment else b

/-- A new draft takes the place of the old one. -/
def draft (slot source : String) (b : Bridge) : Bridge :=
  let (f, b) := b.newFragment source
  let b := b.discardDraft slot
  { b with drafts := b.drafts.insert slot f }

/-- Moves a draft to the queue. What the native side refuses stays with its caller. -/
def postDraft (slot : String) (f : Fragment) : Attempt NativeError Bridge Unit := do
  postNative f
  Attempt.modify fun b => { b with drafts := b.drafts.erase slot }

/-! ## Results of foreign calls -/

/-- A result that the host is given for a call. -/
def resolveNative (id : String) (result : CallResult) : Attempt NativeError Bridge Unit := fun b =>
  match b.native.resolve id result with
  | .error e => (.error e, b)
  | .ok native => (.ok (), { b with native := native })

def expectResult (id : String) (b : Bridge) : Bridge :=
  { b with native := b.native.update fun l => l.expectResult id }

def takeResult (id : String) (b : Bridge) : Option CallResult × Bridge :=
  match b.native with
  | .headless l =>
      let (r, l) := l.takeResult id
      (r, { b with native := .headless l })
  | .refusing _ => (none, b)

/-- Waits for a result while nobody else does anything. If it is not there, the next look for it is
the last one, at the deadline; and without a deadline there is no look at all. -/
def waitResult (clock : Clock) (timeout : Nat) (id : String) :
    Attempt ClockError Bridge (Option CallResult) := fun b =>
  match clock.deadline timeout with
  | .error e => (.error e, b)
  | .ok _ =>
      match b.takeResult id with
      | (some r, b) => (.ok (some r), b)
      | (none, b) =>
          let (r, b) := b.takeResult id
          (.ok r, b)

/-! ## The end -/

/-- The ledger after everything has been given up. -/
def finalLedger (b : Bridge) : Ledger :=
  let bindings := (b.references.map Binding.id).eraseDups.length
  let fragments := b.native.queue.length + b.drafts.size + b.inHand.length
  { b.ledger with
    bindingsDropped := b.ledger.bindingsDropped + bindings
    dispatchesDropped := b.ledger.dispatchesDropped + fragments }

end Bridge

end Host
end ScriptHost
