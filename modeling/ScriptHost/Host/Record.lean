import ScriptHost.Script.Syntax
import ScriptHost.Text.Flag

/-!
# Records and their ledger

Two kinds of records pass between a window and the system under it: bindings, which say what
script function a foreign name stands for, and fragments, which are pieces of source to be run
later. A ledger counts how many of each were created and dropped.
-/

namespace ScriptHost
namespace Host

/-! ## Records -/

/-- A binding may be held in several places at once; its number tells it from all others. -/
structure Binding where
  id : Nat
  target : String
  deriving DecidableEq, Repr

/-- A piece of source that waits to be run by the thread that owns the loop. -/
structure Fragment where
  source : String
  deriving DecidableEq, Repr

def ownerText (live : Bool) : String :=
  "WeakVm \x7b live: " ++ Text.flag live ++ " \x7d"

def Binding.shown (b : Binding) (live : Bool) : String :=
  "BindingRecord \x7b owner: " ++ ownerText live ++ ", target_name: " ++ Text.quoted b.target ++
    " \x7d"

def Fragment.shown (f : Fragment) (live : Bool) : String :=
  "DispatchRecord \x7b owner: " ++ ownerText live ++ ", source_code: " ++ Text.quoted f.source ++
    " \x7d"

/-! ## The ledger -/

/-- How many records of each kind have been made and how many dropped, since the beginning. -/
structure Ledger where
  bindingsCreated : Nat := 0
  bindingsDropped : Nat := 0
  dispatchesCreated : Nat := 0
  dispatchesDropped : Nat := 0
  deriving DecidableEq, Repr

namespace Ledger

/-- Growth of the counters since an earlier reading. -/
def since (now earlier : Ledger) : Ledger where
  bindingsCreated := now.bindingsCreated - earlier.bindingsCreated
  bindingsDropped := now.bindingsDropped - earlier.bindingsDropped
  dispatchesCreated := now.dispatchesCreated - earlier.dispatchesCreated
  dispatchesDropped := now.dispatchesDropped - earlier.dispatchesDropped

/-- Records that have been made and not dropped. -/
def liveBindings (l : Ledger) : Nat :=
  l.bindingsCreated - l.bindingsDropped

def liveDispatches (l : Ledger) : Nat :=
  l.dispatchesCreated - l.dispatchesDropped

end Ledger

end Host
end ScriptHost
