import ScriptHost.Machine.Vm
import ScriptHost.Toml.Syntax

/-!
# Settings

The limits of the machine and the settings of the event loop, as a document may give them. What
the document leaves out has its default, and what is unknown is ignored.
-/

namespace ScriptHost
namespace Host

open Toml

/-- Limits and loop settings, each with its default. -/
structure Settings where
  limits : Machine.Limits := {}
  queueCapacity : Nat := 256
  threadName : String := "hostview-owner"
  deriving DecidableEq, Repr

namespace Settings

/-! ## Reading values -/

def natural? : Node → Option Nat
  | .integer n => if 0 ≤ n then some n.toNat else none
  | _ => none

def text? : Node → Option String
  | .text s => some s
  | _ => none

/-- The members of a group by name. A list gives them in their order; a date has members of its
own, which no group knows. -/
def members? (names : List String) : Node → Option Entries
  | .inline entries => some entries
  | .table _ entries => some entries
  -- The tables of an array are kept with the last one first.
  | .tables elements => some (names.zip (elements.reverse.map (Node.table .header)))
  | .list items => some (names.zip items)
  | .moment => some []
  | _ => none

/-- A member of the right kind, or the default if there is none. -/
def member? {α : Type} (entries : Entries) (name : String) (read : Node → Option α)
    (default : α) : Option α :=
  match entries.lookup name with
  | none => some default
  | some node => read node

/-! ## Groups -/

def limits? (node : Node) : Option Machine.Limits := do
  let d : Machine.Limits := {}
  let entries ← members? ["max_stack_size", "max_call_depth", "max_nesting_depth"] node
  let stackSize ← member? entries "max_stack_size" natural? d.stackSize
  let callDepth ← member? entries "max_call_depth" natural? d.callDepth
  let nestingDepth ← member? entries "max_nesting_depth" natural? d.nestingDepth
  return ⟨stackSize, callDepth, nestingDepth⟩

def loop? (node : Node) : Option (Nat × String) := do
  let d : Settings := {}
  let entries ← members? ["queue_capacity", "thread_name"] node
  let queueCapacity ← member? entries "queue_capacity" natural? d.queueCapacity
  let threadName ← member? entries "thread_name" text? d.threadName
  return (queueCapacity, threadName)

/-- The settings in a document; nothing if it is no document or a setting is of a wrong kind. -/
def ofText? (text : String) : Option Settings := do
  let d : Settings := {}
  let entries ← Toml.parse text
  let limits ← member? entries "vm" limits? d.limits
  let (queueCapacity, threadName) ←
    member? entries "runtime" loop? (d.queueCapacity, d.threadName)
  return ⟨limits, queueCapacity, threadName⟩

end Settings

end Host
end ScriptHost
