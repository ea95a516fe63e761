import ScriptHost.Machine.Run

/-!
# Calls from outside

Whoever embeds the machine may call one of its functions by name with strings for arguments. The
value that the function returns is given up, and the stacks are afterwards as they were before,
however the call ends.
-/

namespace ScriptHost
namespace Machine

open Script

variable {ν σ : Type}

/-- How a call from outside ends. An empty name calls nothing at all. -/
inductive Invocation
  | ignored
  | unknown
  | completed
  | failed (e : ScriptError)

def Invocation.ofResult : Except ScriptError Unit → Invocation
  | .ok () => .completed
  | .error e => .failed e

def pushTexts : List String → Exec ν σ Unit
  | [] => pure ()
  | s :: rest => do
      Step.push (.text s)
      pushTexts rest

/-- Opens a call setup for a function that has been found, and calls it with its arguments. -/
def beginCall (natives : Natives ν σ) (args : List String) : Exec ν σ Unit := do
  pushTexts args
  Step.call natives

/-- Calls a function whose setup is open and runs until it has returned. -/
def completeCall (natives : Natives ν σ) (budget : Nat) (depth : Nat) (args : List String) :
    Run ν σ Unit := fun m =>
  match beginCall natives args m with
  | (.error e, m) => some (.error e, m)
  | (.ok (), m) => runUntil natives depth budget m

/-- Calls the function of that name and waits for its end. -/
def invoke (natives : Natives ν σ) (budget : Nat) (name : String) (args : List String)
    (m : Hosted ν σ) : Option (Invocation × Hosted ν σ) :=
  if name = "" then
    some (.ignored, m)
  else
    match m.vm.loadFunction name with
    | none => some (.unknown, m)
    | some vm =>
        -- from before the setup was opened, so that going back closes it
        let mark := m.vm.mark
        (restoring mark (completeCall natives budget mark.frames args { m with vm := vm })).map
          fun (r, m) => (.ofResult r, m)

end Machine
end ScriptHost
