import ScriptHost.Machine.Step

/-!
# Running

Loops over instructions. A script may loop for ever, so a run has a budget of instructions and
gives nothing when the budget is used up before the run is over.
-/

namespace ScriptHost
namespace Machine

open Script

variable {ν σ α : Type}

/-- The outcome of a run within a budget: nothing if it is not over by then. -/
abbrev Run (ν σ α : Type) :=
  Hosted ν σ → Option (Except ScriptError α × Hosted ν σ)

/-- Steps until no more than `depth` frames remain. -/
def runUntil (natives : Natives ν σ) (depth : Nat) : Nat → Run ν σ Unit
  | budget, m =>
      if m.vm.stack.frames.size ≤ depth then
        some (.ok (), m)
      else
        match budget with
        | 0 => none
        | budget + 1 =>
            match step natives m with
            | (.ok (), m) => runUntil natives depth budget m
            | (.error e, m) => some (.error e, m)

/-- Up to `n` steps, fewer if one of them fails. -/
def steps (natives : Natives ν σ) : Nat → Exec ν σ Unit
  | 0 => pure ()
  | n + 1 => do
      step natives
      steps natives n

/-- The mark of a machine, unless it has no room for another call. -/
def roomForCall : Exec ν σ Mark := fun m =>
  if m.vm.limits.callDepth ≤ m.vm.stack.frames.size then
    (.error (.callDepthExceeded m.vm.limits.callDepth), m)
  else
    (.ok m.vm.mark, m)

/-- Loads a source and pushes a frame for its top-level code; gives the mark from before. -/
def beginSource (source : String) : Exec ν σ Mark := do
  let main ← Exec.onVm (Vm.load source)
  -- the functions stay registered even if there is no room to run the unit
  let mark ← roomForCall
  Exec.onStack (Attempt.modify (Stack.pushFrame main mark.operands))
  return mark

/-- Cuts the machine back to a mark, whatever the outcome so far. -/
def restoring (mark : Mark) : Option (Except ScriptError α × Hosted ν σ) →
    Option (Except ScriptError α × Hosted ν σ)
  | none => none
  | some (r, m) => some (r, { m with vm := m.vm.restore mark })

/-- Goes on after a run that succeeded. -/
def followedBy (r : Option (Except ScriptError Unit × Hosted ν σ)) (next : Exec ν σ α) :
    Option (Except ScriptError α × Hosted ν σ) :=
  match r with
  | none => none
  | some (.error e, m) => some (.error e, m)
  | some (.ok (), m) => some (next m)

/-- Compiles a source and runs it as a unit of its own, which leaves the stacks as they were. -/
def runSource (natives : Natives ν σ) (budget : Nat) (source : String) : Run ν σ Value := fun m =>
  match beginSource source m with
  | (.error e, m) => some (.error e, m)
  | (.ok mark, m) =>
      restoring mark (followedBy (runUntil natives mark.frames budget m) Step.pop)

end Machine
end ScriptHost
