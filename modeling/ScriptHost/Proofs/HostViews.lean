import ScriptHost.Proofs.NativeCalls

/-!
# Hosts that are seen in part

A host may keep more than the native functions need, such as a record of the calls that have been
made. As long as they do the same to the part that is in view, a machine runs in the larger host
exactly as it does in that part. So every run has a transcript of its calls.
-/

namespace ScriptHost
namespace Machine

open Script

variable {ν σ τ α β : Type}

/-- The machine with a part of its host in view. -/
def Hosted.view (π : τ → σ) (m : Hosted ν τ) : Hosted ν σ :=
  ⟨m.vm, π m.host⟩

/-- The end of a run with a part of the host in view. -/
def viewed (π : τ → σ) (ended : α × Hosted ν τ) : α × Hosted ν σ :=
  (ended.1, ended.2.view π)

/-- The second operation does to the part in view what the first one does. -/
def Shows (π : τ → σ) (x : Exec ν τ α) (y : Exec ν σ α) : Prop :=
  ∀ m, y (m.view π) = viewed π (x m)

/-- Native functions do to the whole what they do to the part. -/
def Natives.Shows (π : τ → σ) (full : Natives ν τ) (plain : Natives ν σ) : Prop :=
  ∀ native args h, plain native args (π h) = ((full native args h).1, π (full native args h).2)

section Shows

variable {π : τ → σ} {full : Natives ν τ} {plain : Natives ν σ}

/-- One step after the other. -/
theorem shows_bind {x : Exec ν τ α} {y : Exec ν σ α} {f : α → Exec ν τ β} {g : α → Exec ν σ β}
    (h : Shows π x y) (hfg : ∀ a, Shows π (f a) (g a)) : Shows π (x >>= f) (y >>= g) := by
  intro m
  rw [Attempt.bind_apply, Attempt.bind_apply, h m]
  rcases x m with ⟨e | a, m₁⟩
  · rfl
  · exact hfg a m₁

/-- The stack is the same on both sides. -/
theorem shows_onStack (op : Attempt ScriptError (Stack ν) α) :
    Shows π (Exec.onStack op) (Exec.onStack op) :=
  fun _ => rfl

theorem shows_ofExcept (r : Except ScriptError α) :
    Shows π (Attempt.ofExcept r : Exec ν τ α) (Attempt.ofExcept r) :=
  fun _ => rfl

/-- Looking at the machine shows nothing but the part in view. -/
theorem shows_get {f : Hosted ν τ → Exec ν τ β} {g : Hosted ν σ → Exec ν σ β}
    (hfg : ∀ m, Shows π (f m) (g (m.view π))) : Shows π (Attempt.get >>= f) (Attempt.get >>= g) :=
  fun m => hfg m m

theorem shows_callScript (f : Function) (base : Nat) :
    Shows π (Step.callScript f base : Exec ν τ Unit) (Step.callScript f base) := by
  refine shows_get fun m => ?_
  show Shows π (if m.vm.limits.callDepth ≤ m.vm.stack.frames.size then _ else _)
    (if m.vm.limits.callDepth ≤ m.vm.stack.frames.size then _ else _)
  split
  · exact fun _ => rfl
  · exact shows_bind (shows_onStack _) fun _ => shows_onStack _

theorem shows_loadFunc (name : String) :
    Shows π (Step.loadFunc name : Exec ν τ Unit) (Step.loadFunc name) := by
  intro m
  have hview : (m.view π).vm = m.vm := rfl
  unfold Step.loadFunc
  cases hload : m.vm.loadFunction name with
  | none =>
      simp only [hview, hload]
      rfl
  | some vm =>
      simp only [hview, hload]
      rfl

variable (h : full.Shows π plain)
include h

/-- It is native functions alone that see the host. -/
theorem shows_callNative (native : ν) (base : Nat) :
    Shows π (Step.callNative full native base) (Step.callNative plain native base) := by
  refine shows_bind (shows_onStack _) fun args => ?_
  refine shows_bind (fun m => ?_) fun v => shows_onStack _
  -- the only place where the host is touched
  have hcall : Exec.onHost (plain native args) (m.view π) =
      ((plain native args (π m.host)).1, ⟨m.vm, (plain native args (π m.host)).2⟩) := rfl
  rw [hcall, h native args m.host]
  rfl

theorem shows_call : Shows π (Step.call full) (Step.call plain) := by
  refine shows_bind (shows_onStack _) fun setup => ?_
  cases setup.callee with
  | native native => exact shows_callNative h native setup.base
  | script f => exact shows_callScript f setup.base

theorem shows_execute (f : Function) (op : Opcode) :
    Shows π (Step.execute full f op) (Step.execute plain f op) := by
  cases op with
  | const i => exact shows_bind (shows_ofExcept _) fun v => shows_onStack _
  | loadGlobal i =>
      refine shows_bind (shows_ofExcept _) fun y => ?_
      exact shows_get fun m => shows_onStack _
  | storeGlobal i =>
      refine shows_bind (shows_ofExcept _) fun y => ?_
      exact shows_bind (shows_onStack _) fun v _ => rfl
  | loadLocal slot =>
      refine shows_get fun m => ?_
      exact shows_bind (shows_ofExcept _) fun v => shows_onStack _
  | storeLocal slot => exact shows_bind (shows_onStack _) fun v => shows_onStack _
  | binary op =>
      refine shows_bind (shows_onStack _) fun b => ?_
      refine shows_bind (shows_onStack _) fun a => ?_
      exact shows_bind (shows_ofExcept _) fun v => shows_onStack _
  | prefixed op =>
      refine shows_bind (shows_onStack _) fun v => ?_
      exact shows_bind (shows_ofExcept _) fun v => shows_onStack _
  | jump target => exact fun _ => rfl
  | jumpIfFalse target =>
      refine shows_bind (shows_onStack _) fun v => ?_
      split
      · exact fun _ => rfl
      · exact shows_onStack _
  | loadFunc i => exact shows_bind (shows_ofExcept _) fun y => shows_loadFunc y
  | call argc => exact shows_call h
  | pop => exact shows_bind (shows_onStack _) fun _ _ => rfl
  | ret =>
      refine shows_bind (shows_onStack _) fun v => ?_
      exact shows_bind (shows_onStack _) fun _ => shows_onStack _

theorem shows_step : Shows π (step full) (step plain) := by
  refine shows_bind (shows_onStack _) fun (f, ip) => ?_
  dsimp only
  split
  · exact fun _ => rfl
  · exact shows_bind (fun _ => rfl) fun _ => shows_execute h _ _

/-! ## Runs -/

/-- By induction on the budget, so does every run. -/
theorem runUntil_viewed (depth budget : Nat) (m : Hosted ν τ) :
    runUntil plain depth budget (m.view π) = (runUntil full depth budget m).map (viewed π) := by
  induction budget generalizing m with
  | zero =>
      unfold runUntil
      show (if m.vm.stack.frames.size ≤ depth then _ else _) = _
      split <;> rfl
  | succ budget ih =>
      unfold runUntil
      show (if m.vm.stack.frames.size ≤ depth then _ else _) = _
      split
      · rfl
      · rw [shows_step h m]
        rcases step full m with ⟨e | _, m₁⟩
        · rfl
        · exact ih m₁

omit h in
theorem shows_beginSource (source : String) :
    Shows π (beginSource source : Exec ν τ Mark) (beginSource source) := by
  refine shows_bind (fun _ => rfl) fun main => ?_
  refine shows_bind (fun m => ?_) fun mark => shows_bind (shows_onStack _) fun _ _ => rfl
  show (if m.vm.limits.callDepth ≤ m.vm.stack.frames.size then _ else _) = _
  unfold roomForCall
  split <;> rfl

/-- A unit runs in a part of the host as it runs in the whole. -/
theorem runSource_viewed (budget : Nat) (source : String) (m : Hosted ν τ) :
    runSource plain budget source (m.view π) =
      (runSource full budget source m).map (viewed π) := by
  unfold runSource
  rw [shows_beginSource source m]
  rcases beginSource source m with ⟨e | mark, m₁⟩
  · rfl
  · show restoring mark (followedBy (runUntil plain mark.frames budget (m₁.view π)) Step.pop) =
      (restoring mark (followedBy (runUntil full mark.frames budget m₁) Step.pop)).map (viewed π)
    rw [runUntil_viewed h]
    rcases runUntil full mark.frames budget m₁ with _ | ⟨e | _, m₂⟩
    · rfl
    · rfl
    · rfl

end Shows

/-! ## Transcripts -/

/-- A call of a native function with what it was answered. -/
structure NativeCall (ν : Type) where
  function : ν
  args : List Value
  answer : Except ScriptError Value

/-- Native functions that write down their calls in order. -/
def transcribed (natives : Natives ν σ) : Natives ν (σ × List (NativeCall ν)) :=
  fun native args h =>
    let (r, host) := natives native args h.1
    (r, (host, h.2 ++ [⟨native, args, r⟩]))

/-- The machine at the beginning of a transcript. -/
def Hosted.unwritten (m : Hosted ν σ) : Hosted ν (σ × List (NativeCall ν)) :=
  ⟨m.vm, (m.host, [])⟩

/-- What a unit does is what is seen of it in its transcript. -/
theorem runSource_transcribed (natives : Natives ν σ) (budget : Nat) (source : String)
    (m : Hosted ν σ) :
    runSource natives budget source m =
      (runSource (transcribed natives) budget source m.unwritten).map (viewed Prod.fst) := by
  have hshows : (transcribed natives).Shows Prod.fst natives := fun _ _ _ => rfl
  exact runSource_viewed hshows budget source m.unwritten

end Machine
end ScriptHost
