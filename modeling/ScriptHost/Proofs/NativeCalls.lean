import ScriptHost.Proofs.Stepping

/-!
# What becomes of the host

A machine touches its host only through the native functions that it calls. So whatever relates a
host to the one after a call, and is kept up from call to call, relates the host from before a run
to the one after it.
-/

namespace ScriptHost
namespace Machine

open Script

variable {ν σ α β : Type}

/-- A relation that goes along with any number of calls of native functions. -/
structure Natives.Path (natives : Natives ν σ) (R : σ → σ → Prop) : Prop where
  refl : ∀ h, R h h
  trans : ∀ {h₁ h₂ h₃}, R h₁ h₂ → R h₂ h₃ → R h₁ h₃
  call : ∀ native args h, R h (natives native args h).2

/-- The operation takes the host along the relation. -/
def Leads (R : σ → σ → Prop) (x : Exec ν σ α) : Prop :=
  ∀ m, R m.host (x m).2.host

section Leads

variable {natives : Natives ν σ} {R : σ → σ → Prop} (hR : natives.Path R)
include hR

/-- What leaves the host alone. -/
theorem leads_same {x : Exec ν σ α} (h : ∀ m, (x m).2.host = m.host) : Leads R x := by
  intro m
  rw [h m]
  exact hR.refl _

/-- One thing after the other. -/
theorem leads_bind {x : Exec ν σ α} {f : α → Exec ν σ β} (hx : Leads R x)
    (hf : ∀ a, Leads R (f a)) : Leads R (x >>= f) := by
  intro m
  have hfirst := hx m
  rw [Attempt.bind_apply]
  rcases h : x m with ⟨e | a, m₁⟩
  · rw [h] at hfirst
    exact hfirst
  · rw [h] at hfirst
    exact hR.trans hfirst (hf a m₁)

theorem leads_onStack (op : Attempt ScriptError (Stack ν) α) :
    Leads R (Exec.onStack op : Exec ν σ α) :=
  leads_same hR fun _ => rfl

/-- Only native functions touch the host. -/
theorem leads_call : Leads R (Step.call natives) := by
  refine leads_bind hR (leads_onStack hR _) fun setup => ?_
  cases setup.callee with
  | native native =>
      refine leads_bind hR (leads_onStack hR _) fun args => ?_
      -- the only place where the host is touched
      exact leads_bind hR (fun m => hR.call native args m.host) fun v => leads_onStack hR _
  | script f =>
      refine leads_bind hR (leads_same hR fun _ => rfl) fun m => ?_
      dsimp only
      split
      · exact leads_same hR fun _ => rfl
      · exact leads_bind hR (leads_onStack hR _) fun _ => leads_onStack hR _

theorem leads_execute (f : Function) (op : Opcode) : Leads R (Step.execute natives f op) := by
  -- Only `call` runs a native; every other opcode works on the machine and leaves the host alone.
  cases op with
  | const i => exact leads_bind hR (leads_same hR fun _ => rfl) fun v => leads_onStack hR _
  | loadGlobal i =>
      refine leads_bind hR (leads_same hR fun _ => rfl) fun y => ?_
      exact leads_bind hR (leads_same hR fun _ => rfl) fun m => leads_onStack hR _
  | storeGlobal i =>
      refine leads_bind hR (leads_same hR fun _ => rfl) fun y => ?_
      exact leads_bind hR (leads_onStack hR _) fun v => leads_same hR fun _ => rfl
  | loadLocal slot =>
      refine leads_bind hR (leads_same hR fun _ => rfl) fun m => ?_
      exact leads_bind hR (leads_same hR fun _ => rfl) fun v => leads_onStack hR _
  | storeLocal slot => exact leads_bind hR (leads_onStack hR _) fun v => leads_onStack hR _
  | binary op =>
      refine leads_bind hR (leads_onStack hR _) fun b => ?_
      refine leads_bind hR (leads_onStack hR _) fun a => ?_
      exact leads_bind hR (leads_same hR fun _ => rfl) fun v => leads_onStack hR _
  | prefixed op =>
      refine leads_bind hR (leads_onStack hR _) fun v => ?_
      exact leads_bind hR (leads_same hR fun _ => rfl) fun v => leads_onStack hR _
  | jump target => exact leads_onStack hR _
  | jumpIfFalse target =>
      refine leads_bind hR (leads_onStack hR _) fun v => ?_
      split
      · exact leads_same hR fun _ => rfl
      · exact leads_onStack hR _
  | loadFunc i =>
      refine leads_bind hR (leads_same hR fun _ => rfl) fun y => leads_same hR fun m => ?_
      unfold Step.loadFunc
      cases m.vm.loadFunction y <;> rfl
  | call argc => exact leads_call hR
  | pop => exact leads_bind hR (leads_onStack hR _) fun _ => leads_same hR fun _ => rfl
  | ret =>
      refine leads_bind hR (leads_onStack hR _) fun v => ?_
      exact leads_bind hR (leads_onStack hR _) fun _ => leads_onStack hR _

theorem leads_step : Leads R (step natives) := by
  refine leads_bind hR (leads_onStack hR _) fun (f, ip) => ?_
  dsimp only
  split
  · exact leads_same hR fun _ => rfl
  · exact leads_bind hR (leads_same hR fun _ => rfl) fun _ => leads_execute hR _ _

theorem leads_pushTexts (args : List String) : Leads R (pushTexts args : Exec ν σ Unit) := by
  induction args with
  | nil => exact leads_same hR fun _ => rfl
  | cons s rest ih => exact leads_bind hR (leads_onStack hR _) fun _ => ih

/-! ## Runs -/

variable {m m' : Hosted ν σ} {budget : Nat}

/-- By induction on the budget, so it is with every run. -/
theorem runUntil_leads {depth : Nat} {r : Except ScriptError Unit}
    (h : runUntil natives depth budget m = some (r, m')) : R m.host m'.host := by
  have hstep {m₁ m₂ : Hosted ν σ} {out : Except ScriptError Unit} (hm₁ : R m.host m₁.host)
      (h : step natives m₁ = (out, m₂)) : R m.host m₂.host := by
    have hleads := leads_step hR m₁
    rw [h] at hleads
    exact hR.trans hm₁ hleads
  have hends := runUntil_ends (P := fun m₁ => R m.host m₁.host)
    (fun m₁ m₂ hm₁ _ h => hstep hm₁ h) (hR.refl _) h
  rcases hends with ⟨_, hend, _⟩ | ⟨e, m₁, _, hm₁, _, hfails⟩
  · exact hend
  · exact hstep hm₁ hfails

theorem leads_beginSource (source : String) : Leads R (beginSource source : Exec ν σ Mark) := by
  refine leads_bind hR (leads_same hR fun _ => rfl) fun main => ?_
  refine leads_bind hR (leads_same hR fun m => ?_) fun mark => ?_
  · unfold roomForCall
    split <;> rfl
  · exact leads_bind hR (leads_onStack hR _) fun _ => leads_same hR fun _ => rfl

theorem runSource_leads {source : String} {r : Except ScriptError Value}
    (h : runSource natives budget source m = some (r, m')) : R m.host m'.host := by
  have hbegin := leads_beginSource hR source m
  rcases runSource_eq_some h with ⟨e, hrefused, _⟩ | ⟨mark, m₁, r₂, m₂, hbegun, hrun, hends⟩
  · rw [hrefused] at hbegin
    exact hbegin
  · rw [hbegun] at hbegin
    refine hR.trans hbegin (hR.trans (runUntil_leads hR hrun) ?_)
    rcases hends with ⟨e, _, _, rfl⟩ | ⟨_, m₃, hpop, rfl⟩
    · exact hR.refl _
    · have hhost : m₃.host = m₂.host := congrArg (fun ended => ended.2.host) hpop.symm
      rw [hhost]
      exact hR.refl _

/-- So it is with a call whose callee has been found. -/
theorem completeCall_leads {depth : Nat} {args : List String} {r : Except ScriptError Unit}
    (h : completeCall natives budget depth args m = some (r, m')) : R m.host m'.host := by
  have hbegin := leads_bind hR (leads_pushTexts hR args) (fun _ => leads_call hR) m
  unfold completeCall at h
  rcases hm : beginCall natives args m with ⟨e | _, m₁⟩
  · rw [hm] at h
    cases h
    exact congrArg (fun ended => R m.host ended.2.host) hm ▸ hbegin
  · rw [hm] at h
    have hfirst : R m.host m₁.host := congrArg (fun ended => R m.host ended.2.host) hm ▸ hbegin
    exact hR.trans hfirst (runUntil_leads hR h)

theorem invoke_leads {name : String} {args : List String} {outcome : Invocation}
    (h : invoke natives budget name args m = some (outcome, m')) : R m.host m'.host := by
  rcases invoke_eq_some h with rfl | ⟨vm, r, m₁, _, hcomplete, rfl⟩
  · exact hR.refl _
  · have hhost := completeCall_leads hR hcomplete
    exact hhost

end Leads

/-! ## Around a call -/

/-- What a call of a native function is given: the operands from `base` on. -/
def argumentsFrom (base : Nat) (m : Hosted ν σ) : List Value :=
  (m.vm.stack.slots.drop base).toList

/-- Of the machine only the stack takes part in a call of a native function. -/
theorem callNative_keeps (natives : Natives ν σ) (native : ν) (base : Nat) (m : Hosted ν σ) :
    (Step.callNative natives native base m).2.host =
        (natives native (argumentsFrom base m) m.host).2 ∧
      (Step.callNative natives native base m).2.vm.globals = m.vm.globals ∧
      (Step.callNative natives native base m).2.vm.functions = m.vm.functions := by
  have hcall : Step.callNative natives native base m =
      (Exec.onHost (natives native (argumentsFrom base m)) >>= Step.push)
        (Exec.onStack (Stack.splitOff base) m).2 :=
    rfl
  rw [hcall, Attempt.bind_apply]
  unfold Exec.onHost
  dsimp only
  rcases hnative : natives native (argumentsFrom base m)
    (Exec.onStack (Stack.splitOff base) m).2.host with ⟨e | v, host⟩
  all_goals
    have hhost : natives native (argumentsFrom base m) m.host = _ := hnative
    rw [hhost]
    exact ⟨rfl, rfl, rfl⟩

end Machine
end ScriptHost
