import ScriptHost.Proofs.Discipline

/-!
# Executions

An execution begins with the code of a unit or with a call, on a machine whose stacks may hold
anything, and goes on step by step as long as it has a frame above those that were there before.
If the script functions of the machine come from the compiler, every state of an execution has the
form that the module on stack discipline describes. What follows is said of every step and of
every run: no check of the machine fails, and the stacks are left as they were.
-/

namespace ScriptHost
namespace Machine

open Script

variable {ν σ : Type}

/-! ## Machines with compiled functions -/

/-- The script functions that a machine knows all come from the compiler. -/
def Vm.IsCompiled (vm : Vm ν) : Prop :=
  ∀ name f, vm.functions.get? name = some (.script f) → f.IsCompiled

namespace Vm.IsCompiled

variable {vm : Vm ν}

/-- A new machine has no functions at all. -/
theorem new (limits : Limits) : (Vm.new limits : Vm ν).IsCompiled := by
  intro name f hf
  cases hf

/-- One function more, if it is compiled. -/
theorem define (hvm : vm.IsCompiled) (name : String) {callee : Callable ν}
    (hcallee : ∀ f, callee = .script f → f.IsCompiled) : (vm.define name callee).IsCompiled := by
  intro key f hf
  rw [Vm.define, Store.Table.get?_insert] at hf
  split at hf
  · exact hcallee f (Option.some.inj hf)
  · exact hvm key f hf

/-- Native functions are not compiled, and need not be. -/
theorem registerNative (hvm : vm.IsCompiled) (name : String) (native : ν) :
    (vm.registerNative name native).IsCompiled := by
  apply hvm.define
  intro f hf
  cases hf

theorem defineFunctions {fs : List Function} (hvm : vm.IsCompiled)
    (hfs : ∀ f ∈ fs, f.IsCompiled) : (vm.defineFunctions fs).IsCompiled := by
  induction fs generalizing vm with
  | nil => exact hvm
  | cons f rest ih =>
      refine ih (hvm.define f.name ?_) fun g hg => hfs g (List.mem_cons_of_mem f hg)
      intro g hg
      cases hg
      exact hfs f List.mem_cons_self

/-- What is loaded has been compiled. -/
theorem load (hvm : vm.IsCompiled) (source : String) : (Vm.load source vm).2.IsCompiled := by
  unfold Vm.load
  cases hcompile : compile vm.limits.nestingDepth source with
  | error e => exact hvm
  | ok compiled =>
      exact hvm.defineFunctions fun f hf => ⟨_, source, compiled, hcompile, .inr hf⟩

end Vm.IsCompiled

/-- Compiled functions pass the check. -/
theorem Vm.IsCompiled.isVerified {m : Hosted ν σ} (hm : m.vm.IsCompiled) :
    m.setting.IsVerified := by
  rintro name c hc f rfl
  exact (hm name f hc).verified

/-! ## How an execution goes -/

/-- The ways in which an execution begins: with the top-level code of a source, with a call from
outside, or with any operands on top of a callee that has been resolved. -/
inductive Begins (natives : Natives ν σ) (m : Hosted ν σ) :
    Except ScriptError Unit → Hosted ν σ → Prop
  | source {source mark m'} : beginSource source m = (.ok mark, m') → Begins natives m (.ok ()) m'
  | refused {source e m'} : beginSource source m = (.error e, m') → Begins natives m (.error e) m'
  | invoke {name args vm r m'} : m.vm.loadFunction name = some vm →
      beginCall natives args { m with vm := vm } = (r, m') → Begins natives m r m'
  | call {name values vm r m'} : m.vm.loadFunction name = some vm →
      (pushAll values >>= fun _ => Step.call natives) { m with vm := vm } = (r, m') →
      Begins natives m r m'

/-- The machines that an execution begun at `m` goes through. -/
inductive Execution (natives : Natives ν σ) (m : Hosted ν σ) : Hosted ν σ → Prop
  | begun {m'} : Begins natives m (.ok ()) m' → Execution natives m m'
  | next {m' m''} : Execution natives m m' →
      m.vm.stack.frames.size < m'.vm.stack.frames.size → step natives m' = (.ok (), m'') →
      Execution natives m m''

/-! ## The form of an execution -/

/-- An execution on top of `o` goes on. -/
structure Ongoing (o : Stack ν) (m : Hosted ν σ) : Prop where
  verified : m.setting.IsVerified
  capacity : m.setting.capacity = o.capacity
  running : Running m.setting o m.vm.stack.slots m.vm.stack.setups m.vm.stack.frames

/-- An execution on top of `o` is over and has left its result. -/
def Finished (o : Stack ν) (m : Hosted ν σ) : Prop :=
  ∃ v, m.vm.stack = { o with slots := o.slots.push v }

section Form

variable {natives : Natives ν σ} {x : Setting ν} {o : Stack ν} {m m' : Hosted ν σ}

/-- An execution that goes on has a frame of its own. -/
theorem Ongoing.frames_lt (h : Ongoing o m) : o.frames.size < m.vm.stack.frames.size := by
  rcases h.running with ⟨f, ip, base, table, s, G, _, _, hactive, hframes⟩
  rcases hactive.waiting with ⟨V, hsuspended, _⟩
  rcases hsuspended.kept.2.1 with ⟨own, hown⟩
  rw [hframes, hown, Array.size_push, Array.size_append]
  omega

/-- With a frame above those from before, an execution is not over. -/
theorem ongoing_of_lt (h : Ongoing o m ∨ Finished o m)
    (hmore : o.frames.size < m.vm.stack.frames.size) : Ongoing o m := by
  rcases h with hongoing | ⟨v, hfinished⟩
  · exact hongoing
  · rw [hfinished] at hmore
    exact absurd hmore (Nat.lt_irrefl _)

/-- A step that succeeds goes on or is the last one. -/
theorem Outcome.ok (h : Outcome natives x o m (.ok (), m')) (hx : x.IsVerified)
    (hcapacity : x.capacity = o.capacity) : Ongoing o m' ∨ Finished o m' := by
  cases h with
  | goes hrunning => exact .inl ⟨hx, hcapacity, hrunning⟩
  | @returns v => exact .inr ⟨v, by rw [← hcapacity]; rfl⟩

/-- A step that fails leaves what was there before the execution. -/
theorem Outcome.error {e : ScriptError} (h : Outcome natives x o m (.error e, m'))
    (hcapacity : x.capacity = o.capacity) :
    Kept o m'.vm.stack ∧ m'.vm.stack.capacity = o.capacity ∧
      (e.IsOrdinary ∨ RaisedByNative natives m e m'.host) := by
  cases h with
  | fails hkept hcause => exact ⟨hkept, hcapacity, hcause⟩

/-- Every step of an execution has one of these outcomes. -/
theorem Ongoing.step_outcome (natives : Natives ν σ) (h : Ongoing o m) :
    Outcome natives m.setting o m (step natives m) :=
  Machine.step_outcome h.verified h.running

theorem Ongoing.step_ok (h : Ongoing o m) (hstep : step natives m = (.ok (), m')) :
    Ongoing o m' ∨ Finished o m' := by
  have houtcome := h.step_outcome natives
  rw [hstep] at houtcome
  exact houtcome.ok h.verified h.capacity

theorem Ongoing.step_error (h : Ongoing o m) {e : ScriptError}
    (hstep : step natives m = (.error e, m')) :
    Kept o m'.vm.stack ∧ m'.vm.stack.capacity = o.capacity ∧
      (e.IsOrdinary ∨ RaisedByNative natives m e m'.host) := by
  have houtcome := h.step_outcome natives
  rw [hstep] at houtcome
  exact houtcome.error h.capacity

theorem kept_self {capacity : Nat} : Kept o ⟨o.slots, o.setups, o.frames, capacity⟩ :=
  ⟨⟨#[], by simp⟩, ⟨#[], by simp⟩, ⟨#[], by simp⟩⟩

/-- A native function that is called from outside ends the execution at once. -/
theorem call_native_outcome {native : ν} {y : String} {args : Array Value}
    {F : Array Frame} {g : Store.Table Value} {k : Nat} {h : σ} (hF : F = o.frames) :
    Outcome natives x o
      (x.machine (o.slots ++ args) (o.setups.push ⟨y, .native native, o.slots.size⟩) F g k h)
      (Step.call natives
        (x.machine (o.slots ++ args) (o.setups.push ⟨y, .native native, o.slots.size⟩) F g k
          h)) := by
  subst hF
  rw [call_native, take_append_size]
  rcases hcall : natives native ((o.slots ++ args).drop o.slots.size).toList h with ⟨r, h'⟩
  cases r with
  | ok v =>
      by_cases room : o.slots.size < x.capacity
      · simp only [push_of_room room]
        exact .returns
      · simp only [push_of_full (Nat.not_lt.1 room)]
        exact .fails kept_self (.inl trivial)
  | error e => exact .fails kept_self (.inr ⟨_, native, Array.back?_push, rfl, hcall⟩)

/-- With any operands on top of a callee that has just been resolved, a call begins well. -/
theorem call_outcome (natives : Natives ν σ) (hm : m.vm.IsCompiled) {name : String} {vm : Vm ν}
    (hvm : m.vm.loadFunction name = some vm) (values : List Value) :
    ∃ m₁ : Hosted ν σ, m₁.host = m.host ∧
      Outcome natives m.setting m.vm.stack m₁
        ((pushAll values >>= fun _ => Step.call natives) { m with vm := vm }) := by
  rcases loadFunction_eq_some hvm with ⟨callee, hcallee, heq⟩
  rw [heq]
  -- either all operands fit, or some of them lie above the old ones when room runs out
  rcases pushAll_machine (x := m.setting) values m.vm.stack.slots with ⟨hok, hroom⟩ | ⟨own, hfull⟩
  · rw [Attempt.bind_of_ok hok]
    have hsize : (m.vm.stack.slots ++ values.toArray).size =
        m.vm.stack.slots.size + values.length := by
      simp
    have hpushed : (m.vm.stack.slots ++ values.toArray).size ≤ m.setting.capacity ∨
        (m.vm.stack.slots ++ values.toArray).size ≤ m.vm.stack.slots.size := by
      omega
    cases callee with
    | native native => exact ⟨_, machine_host .., call_native_outcome rfl⟩
    | script fn =>
        refine ⟨m, rfl, Suspended.origin.call_script_outcome ?_ ⟨_, rfl⟩ hpushed
          (hm.isVerified _ _ hcallee _ rfl)⟩
        exact hsize ▸ Nat.le_add_right _ _
  · rw [Attempt.bind_of_error hfull]
    refine ⟨m, rfl, .fails ⟨⟨own, rfl⟩, ⟨_, Array.push_eq_append⟩, ⟨#[], ?_⟩⟩ (.inl trivial)⟩
    exact Array.append_empty.symm

/-- The top-level code of a unit begins well. -/
theorem beginSource_ok {source : String} {mark : Mark} (hm : m.vm.IsCompiled)
    (h : beginSource source m = (.ok mark, m')) : mark = m.vm.mark ∧ Ongoing m.vm.stack m' := by
  rcases beginSource_eq_ok h with ⟨compiled, hcompile, _, rfl, rfl⟩
  have hmain : compiled.main.IsCompiled := ⟨_, source, compiled, hcompile, .inl rfl⟩
  rcases hmain.verified with ⟨table, htable⟩
  -- top-level code has no parameters and begins right above what was there
  have hnone : compiled.main.paramCount = 0 := by
    rcases compile_eq_ok hcompile with ⟨block, _, rfl⟩
    exact Function.paramCount_ofBody [] mainName block
  -- what the source declares comes from the compiler as well
  have hverified : (m.loaded compiled).setting.IsVerified := by
    refine Vm.IsCompiled.isVerified (m := m.loaded compiled) ?_
    exact hm.defineFunctions fun f hf => ⟨_, source, compiled, hcompile, .inr hf⟩
  have hactive : Active (m.loaded compiled).setting m.vm.stack compiled.main
      m.vm.stack.slots.size Shape.empty m.vm.stack.slots m.vm.stack.setups
      m.vm.stack.frames :=
    ⟨⟨_, .origin, .nil⟩, by rw [hnone]; rfl, ⟨#[], by simp⟩, .inr (Nat.le_refl _)⟩
  exact ⟨rfl, hverified, rfl, hactive.running htable htable.start⟩

/-- A source that does not begin leaves the stacks as they were. -/
theorem beginSource_error {source : String} {e : ScriptError}
    (h : beginSource source m = (.error e, m')) :
    m'.vm.stack = m.vm.stack ∧
      ((∃ fault, compile m.vm.limits.nestingDepth source = .error fault ∧ e = .compile fault ∧
        m' = m) ∨ e.IsOrdinary) := by
  rcases beginSource_eq_error h with ⟨fault, hcompile, rfl, rfl⟩ | ⟨_, _, rfl, rfl⟩
  · exact ⟨rfl, .inl ⟨fault, hcompile, rfl, rfl⟩⟩
  · exact ⟨rfl, .inr trivial⟩

/-! ## Every state of an execution -/

/-- An execution that has begun goes on or is over at once. -/
theorem Begins.ok (h : Begins natives m (.ok ()) m') (hm : m.vm.IsCompiled) :
    Ongoing m.vm.stack m' ∨ Finished m.vm.stack m' := by
  cases h with
  | source h => exact .inl (beginSource_ok hm h).2
  | invoke hvm h =>
      rcases call_outcome natives hm hvm _ with ⟨m₁, _, houtcome⟩
      rw [beginCall, pushTexts_eq_pushAll] at h
      exact (h ▸ houtcome).ok hm.isVerified rfl
  | call hvm h =>
      rcases call_outcome natives hm hvm _ with ⟨m₁, _, houtcome⟩
      exact (h ▸ houtcome).ok hm.isVerified rfl

/-- One that has not begun leaves what was there. -/
theorem Begins.error {e : ScriptError} (h : Begins natives m (.error e) m')
    (hm : m.vm.IsCompiled) :
    (Kept m.vm.stack m'.vm.stack ∧ m'.vm.stack.capacity = m.vm.stack.capacity) ∧
      (e.IsOrdinary ∨ (∃ fault, e = .compile fault) ∨
        ∃ m₁ : Hosted ν σ, m₁.host = m.host ∧ RaisedByNative natives m₁ e m'.host) := by
  have hcall {name : String} {vm : Vm ν} {values : List Value}
      (hvm : m.vm.loadFunction name = some vm)
      (h : (pushAll values >>= fun _ => Step.call natives) { m with vm := vm } =
        (.error e, m')) :
      (Kept m.vm.stack m'.vm.stack ∧ m'.vm.stack.capacity = m.vm.stack.capacity) ∧
        (e.IsOrdinary ∨ (∃ fault, e = .compile fault) ∨
          ∃ m₁ : Hosted ν σ, m₁.host = m.host ∧ RaisedByNative natives m₁ e m'.host) := by
    rcases call_outcome natives hm hvm values with ⟨m₁, hhost, houtcome⟩
    rcases (h ▸ houtcome).error rfl with ⟨hkept, hcapacity, hcause⟩
    exact ⟨⟨hkept, hcapacity⟩, hcause.imp_right fun hraised => .inr ⟨m₁, hhost, hraised⟩⟩
  cases h with
  | refused h =>
      rcases beginSource_error h with ⟨hstack, hcause⟩
      refine ⟨⟨hstack ▸ kept_self, by rw [hstack]⟩, ?_⟩
      rcases hcause with ⟨fault, _, hfault, _⟩ | hordinary
      · exact .inr (.inl ⟨fault, hfault⟩)
      · exact .inl hordinary
  | invoke hvm h =>
      rw [beginCall, pushTexts_eq_pushAll] at h
      exact hcall hvm h
  | call hvm h => exact hcall hvm h

/-- By induction over the steps. -/
theorem Execution.form (h : Execution natives m m') (hm : m.vm.IsCompiled) :
    Ongoing m.vm.stack m' ∨ Finished m.vm.stack m' := by
  induction h with
  | begun hbegins => exact hbegins.ok hm
  | next _ hmore hstep ih => exact (ongoing_of_lt ih hmore).step_ok hstep

/-- As long as there is a frame of its own the execution goes on. -/
theorem Execution.ongoing (h : Execution natives m m') (hm : m.vm.IsCompiled)
    (hmore : m.vm.stack.frames.size < m'.vm.stack.frames.size) : Ongoing m.vm.stack m' :=
  ongoing_of_lt (h.form hm) hmore

/-- How a run ends that started anywhere in an execution. -/
theorem Execution.run_ends {budget : Nat} {r : Except ScriptError Unit} {m'' : Hosted ν σ}
    (h : Execution natives m m') (hm : m.vm.IsCompiled)
    (hrun : runUntil natives m.vm.stack.frames.size budget m' = some (r, m'')) :
    (r = .ok () ∧ Finished m.vm.stack m'') ∨
    ∃ e, r = .error e ∧ Kept m.vm.stack m''.vm.stack ∧
      m''.vm.stack.capacity = m.vm.stack.capacity ∧
      (e.IsOrdinary ∨
        ∃ m₁, Execution natives m m₁ ∧ RaisedByNative natives m₁ e m''.host) := by
  have hends := runUntil_ends (P := Execution natives m)
    (fun m₁ m₂ hm₁ hmore hstep => hm₁.next hmore hstep) h hrun
  rcases hends with ⟨hr, hend, hless⟩ | ⟨e, m₁, hr, hexecution, hmore, hstep⟩
  · rcases hend.form hm with hongoing | hfinished
    · exact absurd hless (Nat.not_le.2 hongoing.frames_lt)
    · exact .inl ⟨hr, hfinished⟩
  · rcases (hexecution.ongoing hm hmore).step_error hstep with ⟨hkept, hcapacity, hcause⟩
    exact .inr ⟨e, hr, hkept, hcapacity, hcause.imp_right fun hraised =>
      ⟨m₁, hexecution, hraised⟩⟩

end Form

/-! ## No check of the machine fails -/

/-- On a machine with compiled functions, whatever its stacks hold, no execution runs into a check
of the machine: neither where it begins nor at any step does an internal error arise that a native
function has not raised itself. A return always succeeds, and a call finds exactly the number of
operands that the instruction tells above the base of the setup that it completes. -/
theorem execution_passes_every_check (natives : Natives ν σ) {m : Hosted ν σ}
    (hm : m.vm.IsCompiled) :
    (∀ e m', Begins natives m (.error e) m' → e.IsInternal →
      ∃ native args, natives native args m.host = (.error e, m'.host)) ∧
    ∀ m', Execution natives m m' → m.vm.stack.frames.size < m'.vm.stack.frames.size →
      (∀ e m'', step natives m' = (.error e, m'') → e.IsInternal →
        RaisedByNative natives m' e m''.host) ∧
      (m'.instruction? = some .ret → (step natives m').1 = .ok ()) ∧
      ∀ n, m'.instruction? = some (.call n) →
        ∃ setup, m'.vm.stack.setups.back? = some setup ∧
          m'.vm.stack.slots.size = setup.base + n := by
  constructor
  · -- Before the first step only a native that is called directly can fail so.
    intro e m' hbegins hinternal
    rcases hbegins.error hm with
      ⟨_, hordinary | ⟨fault, rfl⟩ | ⟨m₁, hhost, setup, native, _, _, hcall⟩⟩
    · exact absurd hinternal hordinary.not_isInternal
    · exact hinternal.elim
    · exact ⟨native, _, hhost ▸ hcall⟩
  · intro m' hexecution hmore
    have hongoing := hexecution.ongoing hm hmore
    refine ⟨?_, ?_, ?_⟩
    · intro e m'' hstep hinternal
      rcases (hongoing.step_error hstep).2.2 with hordinary | hraised
      · exact absurd hinternal hordinary.not_isInternal
      · exact hraised
    · intro hret
      exact step_ret hongoing.running hret
    · intro n hcall
      exact call_count hongoing.running hcall

theorem exists_of_isOk {ε α β : Type} {r : Except ε α × β} (h : r.1.isOk = true) :
    ∃ a, r = (.ok a, r.2) := by
  rcases r with ⟨_ | a, _⟩
  · cases h
  · exact ⟨a, rfl⟩

/-- A machine that is about to call a native function, with one argument on the stack. -/
theorem native_call_passes_every_check :
    ∃ m m' : Hosted Unit Unit, m.vm.IsCompiled ∧ Execution (fun _ _ => pure .null) m m' ∧
      m.vm.stack.frames.size < m'.vm.stack.frames.size ∧
      m'.instruction? = some (.call 1) ∧
      ∃ setup, m'.vm.stack.setups.back? = some setup ∧
        m'.vm.stack.slots.size = setup.base + 1 := by
  let natives : Natives Unit Unit := fun _ _ => pure .null
  let m : Hosted Unit Unit := ⟨(Vm.new {}).registerNative "f" (), ()⟩
  let m₁ := (beginSource "f(null)" m).2
  let m₂ := (step natives m₁).2
  let m' := (step natives m₂).2
  have hm : m.vm.IsCompiled := (Vm.IsCompiled.new {}).registerNative "f" ()
  obtain ⟨mark, hbegin⟩ : ∃ mark, beginSource "f(null)" m = (.ok mark, m₁) :=
    exists_of_isOk (by decide +kernel)
  obtain ⟨_, hfirst⟩ : ∃ u, step natives m₁ = (.ok u, m₂) := exists_of_isOk (by decide +kernel)
  obtain ⟨_, hsecond⟩ : ∃ u, step natives m₂ = (.ok u, m') := exists_of_isOk (by decide +kernel)
  have hexecution : Execution natives m m' :=
    ((Execution.begun (.source hbegin)).next (by decide +kernel) hfirst).next (by decide +kernel)
      hsecond
  have hmore : m.vm.stack.frames.size < m'.vm.stack.frames.size := by decide +kernel
  have hcall : m'.instruction? = some (.call 1) := by decide +kernel
  exact ⟨m, m', hm, hexecution, hmore, hcall,
    ((execution_passes_every_check natives hm).2 m' hexecution hmore).2.2 1 hcall⟩

/-! ## The stacks are left as they were -/

section Restoring

variable {natives : Natives ν σ} {o s : Stack ν} {m m' : Hosted ν σ} {budget : Nat}

/-- Cutting back to a mark gives the very stacks back of which everything is still there. -/
theorem Kept.restore (h : Kept o s) (hcapacity : s.capacity = o.capacity) :
    s.restore o.mark = o := by
  rcases h with ⟨⟨slots, hslots⟩, ⟨setups, hsetups⟩, ⟨frames, hframes⟩⟩
  unfold Stack.restore
  rw [hslots, hsetups, hframes, hcapacity]
  -- the mark cuts off exactly what came on top
  simp only [Stack.mark, take_append_size]

/-- An execution that is over has left one value. -/
theorem Finished.kept (h : Finished o m) :
    Kept o m.vm.stack ∧ m.vm.stack.capacity = o.capacity := by
  rcases h with ⟨v, hv⟩
  rw [hv]
  exact ⟨⟨⟨#[v], Array.push_eq_append⟩, ⟨#[], by simp⟩, ⟨#[], by simp⟩⟩, rfl⟩

/-- When that is taken the stacks are what they were. -/
theorem Finished.pop (h : Finished o m) :
    ∃ v, Step.pop m = (.ok v, { m with vm.stack := o }) := by
  rcases h with ⟨v, hv⟩
  refine ⟨v, ?_⟩
  simp [Step.pop, Exec.onStack, Stack.pop, hv]

/-- A call keeps what was below it, however it ends. -/
theorem completeCall_kept {name : String} {args : List String} {vm : Vm ν}
    {r : Except ScriptError Unit} (hm : m.vm.IsCompiled)
    (hvm : m.vm.loadFunction name = some vm)
    (h : completeCall natives budget m.vm.mark.frames args { m with vm := vm } = some (r, m')) :
    Kept m.vm.stack m'.vm.stack ∧ m'.vm.stack.capacity = m.vm.stack.capacity := by
  unfold completeCall at h
  rcases hbegin : beginCall natives args { m with vm := vm } with ⟨e | _, m₁⟩
  · rw [hbegin] at h
    cases h
    exact ((Begins.invoke hvm hbegin).error hm).1
  · rw [hbegin] at h
    have hexecution : Execution natives m m₁ := .begun (.invoke hvm hbegin)
    rcases hexecution.run_ends hm h with ⟨_, hfinished⟩ | ⟨e, _, hkept, hcapacity, _⟩
    · exact hfinished.kept
    · exact ⟨hkept, hcapacity⟩

/-- Calls from outside restore the stacks. -/
theorem invoke_restores {name : String} {args : List String} {r : Invocation}
    (hm : m.vm.IsCompiled) (h : invoke natives budget name args m = some (r, m')) :
    m'.vm.stack = m.vm.stack := by
  rcases invoke_eq_some h with rfl | ⟨vm, r, m₁, hvm, hcomplete, rfl⟩
  · rfl
  · rcases completeCall_kept hm hvm hcomplete with ⟨hkept, hcapacity⟩
    exact hkept.restore hcapacity

/-- So do sources. An error of the compiler is the machine's own, or has been raised by a native
function. -/
theorem runSource_restores {source : String} {r : Except ScriptError Value}
    (hm : m.vm.IsCompiled) (h : runSource natives budget source m = some (r, m')) :
    m'.vm.stack = m.vm.stack ∧
      ∀ e, r = .error (.compile e) →
        m' = m ∨ ∃ m₁, Execution natives m m₁ ∧ RaisedByNative natives m₁ (.compile e) m'.host := by
  rcases runSource_eq_some h with ⟨e, hrefused, rfl⟩ | ⟨mark, m₁, r₂, m₂, hbegin, hrun, hends⟩
  · rcases beginSource_error hrefused with ⟨hstack, hcause⟩
    refine ⟨hstack, ?_⟩
    intro e he
    cases he
    rcases hcause with ⟨_, _, _, hsame⟩ | hordinary
    · exact .inl hsame
    · exact hordinary.elim
  · have hmark := (beginSource_ok hm hbegin).1
    subst hmark
    have hexecution : Execution natives m m₁ := .begun (.source hbegin)
    rcases hexecution.run_ends hm hrun with
      ⟨rfl, hfinished⟩ | ⟨e, rfl, hkept, hcapacity, hcause⟩
    · -- the result is taken off, and what is left is what was there
      rcases hfinished.pop with ⟨v, hpop⟩
      rcases hends with ⟨e, hfailed, _⟩ | ⟨_, m₃, htaken, rfl⟩
      · cases hfailed
      · rw [hpop] at htaken
        cases htaken
        exact ⟨kept_self.restore rfl, fun e he => by cases he⟩
    · rcases hends with ⟨e', hfailed, rfl, rfl⟩ | ⟨hdone, _⟩
      · cases hfailed
        refine ⟨hkept.restore hcapacity, ?_⟩
        intro e he
        cases he
        exact .inr (hcause.resolve_left id)
      · cases hdone

end Restoring

/-- On a machine with compiled functions, whatever its stacks hold, a unit that has run and a call
from outside that has ended leave operands, setups and frames exactly as they were, however they
end. A source that does not compile leaves the whole machine alone, and is what a compile error
tells of unless a native function has raised one. -/
theorem stacks_are_restored (natives : Natives ν σ) (budget : Nat) {m : Hosted ν σ}
    (hm : m.vm.IsCompiled) :
    (∀ source r m', runSource natives budget source m = some (r, m') →
      m'.vm.stack = m.vm.stack ∧
      ∀ e, r = .error (.compile e) →
        m' = m ∨
          ∃ m₁, Execution natives m m₁ ∧ RaisedByNative natives m₁ (.compile e) m'.host) ∧
    (∀ source e, compile m.vm.limits.nestingDepth source = .error e →
      runSource natives budget source m = some (.error (.compile e), m)) ∧
    ∀ name args r m', invoke natives budget name args m = some (r, m') →
      m'.vm.stack = m.vm.stack := by
  refine ⟨?_, ?_, ?_⟩
  · intro source r m' h
    exact runSource_restores hm h
  · intro source e h
    rw [runSource, beginSource_of_error h]
  · intro name args r m' h
    exact invoke_restores hm h

/-- A script error in the middle of a unit, above an operand and a frame that were there before. -/
theorem failed_unit_restores_stacks :
    ∃ (m : Hosted Unit Unit) (m' : Hosted Unit Unit) (r : Except ScriptError Value),
      m.vm.IsCompiled ∧ m.vm.stack.slots = #[.null] ∧ m.vm.stack.frames.size = 1 ∧
      runSource (fun _ _ => pure .null) 4 "f(null + null)" m = some (r, m') ∧ r.isOk = false ∧
      m'.vm.stack = m.vm.stack := by
  let suspended : Stack Unit := ⟨#[.null], #[], #[⟨Function.new "g" 1, 0, 0⟩], 8⟩
  let m : Hosted Unit Unit := ⟨{ (Vm.new {}).registerNative "f" () with stack := suspended }, ()⟩
  have hm : m.vm.IsCompiled := (Vm.IsCompiled.new {}).registerNative "f" ()
  -- the sum of two nulls fails with the callee still waiting
  have hends : ((runSource (fun _ _ => pure .null) 4 "f(null + null)" m).map
      fun ended => ended.1.isOk) = some false := by
    decide +kernel
  rcases Option.map_eq_some_iff.1 hends with ⟨⟨r, m'⟩, hrun, hr⟩
  exact ⟨m, m', r, hm, rfl, rfl, hrun, hr,
    ((stacks_are_restored _ 4 hm).1 "f(null + null)" r m' hrun).1⟩

end Machine
end ScriptHost
