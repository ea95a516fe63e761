import ScriptHost.Proofs.FrameMoves
import ScriptHost.Proofs.OpenCalls

/-!
# Bounds on the stacks

The room for operands and the depth of calls are checked at run time. Nothing checks how many
callees wait, but only as many can wait for one frame as calls are open at once in its code, which
the limit of nesting bounds. So an execution that begins with empty stacks keeps all three within
what the limits of its machine say.
-/

namespace ScriptHost
namespace Machine

open Script

variable {ν σ : Type}

/-! ## Callees of each frame -/

/-- The code has a table in which never more than `d` callees wait. -/
def HasTable (d : Nat) (f : Function) (table : List Shape) : Prop :=
  Verified f table ∧ ∀ s ∈ table, s.waiting.length ≤ d

/-- `n` callees wait for the frames, as many for each as its shape tells. A frame below others
stands where the callee of the one above is no longer among those that wait. -/
inductive WaitFor (d : Nat) : Array Frame → Nat → Prop
  | nil : WaitFor d #[] 0
  | push {F n f ip base table s} : WaitFor d F n → HasTable d f table → table[ip]? = some s →
      WaitFor d (F.push ⟨f, ip, base⟩) (n + s.waiting.length)

/-- With so many frames, so many callees wait at most. -/
theorem WaitFor.le {d n : Nat} {F : Array Frame} (h : WaitFor d F n) : n ≤ F.size * d := by
  induction h with
  | nil => exact Nat.zero_le _
  | push _ htable hs ih =>
      have hwaiting := htable.2 _ (List.mem_of_getElem? hs)
      rw [Array.size_push, Nat.succ_mul]
      exact Nat.add_le_add ih hwaiting

/-- The innermost frame and those below it. -/
theorem WaitFor.pop {d n : Nat} {G : Array Frame} {f : Function} {ip base : Nat}
    (h : WaitFor d (G.push ⟨f, ip, base⟩) n) :
    ∃ table s k, WaitFor d G k ∧ HasTable d f table ∧ table[ip]? = some s ∧
      n = k + s.waiting.length := by
  generalize hF : G.push ⟨f, ip, base⟩ = F at h
  cases h with
  | nil => simp at hF
  | push hbelow htable hs =>
      rcases Array.push_eq_push.1 hF with ⟨hframe, rfl⟩
      cases hframe
      exact ⟨_, _, _, hbelow, htable, hs, rfl⟩

/-! ## One step -/

section Step

variable {d n : Nat} {natives : Natives ν σ} {x : Setting ν} {op : Opcode} {f : Function}
variable {ip base : Nat} {U : Array (CallSetup ν)} {G : Array Frame} {table : List Shape}
variable {s : Shape} {m m' : Hosted ν σ}

/-- Where an instruction leads without calling or returning, as many callees wait as before it. -/
theorem waiting_of_leadsTo {ip' : Nat} (hfits : Fits f table ip s op) (h : leadsTo op ip ip') :
    ∃ t, table[ip']? = some t ∧ t.waiting = s.waiting := by
  cases op with
  | jump target =>
      obtain rfl : ip' = target := h
      exact ⟨_, hfits, rfl⟩
  | jumpIfFalse target =>
      rcases hfits with ⟨t, rfl, hnext, htarget⟩
      rcases h with rfl | rfl
      · exact ⟨_, hnext, rfl⟩
      · exact ⟨_, htarget, rfl⟩
  | loadFunc i => exact h.elim
  | call argc => exact h.elim
  | ret => exact h.elim
  | const c | loadGlobal i | loadLocal slot =>
      obtain rfl : ip' = ip + 1 := h
      exact ⟨_, hfits.2, rfl⟩
  | storeGlobal i | storeLocal slot =>
      obtain rfl : ip' = ip + 1 := h
      rcases hfits with ⟨_, t, rfl, hnext⟩
      exact ⟨_, hnext, rfl⟩
  | binary op | prefixed op | pop =>
      obtain rfl : ip' = ip + 1 := h
      rcases hfits with ⟨t, rfl, hnext⟩
      exact ⟨_, hnext, rfl⟩

/-- The setups after a successful move are again those that the shapes of the frames tell. -/
theorem WaitFor.moves {U' : Array (CallSetup ν)} {F' : Array Frame}
    (h : WaitFor d (G.push ⟨f, ip, base⟩) U.size) (hop : f.code[ip]? = some op)
    (hsetups : ∀ {setup fn}, setup ∈ U → setup.callee = .script fn → ∃ table, HasTable d fn table)
    (hmoves : Moves x op f ip base U G (.ok ()) U' F') : WaitFor d F' U'.size := by
  rcases h.pop with ⟨table, s, k, hbelow, htable, hs, hcount⟩
  rcases htable.1.fits hs with ⟨op', hop', hfits⟩
  obtain rfl : op' = op := Option.some.inj (hop'.symm.trans hop)
  cases hmoves with
  | goes hleads =>
      rcases waiting_of_leadsTo hfits hleads with ⟨t, ht, hwaiting⟩
      rw [hcount, ← hwaiting]
      exact hbelow.push htable ht
  | opens hloads _ =>
      subst hloads
      have hnext : WaitFor d (G.push ⟨f, ip + 1, base⟩) _ := hbelow.push htable hfits.2
      rwa [Shape.waiting_opened, List.length_cons, ← Nat.add_assoc, ← hcount,
        ← Array.size_push] at hnext
  | calls hcalls hcalled =>
      subst hcalls
      rcases hfits with ⟨t, rfl, hnext⟩
      -- the callee that is taken is the one that the caller was waiting for
      have hcaller : WaitFor d (G.push ⟨f, ip + 1, base⟩) _ := hbelow.push htable hnext
      have hless {setup : CallSetup ν} (hU : U = U'.push setup) :
          k + (t.grown 1).waiting.length = U'.size := by
        rw [hU, Array.size_push, Shape.waiting_grown, Shape.waiting_opened,
          List.length_cons] at hcount
        rw [Shape.waiting_grown]
        omega
      cases hcalled with
      | answers hU _ => exact hless hU ▸ hcaller
      | enters hU hfn _ =>
          rcases hsetups (by rw [hU]; simp) hfn with ⟨entry, hentry⟩
          rw [hless hU] at hcaller
          exact hcaller.push hentry hentry.1.start
  | leaves hret =>
      subst hret
      obtain rfl : s = Shape.empty.grown 1 := hfits
      rw [hcount]
      exact hbelow

/-- A move that fails leaves no more frames than there were, and no more callees than those that
are left account for. -/
theorem WaitFor.moves_error {U' : Array (CallSetup ν)} {F' : Array Frame} {e : ScriptError}
    (h : WaitFor d (G.push ⟨f, ip, base⟩) U.size) (hop : f.code[ip]? = some op)
    (hmoves : Moves x op f ip base U G (.error e) U' F') :
    F'.size ≤ G.size + 1 ∧ U'.size ≤ F'.size * d := by
  have hle := h.le
  rw [Array.size_push] at hle
  cases hmoves with
  | calls _ hcalled =>
      cases hcalled with
      | fails hU =>
          rw [Array.size_push]
          refine ⟨Nat.le_refl _, ?_⟩
          rcases hU with rfl | rfl
          · exact hle
          · rw [Array.size_pop]
            omega
  | leaves hret =>
      subst hret
      refine ⟨Nat.le_succ _, ?_⟩
      -- nothing waits for the frame that has been taken off
      rcases h.pop with ⟨table, s, k, hbelow, htable, hs, hcount⟩
      rcases htable.1.fits hs with ⟨op', hop', hfits⟩
      obtain rfl : op' = .ret := Option.some.inj (hop'.symm.trans hop)
      obtain rfl : s = Shape.empty.grown 1 := hfits
      rw [hcount]
      exact hbelow.le
  | fails =>
      rw [Array.size_push]
      exact ⟨Nat.le_refl _, hle⟩

end Step

/-! ## Every state -/

/-- All three stacks are within what the limits of the machine say. -/
structure Hosted.WithinLimits (m : Hosted ν σ) : Prop where
  slots : m.vm.stack.slots.size ≤ m.vm.limits.stackSize
  frames : m.vm.stack.frames.size ≤ m.vm.limits.callDepth
  setups : 0 < m.vm.stack.frames.size →
    m.vm.stack.setups.size ≤ m.vm.stack.frames.size * m.vm.limits.nestingDepth

/-- The script functions of the machine come from the compiler under the limit of the machine. -/
def Vm.CompiledAll (vm : Vm ν) : Prop :=
  vm.KnowsOnly (Function.IsCompiledWithin vm.limits.nestingDepth)

/-- The limit aside, all functions are compiled. -/
theorem Vm.CompiledAll.isCompiled {vm : Vm ν} (h : vm.CompiledAll) : vm.IsCompiled :=
  fun name f hf => (h name f hf).isCompiled

/-- What holds of every state of an execution on empty stacks. -/
structure Bounded (limits : Limits) (m : Hosted ν σ) : Prop where
  limits_eq : m.vm.limits = limits
  capacity_eq : m.vm.stack.capacity = limits.stackSize
  slots : m.vm.stack.slots.size ≤ limits.stackSize
  frames : m.vm.stack.frames.size ≤ limits.callDepth
  waiting : WaitFor limits.nestingDepth m.vm.stack.frames m.vm.stack.setups.size

section States

variable {limits : Limits} {natives : Natives ν σ} {m m' : Hosted ν σ}

/-- What is bounded is within the limits. -/
theorem Bounded.withinLimits (h : Bounded limits m) : m.WithinLimits := by
  refine ⟨?_, ?_, fun _ => ?_⟩
  · rw [h.limits_eq]
    exact h.slots
  · rw [h.limits_eq]
    exact h.frames
  · rw [h.limits_eq]
    exact h.waiting.le

/-- A function that waits has a table. -/
theorem Owned.hasTable {d : Nat} {o : Stack ν} (h : Owned (Function.IsCompiledWithin d) o m)
    (ho : o.setups = #[]) {setup : CallSetup ν} {fn : Function}
    (hsetup : setup ∈ m.vm.stack.setups) (hfn : setup.callee = .script fn) :
    ∃ table, HasTable d fn table := by
  rcases Array.getElem_of_mem hsetup with ⟨i, hi, rfl⟩
  have hle : o.setups.size ≤ i := by
    rw [ho]
    exact Nat.zero_le i
  exact (h.setups hle (Array.getElem?_eq_getElem hi) hfn).verified

/-- A step moves the innermost frame, with as many callees waiting as the frames account for. -/
theorem Bounded.step_moves {o : Stack ν} (natives : Natives ν σ) (h : Bounded limits m)
    (hongoing : Ongoing o m) :
    ∃ op f ip base G, f.code[ip]? = some op ∧ G.size + 1 ≤ limits.callDepth ∧
      WaitFor limits.nestingDepth (G.push ⟨f, ip, base⟩) m.vm.stack.setups.size ∧
      Ends m.setting m.vm.stack.slots.size
        (Moves m.setting op f ip base m.vm.stack.setups G) (step natives m) := by
  rcases hongoing.step_moves natives with ⟨op, f, ip, base, G, hop, hframes, hends⟩
  have hwaiting := h.waiting
  have hdepth := h.frames
  rw [hframes] at hwaiting hdepth
  rw [Array.size_push] at hdepth
  exact ⟨op, f, ip, base, G, hop, hdepth, hwaiting, hends⟩

/-- Whatever becomes of a step, the limits and the room for operands are as before. -/
theorem Bounded.ends {R : Except ScriptError Unit → Array (CallSetup ν) → Array Frame → Prop}
    {r : Except ScriptError Unit} (h : Bounded limits m)
    (hends : Ends m.setting m.vm.stack.slots.size R (r, m')) :
    m'.vm.limits = limits ∧ m'.vm.stack.capacity = limits.stackSize ∧
      m'.vm.stack.slots.size ≤ limits.stackSize := by
  rcases limits_eq_of_setting hends.setting with ⟨hlimits, hcapacity⟩
  have hroom : m.setting.capacity = limits.stackSize := h.capacity_eq
  exact ⟨hlimits.trans h.limits_eq, hcapacity.trans h.capacity_eq,
    hroom ▸ hends.room (hroom ▸ h.slots)⟩

theorem Bounded.step {o : Stack ν} (h : Bounded limits m) (hongoing : Ongoing o m)
    (howned : Owned (Function.IsCompiledWithin limits.nestingDepth) o m) (ho : o.setups = #[])
    (hstep : Machine.step natives m = (.ok (), m')) : Bounded limits m' := by
  rcases h.step_moves natives hongoing with ⟨op, f, ip, base, G, hop, hdepth, hwaiting, hends⟩
  rw [hstep] at hends
  rcases h.ends hends with ⟨hlimits, hcapacity, hslots⟩
  have hcalls : m.setting.limits = limits := h.limits_eq
  refine ⟨hlimits, hcapacity, hslots, ?_, hwaiting.moves hop (howned.hasTable ho) hends.outcome⟩
  have hle := hends.outcome.frames_le
  rw [hcalls] at hle
  exact hle.elim (fun hle => Nat.le_trans hle hdepth) id

/-- One that fails leaves the stacks within the limits. -/
theorem Bounded.step_error {o : Stack ν} (h : Bounded limits m) (hongoing : Ongoing o m)
    {e : ScriptError} (hstep : Machine.step natives m = (.error e, m')) :
    m'.vm.limits = limits ∧ m'.WithinLimits := by
  rcases h.step_moves natives hongoing with ⟨op, f, ip, base, G, hop, hdepth, hwaiting, hends⟩
  rw [hstep] at hends
  rcases h.ends hends with ⟨hlimits, _, hslots⟩
  rcases hwaiting.moves_error hop hends.outcome with ⟨hframes, hsetups⟩
  refine ⟨hlimits, ?_, ?_, fun _ => ?_⟩
  · rwa [hlimits]
  · rw [hlimits]
    exact Nat.le_trans hframes hdepth
  · rwa [hlimits]

/-! ### Where an execution begins -/

/-- The machine has empty stacks of the size that its limits tell. -/
def Hosted.IsIdle (m : Hosted ν σ) : Prop :=
  m.vm.stack = Stack.empty m.vm.limits.stackSize

/-- An idle machine has nothing on its stacks. -/
theorem stack_of_isIdle (hidle : m.IsIdle) :
    m.vm.stack.slots = #[] ∧ m.vm.stack.setups = #[] ∧ m.vm.stack.frames = #[] ∧
      m.vm.stack.capacity = m.vm.limits.stackSize := by
  rw [Hosted.IsIdle] at hidle
  rw [hidle]
  exact ⟨rfl, rfl, rfl, rfl⟩

/-- One frame of a compiled function on empty stacks. -/
theorem bounded_of_first (hlimits : m.vm.limits = limits)
    (hcapacity : m.vm.stack.capacity = limits.stackSize)
    (hslots : m.vm.stack.slots.size ≤ limits.stackSize) (hsetups : m.vm.stack.setups = #[])
    {fn : Function} {base : Nat} (hframes : m.vm.stack.frames = #[⟨fn, 0, base⟩])
    (hroom : 0 < limits.callDepth) (hfn : fn.IsCompiledWithin limits.nestingDepth) :
    Bounded limits m := by
  rcases hfn.verified with ⟨table, hverified⟩
  refine ⟨hlimits, hcapacity, hslots, ?_, ?_⟩
  · rw [hframes]
    exact hroom
  · rw [hframes, hsetups]
    exact WaitFor.nil.push hverified hverified.1.start

/-- Without frames, with no more operands than there is room for. -/
theorem withinLimits_of_no_frames (hslots : m.vm.stack.slots.size ≤ m.vm.limits.stackSize)
    (hframes : m.vm.stack.frames = #[]) : m.WithinLimits := by
  refine ⟨hslots, ?_, fun hpos => ?_⟩
  · rw [hframes]
    exact Nat.zero_le _
  · rw [hframes] at hpos
    cases hpos

/-- A source begins with a single frame. -/
theorem begins_source_bounded {source : String} {mark : Mark} (hidle : m.IsIdle)
    (h : beginSource source m = (.ok mark, m')) :
    Bounded m.vm.limits m' := by
  rcases stack_of_isIdle hidle with ⟨hslots, hsetups, hframes, hcapacity⟩
  rcases beginSource_eq_ok h with ⟨compiled, hcompile, hroom, _, rfl⟩
  have hmain := (isCompiledWithin_of_compile hcompile).1
  rw [hframes] at hroom
  have hfirst : m.vm.stack.frames.push ⟨compiled.main, 0, m.vm.stack.slots.size⟩ =
      #[⟨compiled.main, 0, m.vm.stack.slots.size⟩] := by
    rw [hframes]
    rfl
  refine bounded_of_first rfl hcapacity ?_ hsetups hfirst hroom hmain
  rw [machine_slots, hslots]
  exact Nat.zero_le _

/-- A source that is refused leaves the stacks empty. -/
theorem begins_source_refused {source : String} {e : ScriptError} (hidle : m.IsIdle)
    (h : beginSource source m = (.error e, m')) :
    m'.vm.limits = m.vm.limits ∧ m'.WithinLimits := by
  rcases stack_of_isIdle hidle with ⟨hslots, _, hframes, _⟩
  have hstack := (beginSource_error h).1
  refine ⟨?_, withinLimits_of_no_frames ?_ ?_⟩
  · rcases beginSource_eq_error h with ⟨_, _, _, rfl⟩ | ⟨_, _, _, rfl⟩
    · rfl
    · rfl
  · rw [hstack, hslots]
    exact Nat.zero_le _
  · rw [hstack, hframes]

/-- A call from outside pushes one frame, or is over, or fails before it has a frame. -/
theorem begins_call_bounded {name : String} {vm : Vm ν} {values : List Value}
    {r : Except ScriptError Unit} (hidle : m.IsIdle) (hm : m.vm.CompiledAll)
    (hvm : m.vm.loadFunction name = some vm)
    (h : (pushAll values >>= fun _ => Step.call natives) { m with vm := vm } = (r, m')) :
    (m'.vm.limits = m.vm.limits ∧ m'.WithinLimits) ∧ (r = .ok () → Bounded m.vm.limits m') := by
  rcases stack_of_isIdle hidle with ⟨hslots, hsetups, hframes, hcapacity⟩
  rcases outside_call_ends natives hvm values with ⟨setup, hcallee, hends⟩
  rw [h] at hends
  rcases limits_eq_of_setting hends.setting with ⟨hlimits, hcapacity'⟩
  have hroom : m'.vm.stack.slots.size ≤ m.vm.limits.stackSize := by
    rw [← hcapacity]
    refine hends.room ?_
    rw [hslots]
    exact Nat.zero_le _
  have hover (hnone : m'.vm.stack.frames = #[]) :
      m'.vm.limits = m.vm.limits ∧ m'.WithinLimits :=
    ⟨hlimits, withinLimits_of_no_frames (hlimits ▸ hroom) hnone⟩
  have houtcome := hends.outcome
  rw [hsetups, hframes] at houtcome
  generalize hU' : m'.vm.stack.setups = U' at houtcome
  generalize hF' : m'.vm.stack.frames = F' at houtcome
  -- Whatever becomes of the call, its setup is gone; only a script function leaves a frame.
  cases houtcome with
  | answers hU _ =>
      rcases Array.push_eq_push.1 hU with ⟨_, rfl⟩
      refine ⟨hover hF', fun _ => ⟨hlimits, hcapacity'.trans hcapacity, hroom, ?_, ?_⟩⟩
      · rw [hF']
        exact Nat.zero_le _
      · rw [hF', hU']
        exact .nil
  | enters hU hfn hdepth =>
      rcases Array.push_eq_push.1 hU with ⟨rfl, rfl⟩
      have hbounded := bounded_of_first hlimits (hcapacity'.trans hcapacity) hroom hU' hF' hdepth
        (hm _ _ (hcallee.trans (congrArg some hfn)))
      exact ⟨⟨hlimits, hbounded.withinLimits⟩, fun _ => hbounded⟩
  | fails _ => exact ⟨hover hF', nofun⟩

/-- However an execution begins, it is within the bounds. -/
theorem Begins.bounded {r : Except ScriptError Unit} (h : Begins natives m r m')
    (hidle : m.IsIdle) (hm : m.vm.CompiledAll) :
    (m'.vm.limits = m.vm.limits ∧ m'.WithinLimits) ∧ (r = .ok () → Bounded m.vm.limits m') := by
  cases h with
  | source h =>
      have hbounded := begins_source_bounded hidle h
      exact ⟨⟨hbounded.limits_eq, hbounded.withinLimits⟩, fun _ => hbounded⟩
  | refused h => exact ⟨begins_source_refused hidle h, nofun⟩
  | invoke hvm h =>
      rw [beginCall, pushTexts_eq_pushAll] at h
      exact begins_call_bounded hidle hm hvm h
  | call hvm h => exact begins_call_bounded hidle hm hvm h

/-- By induction over the steps. -/
theorem Execution.bounded (h : Execution natives m m') (hidle : m.IsIdle)
    (hm : m.vm.CompiledAll) : Bounded m.vm.limits m' := by
  induction h with
  | begun hbegins => exact (hbegins.bounded hidle hm).2 rfl
  | next hexecution hmore hstep ih =>
      have howned := hexecution.owned hm hm.isCompiled fun _ _ => isCompiledWithin_of_compile
      exact ih.step (hexecution.ongoing hm.isCompiled hmore) howned (stack_of_isIdle hidle).2.1
        hstep

end States

/-- On a machine that has compiled its functions itself, every state of an execution that begins
with empty stacks is within the limits, those included in which a step or the beginning has failed:
there are no more operands than the size of the stack, no more frames than calls may nest, and, as
long as there is a frame, no more waiting callees than the limit of nesting for each frame. -/
theorem stacks_stay_within_limits (natives : Natives ν σ) {m : Hosted ν σ} (hidle : m.IsIdle)
    (hm : m.vm.CompiledAll) :
    (∀ r m', Begins natives m r m' → m'.vm.limits = m.vm.limits ∧ m'.WithinLimits) ∧
    (∀ m', Execution natives m m' → m'.vm.limits = m.vm.limits ∧ m'.WithinLimits) ∧
    ∀ m' e m'', Execution natives m m' → m.vm.stack.frames.size < m'.vm.stack.frames.size →
      step natives m' = (.error e, m'') → m''.vm.limits = m.vm.limits ∧ m''.WithinLimits := by
  refine ⟨?_, ?_, ?_⟩
  · intro r m' h
    exact (h.bounded hidle hm).1
  · intro m' h
    have hbounded := h.bounded hidle hm
    exact ⟨hbounded.limits_eq, hbounded.withinLimits⟩
  · intro m' e m'' h hmore hstep
    exact (h.bounded hidle hm).step_error (h.ongoing hm.isCompiled hmore) hstep

/-- Two callees wait for one frame under a limit of two levels, which is as many as there can be. -/
theorem waiting_callees_reach_the_bound :
    ∃ m m' : Hosted Unit Unit, m.IsIdle ∧ m.vm.CompiledAll ∧
      Execution (fun _ _ => pure .null) m m' ∧ m'.WithinLimits ∧
      m'.vm.stack.frames.size = 1 ∧ m'.vm.stack.setups.size = 2 ∧
      m'.vm.limits.nestingDepth = 2 := by
  let natives : Natives Unit Unit := fun _ _ => pure .null
  let m : Hosted Unit Unit := ⟨(Vm.new ⟨8, 4, 2⟩).registerNative "f" (), ()⟩
  let m₁ := (beginSource "f(f())" m).2
  let m₂ := (step natives m₁).2
  let m' := (step natives m₂).2
  have hidle : m.IsIdle := rfl
  have hm : m.vm.CompiledAll := by
    intro name f hf
    rw [show m.vm.functions = Store.Table.insert .empty (normalizeName "f") (.native ()) from rfl,
      Store.Table.get?_insert] at hf
    split at hf <;> cases hf
  obtain ⟨mark, hbegin⟩ : ∃ mark, beginSource "f(f())" m = (.ok mark, m₁) :=
    exists_of_isOk (by decide +kernel)
  obtain ⟨_, hfirst⟩ : ∃ u, step natives m₁ = (.ok u, m₂) := exists_of_isOk (by decide +kernel)
  obtain ⟨_, hsecond⟩ : ∃ u, step natives m₂ = (.ok u, m') := exists_of_isOk (by decide +kernel)
  -- After two steps both calls wait for their arguments.
  have hexecution : Execution natives m m' :=
    ((Execution.begun (.source hbegin)).next (by decide +kernel) hfirst).next (by decide +kernel)
      hsecond
  exact ⟨m, m', hidle, hm, hexecution,
    ((stacks_stay_within_limits natives hidle hm).2.1 m' hexecution).2,
    by decide +kernel, by decide +kernel, by decide +kernel⟩

end Machine
end ScriptHost
