import ScriptHost.Proofs.NestingLimits
import ScriptHost.Proofs.Sites
import ScriptHost.Proofs.Units

/-!
# Limits only limit

Two machines with the same functions and globals run the same source in step, whatever lies on their
stacks and whatever their limits are: after as many instructions each owns the same part of its
stacks. Only where one of them has no more room do they part, and that is never the one with more
room to begin with.
-/

namespace ScriptHost

namespace Store.Table

variable {α : Type}

/-- The same entries, in whatever order. -/
def Same (t u : Table α) : Prop :=
  ∀ name, t.get? name = u.get? name

/-- Tables that agree do so after the same insertion. -/
theorem Same.insert {t u : Table α} (h : t.Same u) (name : String) (v : α) :
    (t.insert name v).Same (u.insert name v) := by
  intro x
  rw [get?_insert, get?_insert, h x]

end Store.Table

namespace Machine

open Script

variable {ν σ α : Type}

/-! ## Room -/

/-- What is left of each limit. -/
def Vm.headroom (vm : Vm ν) : Limits where
  stackSize := vm.stack.capacity - vm.stack.slots.size
  callDepth := vm.limits.callDepth - vm.stack.frames.size
  nestingDepth := vm.limits.nestingDepth

/-- No limit is higher than its counterpart. -/
structure Limits.Within (a b : Limits) : Prop where
  stackSize : a.stackSize ≤ b.stackSize
  callDepth : a.callDepth ≤ b.callDepth
  nestingDepth : a.nestingDepth ≤ b.nestingDepth

/-- The second site has as much room for operands and for calls as the first, or more. -/
structure Site.Roomier (y₁ y₂ : Site ν) : Prop where
  operands : y₁.setting.capacity - y₁.height ≤ y₂.setting.capacity - y₂.height
  calls : y₁.setting.limits.callDepth - y₁.ground.frames.size ≤
    y₂.setting.limits.callDepth - y₂.ground.frames.size

/-! ## Calls of script functions -/

section Calls

variable {x : Setting ν} {S : Array Value} {U : Array (CallSetup ν)} {F : Array Frame}
variable {g : Store.Table Value} {k base : Nat} {h : σ}

/-- Too many frames, and the call is refused. -/
theorem call_script_of_deep (natives : Natives ν σ) (y : String) (fn : Function)
    (hdeep : x.limits.callDepth ≤ F.size) :
    Step.call natives (x.machine S (U.push ⟨y, .script fn, base⟩) F g k h) =
      (.error (.callDepthExceeded x.limits.callDepth), x.machine S U F g k h) := by
  rw [Step.call, Attempt.bind_of_ok popSetup_push]
  simp [Step.callScript, Attempt.get_bind, Setting.machine, hdeep, Attempt.fail]

/-- If there is room for all of them, all are pushed. -/
theorem pushAll_of_room (vs : List Value) (S : Array Value)
    (hroom : S.size + vs.length ≤ max S.size x.capacity) :
    pushAll vs (x.machine S U F g k h) = (.ok (), x.machine (S ++ vs.toArray) U F g k h) := by
  induction vs generalizing S with
  | nil => simp [pushAll]
  | cons v rest ih =>
      rw [List.length_cons] at hroom
      rw [pushAll, Attempt.bind_of_ok (push_of_room (by omega)), ih]
      · simp
      · rw [Array.size_push]
        omega

/-- If there is room, the missing arguments are pushed. -/
theorem adjustArguments_of_room {count : Nat} (hbase : base ≤ S.size)
    (hroom : base + count ≤ max S.size x.capacity) :
    Exec.onStack (Step.adjustArguments count base) (x.machine S U F g k h) =
      (.ok (), x.machine (adjusted S base count) U F g k h) := by
  by_cases hcount : count < S.size - base
  · exact adjustArguments_of_more hcount
  · rcases adjustArguments_of_less (x := x) (U := U) (F := F) (g := g) (k := k) (h := h) hbase
      hcount with ⟨hfill, hadjusted⟩
    rw [hfill, hadjusted, pushAll_of_room]
    rw [List.length_replicate]
    omega

/-- With room for a frame and its locals a function is entered. -/
theorem call_script_of_room (natives : Natives ν σ) (y : String) (fn : Function)
    (hbase : base ≤ S.size) (hdepth : F.size < x.limits.callDepth)
    (hroom : base + fn.paramCount ≤ max S.size x.capacity) :
    Step.call natives (x.machine S (U.push ⟨y, .script fn, base⟩) F g k h) =
      (.ok (), x.machine (adjusted S base fn.paramCount) U (F.push ⟨fn, 0, base⟩) g k h) := by
  have hlimit : (x.machine S U F g k h).vm.limits.callDepth = x.limits.callDepth := rfl
  rw [Step.call, Attempt.bind_of_ok popSetup_push]
  simp only [Step.callScript, Attempt.get_bind]
  rw [hlimit, machine_frames, if_neg (Nat.not_le.2 hdepth),
    Attempt.bind_of_ok (adjustArguments_of_room hbase hroom)]
  rfl

/-- Without room for a frame, or for the arguments that are missing, a call fails. -/
theorem call_script_overflows (natives : Natives ν σ) (y : String) (fn : Function)
    (hbase : base ≤ S.size)
    (hnone : ¬ (F.size < x.limits.callDepth ∧ base + fn.paramCount ≤ max S.size x.capacity)) :
    IsOverflow (Step.call natives (x.machine S (U.push ⟨y, .script fn, base⟩) F g k h)).1 := by
  by_cases hdepth : F.size < x.limits.callDepth
  · rcases call_script natives y fn (x := x) (U := U) (F := F) (g := g) (k := k) (h := h) hbase with
      ⟨hdeep, _⟩ | ⟨own, hfull⟩ | ⟨_, hroom⟩
    · exact absurd hdepth (Nat.not_lt.2 hdeep)
    · rw [hfull]
      trivial
    · exact absurd ⟨hdepth, by omega⟩ hnone
  · rw [call_script_of_deep natives y fn (Nat.not_lt.1 hdepth)]
    trivial

end Calls

/-! ## In step -/

/-- The two machines own the same parts of their stacks, and have taken as many steps. -/
inductive InStep (y₁ y₂ : Site ν) : Hosted ν σ → Hosted ν σ → Prop
  | intro {W V G g₁ g₂ k h} : g₁.Same g₂ →
      InStep y₁ y₂ (y₁.machine W V G g₁ k h) (y₂.machine W V G g₂ k h)

/-- How two machines that were in step go on: with the same result and in step, or one of them has
no more room, which is the second only if it had less to begin with. -/
inductive Concur (y₁ y₂ : Site ν) :
    Except ScriptError α × Hosted ν σ → Except ScriptError α × Hosted ν σ → Prop
  | first {r₁ m₁ out₂} : IsOverflow r₁ → Concur y₁ y₂ (r₁, m₁) out₂
  | second {out₁ r₂ m₂} : ¬ y₁.Roomier y₂ → IsOverflow r₂ → Concur y₁ y₂ out₁ (r₂, m₂)
  | alike {r m₁ m₂} : InStep y₁ y₂ m₁ m₂ → Concur y₁ y₂ (r, m₁) (r, m₂)

section Concur

variable {y₁ y₂ : Site ν} {W : Array Value} {V : Array (CallSetup ν)} {G : Array Frame}
variable {g₁ g₂ : Store.Table Value} {k : Nat} {h : σ} {natives : Natives ν σ}

/-- A value is pushed on both sides, unless one has no room for it. -/
theorem concur_push (hg : g₁.Same g₂) (v : Value) :
    Concur y₁ y₂ (Step.push v (y₁.machine W V G g₁ k h))
      (Step.push v (y₂.machine W V G g₂ k h)) := by
  by_cases room₁ : (y₁.slots W).size < y₁.setting.capacity
  · by_cases room₂ : (y₂.slots W).size < y₂.setting.capacity
    · rw [Site.machine, Site.machine, push_of_room room₁, push_of_room room₂, ← Site.slots_push,
        ← Site.slots_push]
      exact .alike (.intro hg)
    · rw [Site.machine, Site.machine, push_of_full (Nat.not_lt.1 room₂)]
      refine .second (fun hroomier => ?_) trivial
      have hoperands := hroomier.operands
      rw [Site.size_slots] at room₁ room₂
      omega
  · rw [Site.machine, push_of_full (Nat.not_lt.1 room₁)]
    exact .first trivial

/-- An operator gives both machines the same value or the same error. -/
theorem concur_value (hg : g₁.Same g₂) (r : Except ScriptError Value) :
    Concur y₁ y₂
      (match r with
        | .ok v => Step.push v (y₁.machine W V G g₁ k h)
        | .error e => (.error e, y₁.machine W V G g₁ k h))
      (match r with
        | .ok v => Step.push v (y₂.machine W V G g₂ k h)
        | .error e => (.error e, y₂.machine W V G g₂ k h)) := by
  cases r with
  | ok v => exact concur_push hg v
  | error e => exact .alike (.intro hg)

/-- A call enters the same function on both sides, unless one has no room for it. -/
theorem concur_call (hg : g₁.Same g₂) {c : CallSetup ν} (hbase : c.base ≤ W.size) :
    Concur y₁ y₂ (Step.call natives (y₁.machine W (V.push c) G g₁ k h))
      (Step.call natives (y₂.machine W (V.push c) G g₂ k h)) := by
  rcases c with ⟨name, callee, b⟩
  have hbase₁ : y₁.height + b ≤ (y₁.slots W).size := by
    rw [Site.size_slots]
    exact Nat.add_le_add_left hbase _
  have hbase₂ : y₂.height + b ≤ (y₂.slots W).size := by
    rw [Site.size_slots]
    exact Nat.add_le_add_left hbase _
  rw [Site.machine, Site.machine, Site.setups_push, Site.setups_push]
  cases callee with
  | native native =>
      -- both pass the same arguments on to the same host
      simp only [CallSetup.raised, call_native, Site.slots_drop, Site.slots_take]
      rcases natives native (W.drop b).toList h with ⟨e | v, h'⟩
      · exact .alike (.intro hg)
      · exact concur_push hg v
  | script fn =>
      simp only [CallSetup.raised]
      by_cases hroom₁ : (y₁.frames G).size < y₁.setting.limits.callDepth ∧
          y₁.height + b + fn.paramCount ≤ max (y₁.slots W).size y₁.setting.capacity
      · by_cases hroom₂ : (y₂.frames G).size < y₂.setting.limits.callDepth ∧
            y₂.height + b + fn.paramCount ≤ max (y₂.slots W).size y₂.setting.capacity
        · rw [call_script_of_room natives name fn hbase₁ hroom₁.1 hroom₁.2,
            call_script_of_room natives name fn hbase₂ hroom₂.1 hroom₂.2, Site.slots_adjusted,
            Site.slots_adjusted]
          have hframe (y : Site ν) :
              (y.frames G).push ⟨fn, 0, y.height + b⟩ = y.frames (G.push ⟨fn, 0, b⟩) := by
            rw [Site.frames_push]
            rfl
          rw [hframe, hframe]
          exact .alike (.intro hg)
        · refine .second (fun hroomier => hroom₂ ?_)
            (call_script_overflows natives name fn hbase₂ hroom₂)
          have hoperands := hroomier.operands
          have hcalls := hroomier.calls
          rw [Site.size_slots, Site.size_frames] at hroom₁ ⊢
          omega
      · exact .first (call_script_overflows natives name fn hbase₁ hroom₁)

/-! ## Steps -/

/-- The machine at an instruction of the innermost frame, with that frame taken apart. -/
theorem Site.machine_push (y : Site ν) {f : Function} {ip b : Nat} {g : Store.Table Value} :
    y.machine W V (G.push ⟨f, ip, b⟩) g k h =
      y.setting.machine (y.slots W) (y.setups V) ((y.frames G).push ⟨f, ip, y.height + b⟩) g
        (y.steps + k) h := by
  rw [machine, frames_push]
  rfl

/-- Every instruction treats the part that an execution owns alike on both sites. The shape on the
first one tells that what the instruction takes is owned. -/
theorem concur_execute (hfunctions : y₁.setting.functions.Same y₂.setting.functions)
    (hg : g₁.Same g₂) {f : Function} {table : List Shape} {s : Shape} {i ip b : Nat}
    (hactive : Active y₁.setting y₁.ground f (y₁.height + b) s (y₁.slots W) (y₁.setups V)
      (y₁.frames G)) {op : Opcode} (hop : Fits f table i s op) :
    Concur y₁ y₂ (Step.execute natives f op (y₁.machine W V (G.push ⟨f, ip, b⟩) g₁ k h))
      (Step.execute natives f op (y₂.machine W V (G.push ⟨f, ip, b⟩) g₂ k h)) := by
  cases op with
  | const c =>
      rcases hop with ⟨⟨v, hv⟩, _⟩
      rw [execute_const hv, execute_const hv]
      exact concur_push hg v
  | loadGlobal n =>
      rcases hop with ⟨⟨x, hx⟩, _⟩
      rw [Site.machine, Site.machine, execute_loadGlobal hx, execute_loadGlobal hx, ← hg x]
      exact concur_push hg _
  | storeGlobal n =>
      rcases hop with ⟨⟨x, hx⟩, t, rfl, _⟩
      rcases hactive.popOwned with ⟨W, v, rfl, _⟩
      rw [Site.machine, Site.machine, Site.slots_push, Site.slots_push, execute_storeGlobal hx,
        execute_storeGlobal hx]
      exact .alike (.intro (hg.insert x v))
  -- A local lies above the base of the frame, so both machines read it from `W`: the heights of the
  -- sites cancel out.
  | loadLocal slot =>
      rcases hop with ⟨hslot, _⟩
      rcases hactive.getElem?_owned hslot with ⟨v, hv⟩
      have hload (y : Site ν) : (y.slots W)[y.height + b + slot]? = some v := by
        rw [Nat.add_assoc, Site.getElem?_slots, hv]
      rw [Site.machine_push, Site.machine_push, execute_loadLocal hslot (hload y₁),
        execute_loadLocal hslot (hload y₂), ← Site.machine_push, ← Site.machine_push]
      exact concur_push hg v
  | storeLocal slot =>
      rcases hop with ⟨hslot, t, rfl, _⟩
      rcases hactive.popOwned with ⟨W, v, rfl, hpopped⟩
      have hlt := hpopped.local_lt hslot
      have hstored (y : Site ν) : y.height + b + slot < (y.slots W).size := by
        rw [Site.size_slots] at hlt ⊢
        omega
      have hslots (y : Site ν) : (y.slots W).setIfInBounds (y.height + b + slot) v =
          y.slots (W.setIfInBounds (b + slot) v) := by
        rw [Nat.add_assoc, Site.slots_set]
      rw [Site.machine_push, Site.machine_push, Site.slots_push, Site.slots_push,
        execute_storeLocal hslot (hstored y₁), execute_storeLocal hslot (hstored y₂), hslots,
        hslots, ← Site.machine_push, ← Site.machine_push]
      exact .alike (.intro hg)
  | binary op =>
      rcases hop with ⟨t, rfl, _⟩
      rcases Active.popOwned (t := t.grown 1) (by simpa using hactive) with ⟨W, d, rfl, hleft⟩
      rcases hleft.popOwned with ⟨W, a, rfl, _⟩
      rw [Site.machine, Site.machine, Site.slots_push, Site.slots_push, Site.slots_push,
        Site.slots_push, execute_binary, execute_binary]
      exact concur_value hg (Step.binaryValue op a d)
  | prefixed op =>
      rcases hop with ⟨t, rfl, _⟩
      rcases hactive.popOwned with ⟨W, v, rfl, _⟩
      rw [Site.machine, Site.machine, Site.slots_push, Site.slots_push, execute_prefixed,
        execute_prefixed]
      exact concur_value hg (Step.prefixValue op v)
  | jump target =>
      rw [Site.machine_push, Site.machine_push, execute_jump, execute_jump, ← Site.machine_push,
        ← Site.machine_push]
      exact .alike (.intro hg)
  | jumpIfFalse target =>
      rcases hop with ⟨t, rfl, _, _⟩
      rcases hactive.popOwned with ⟨W, v, rfl, _⟩
      rw [Site.machine_push, Site.machine_push, Site.slots_push, Site.slots_push,
        execute_jumpIfFalse, execute_jumpIfFalse, ← Site.machine_push, ← Site.machine_push]
      exact .alike (.intro hg)
  -- The tables agree by name only. Which callee is set up is the same, but each setup remembers the
  -- height of its own stack.
  | loadFunc n =>
      rcases hop with ⟨⟨x, hx⟩, _⟩
      cases hcallee : y₁.setting.functions.get? (normalizeName x) with
      | none =>
          have hcallee₂ := (hfunctions _).symm.trans hcallee
          rw [Site.machine, Site.machine, execute_loadFunc_of_none hx hcallee,
            execute_loadFunc_of_none hx hcallee₂]
          exact .alike (.intro hg)
      | some callee =>
          have hcallee₂ := (hfunctions _).symm.trans hcallee
          have hsetup (y : Site ν) : (y.setups V).push ⟨normalizeName x, callee, (y.slots W).size⟩ =
              y.setups (V.push ⟨normalizeName x, callee, W.size⟩) := by
            rw [Site.setups_push, Site.size_slots]
            rfl
          rw [Site.machine, Site.machine, execute_loadFunc_of_some hx hcallee,
            execute_loadFunc_of_some hx hcallee₂, hsetup, hsetup]
          exact .alike (.intro hg)
  -- The one opcode at which the depth limits count; the rest can only miss room for a value.
  | call argc =>
      rcases hop with ⟨t, rfl, _⟩
      rcases hactive.closeOwned with ⟨V, c, rfl, hbase⟩
      rw [execute_call, execute_call]
      exact concur_call hg hbase
  | pop =>
      rcases hop with ⟨t, rfl, _⟩
      rcases hactive.popOwned with ⟨W, v, rfl, _⟩
      rw [Site.machine, Site.machine, Site.slots_push, Site.slots_push, execute_pop, execute_pop]
      exact .alike (.intro hg)
  | ret =>
      rcases hop with rfl
      rcases hactive.popOwned with ⟨W, v, rfl, _⟩
      rw [Site.machine_push, Site.machine_push, Site.slots_push, Site.slots_push, execute_ret,
        execute_ret, Site.slots_take, Site.slots_take]
      exact concur_push hg v

theorem concur_step (hfunctions : y₁.setting.functions.Same y₂.setting.functions)
    {m₁ m₂ : Hosted ν σ} (hstep : InStep y₁ y₂ m₁ m₂) (hongoing : Ongoing y₁.ground m₁) :
    Concur y₁ y₂ (step natives m₁) (step natives m₂) := by
  cases hstep with
  | intro hg =>
      rcases hongoing.activeOwned with ⟨f, ip, b, table, s, G, rfl, hverified, hs, hactive⟩
      rcases hverified.fits hs with ⟨op, hop, hfits⟩
      rw [Site.machine_push, Site.machine_push, step_fetch hop, step_fetch hop, Nat.add_assoc,
        Nat.add_assoc, ← Site.machine_push, ← Site.machine_push]
      exact concur_execute hfunctions hg hactive hfits

/-! ## Runs -/

/-- Two runs in step go on alike until both are over or one has no more room. -/
theorem concur_runUntil (hfunctions : y₁.setting.functions.Same y₂.setting.functions)
    {m₁ m₂ : Hosted ν σ} (hstep : InStep y₁ y₂ m₁ m₂)
    (hform : Ongoing y₁.ground m₁ ∨ Finished y₁.ground m₁) {budget : Nat}
    {out₁ : Except ScriptError Unit × Hosted ν σ}
    (hrun : runUntil natives y₁.ground.frames.size budget m₁ = some out₁)
    (hfits : ¬ IsOverflow out₁.1) :
    ∃ out₂, runUntil natives y₂.ground.frames.size budget m₂ = some out₂ ∧
      Concur y₁ y₂ out₁ out₂ := by
  -- Both loops end at the same time: each has as many frames above its floor as the other.
  have hframes : y₁.ground.frames.size < m₁.vm.stack.frames.size ↔
      y₂.ground.frames.size < m₂.vm.stack.frames.size := by
    cases hstep
    simp only [Site.machine, machine_frames, Site.size_frames]
    omega
  by_cases hmore : y₁.ground.frames.size < m₁.vm.stack.frames.size
  · cases budget with
    | zero =>
        rw [runUntil, if_neg (Nat.not_le.2 hmore)] at hrun
        cases hrun
    | succ budget =>
        have hongoing := ongoing_of_lt hform hmore
        have hconcur : Concur y₁ y₂ (step natives m₁) (step natives m₂) :=
          concur_step hfunctions hstep hongoing
        rcases hstep₁ : step natives m₁ with ⟨r₁, m₁'⟩
        rcases hstep₂ : step natives m₂ with ⟨r₂, m₂'⟩
        rw [hstep₁, hstep₂] at hconcur
        cases hconcur with
        -- Stopped by a limit of the first machine, which the run is assumed not to meet.
        | first hoverflow =>
            rcases r₁ with e | _
            · rw [runUntil_of_error hmore hstep₁] at hrun
              cases hrun
              exact absurd hoverflow hfits
            · exact hoverflow.elim
        | second hless hoverflow =>
            rcases r₂ with e | _
            · exact ⟨_, runUntil_of_error (hframes.1 hmore) hstep₂ budget, .second hless hoverflow⟩
            · exact hoverflow.elim
        -- An error ends both runs here; else the steps left are fewer by one.
        | alike hstep' =>
            rcases r₁ with e | _
            · rw [runUntil_of_error hmore hstep₁] at hrun
              cases hrun
              exact ⟨_, runUntil_of_error (hframes.1 hmore) hstep₂ budget, .alike hstep'⟩
            · rw [runUntil_of_step hmore hstep₁] at hrun
              rw [runUntil_of_step (hframes.1 hmore) hstep₂]
              exact concur_runUntil hfunctions hstep' (hongoing.step_ok hstep₁) hrun hfits
  · rw [runUntil_of_le (Nat.not_lt.1 hmore)] at hrun
    cases hrun
    exact ⟨_, runUntil_of_le (Nat.not_lt.1 fun h => hmore (hframes.2 h)) budget, .alike hstep⟩

end Concur

/-! ## Sources -/

/-- The result is an error that a limit raises: of the stacks, or of nesting in the source. -/
def Exceeded (r : Except ScriptError α) : Prop :=
  IsOverflow r ∨ ∃ e, r = .error (.compile e) ∧ e.IsTooDeep

/-- Two machines have come from two others by as many steps, and agree in all but their stacks and
limits. -/
structure SameEffect (m₁ m₁' m₂ m₂' : Hosted ν σ) : Prop where
  globals : m₁'.vm.globals.Same m₂'.vm.globals
  functions : m₁'.vm.functions.Same m₂'.vm.functions
  host : m₁'.host = m₂'.host
  steps : ∃ k, m₁'.vm.steps = m₁.vm.steps + k ∧ m₂'.vm.steps = m₂.vm.steps + k

section Sources

variable {natives : Natives ν σ} {m₁ m₂ : Hosted ν σ} {budget : Nat} {source : String}
variable {compiled : CompiledUnit}

/-- The functions of a unit are defined on both sides. -/
theorem same_defineFunctions {vm₁ vm₂ : Vm ν} (h : vm₁.functions.Same vm₂.functions)
    (fs : List Function) :
    (vm₁.defineFunctions fs).functions.Same (vm₂.defineFunctions fs).functions := by
  induction fs generalizing vm₁ vm₂ with
  | nil => exact h
  | cons f rest ih => exact ih (h.insert _ _)

/-- Where a unit takes place once its functions have been registered. -/
def Hosted.site (m : Hosted ν σ) (compiled : CompiledUnit) : Site ν :=
  ⟨(m.loaded compiled).setting, m.vm.stack, m.vm.steps⟩

/-- A unit begins above whatever lies on the stacks. -/
theorem beginSource_site (h : compile m₁.vm.limits.nestingDepth source = .ok compiled)
    (room : m₁.vm.stack.frames.size < m₁.vm.limits.callDepth) :
    beginSource source m₁ =
      (.ok m₁.vm.mark, (m₁.site compiled).machine #[] #[] #[⟨compiled.main, 0, 0⟩] m₁.vm.globals 0
        m₁.host) := by
  rw [beginSource_of_room h room]
  simp [Site.machine, Site.slots, Site.setups, Site.frames, Hosted.site, Frame.raised, Site.height]

theorem Site.pop_result (y : Site ν) (v : Value) {V : Array (CallSetup ν)} {G : Array Frame}
    {g : Store.Table Value} {k : Nat} {h : σ} :
    Step.pop (y.machine #[v] V G g k h) = (.ok v, y.machine #[] V G g k h) := by
  have hslots : y.slots #[v] = (y.slots #[]).push v := slots_push (W := #[])
  rw [machine, hslots, pop_of_push]
  rfl

/-- What a unit comes to after its run: the error of the run, or its value. -/
theorem runSource_of_run {mark : Mark} {m m₁ m₂ m₃ : Hosted ν σ} {r : Except ScriptError Unit}
    {r' : Except ScriptError Value} (hbegin : beginSource source m = (.ok mark, m₁))
    (hrun : runUntil natives mark.frames budget m₁ = some (r, m₂))
    (hends : (∃ e, r = .error e ∧ r' = .error e ∧ m₃ = m₂) ∨
      (r = .ok () ∧ Step.pop m₂ = (r', m₃))) :
    runSource natives budget source m = some (r', { m₃ with vm := m₃.vm.restore mark }) := by
  simp only [runSource, hbegin, hrun]
  rcases hends with ⟨e, rfl, rfl, rfl⟩ | ⟨rfl, hpop⟩
  · rfl
  · simp only [followedBy, hpop, restoring]

/-- Machines in step agree in all that is left once their stacks have been cut back. -/
theorem InStep.sameEffect {n₁ n₂ : Hosted ν σ} (hfunctions : m₁.vm.functions.Same m₂.vm.functions)
    (h : InStep (m₁.site compiled) (m₂.site compiled) n₁ n₂) (mark₁ mark₂ : Mark) :
    SameEffect m₁ { n₁ with vm := n₁.vm.restore mark₁ } m₂
      { n₂ with vm := n₂.vm.restore mark₂ } := by
  cases h with
  | intro hg => exact ⟨hg, same_defineFunctions hfunctions compiled.functions, rfl, _, rfl, rfl⟩

section Compiled

variable (hcompiled : m₁.vm.IsCompiled) (hfunctions : m₁.vm.functions.Same m₂.vm.functions)
variable (hglobals : m₁.vm.globals.Same m₂.vm.globals) (hhost : m₁.host = m₂.host)
include hcompiled hfunctions hglobals hhost

/-- Units that have begun go on in step. -/
theorem concur_unit {n₁ : Hosted ν σ} {r : Except ScriptError Unit}
    (hc₁ : compile m₁.vm.limits.nestingDepth source = .ok compiled)
    (hc₂ : compile m₂.vm.limits.nestingDepth source = .ok compiled)
    (room₁ : m₁.vm.stack.frames.size < m₁.vm.limits.callDepth)
    (room₂ : m₂.vm.stack.frames.size < m₂.vm.limits.callDepth)
    {n : Hosted ν σ} {mark : Mark} (hbegin : beginSource source m₁ = (.ok mark, n))
    (hrun : runUntil natives mark.frames budget n = some (r, n₁)) (hfits : ¬ IsOverflow r) :
    ∃ m out₂, beginSource source m₂ = (.ok m₂.vm.mark, m) ∧
      runUntil natives m₂.vm.mark.frames budget m = some out₂ ∧
      Concur (m₁.site compiled) (m₂.site compiled) (r, n₁) out₂ := by
  have hongoing := (beginSource_ok hcompiled hbegin).2
  rw [beginSource_site hc₁ room₁] at hbegin
  cases hbegin
  rw [hhost] at hrun hongoing
  rcases concur_runUntil (same_defineFunctions hfunctions compiled.functions)
      (@InStep.intro ν σ (m₁.site compiled) (m₂.site compiled) _ _ _ _ _ _ _ hglobals)
      (.inl hongoing) hrun hfits with ⟨out₂, hrun₂, hconcur⟩
  exact ⟨_, out₂, beginSource_site hc₂ room₂, hrun₂, hconcur⟩

/-- A source that compiles on both sides has the same effect, unless a limit is exceeded. -/
theorem runSource_compiled_concurs {r₁ : Except ScriptError Value} {m₁' : Hosted ν σ}
    (hc₁ : compile m₁.vm.limits.nestingDepth source = .ok compiled)
    (hc₂ : compile m₂.vm.limits.nestingDepth source = .ok compiled)
    (hrun : runSource natives budget source m₁ = some (r₁, m₁')) (hr₁ : ¬ Exceeded r₁) :
    ∃ r₂ m₂', runSource natives budget source m₂ = some (r₂, m₂') ∧
      ((Exceeded r₂ ∧ ¬ m₁.vm.headroom.Within m₂.vm.headroom) ∨
        r₂ = r₁ ∧ SameEffect m₁ m₁' m₂ m₂') := by
  by_cases room₁ : m₁.vm.stack.frames.size < m₁.vm.limits.callDepth
  · by_cases room₂ : m₂.vm.stack.frames.size < m₂.vm.limits.callDepth
    · rcases runSource_eq_some hrun with ⟨e, hrefused, rfl⟩ | ⟨mark, n, r, n₁, hbegin, hloop, hends⟩
      · rw [beginSource_site hc₁ room₁] at hrefused
        cases hrefused
      · have hfits : ¬ IsOverflow r := by
          rcases hends with ⟨e, rfl, rfl, _⟩ | ⟨rfl, _⟩
          · exact fun hoverflow => hr₁ (.inl hoverflow)
          · exact id
        rcases concur_unit hcompiled hfunctions hglobals hhost hc₁ hc₂ room₁ room₂ hbegin hloop
          hfits with ⟨m, ⟨r₂, n₂⟩, hbegin₂, hrun₂, hconcur⟩
        cases hconcur with
        | first hoverflow => exact absurd hoverflow hfits
        | second hless hoverflow =>
            rcases r₂ with e | _
            · refine ⟨_, _, runSource_of_run hbegin₂ hrun₂ (.inl ⟨e, rfl, rfl, rfl⟩),
                .inl ⟨.inl hoverflow, fun hwithin => hless ?_⟩⟩
              exact ⟨hwithin.stackSize, hwithin.callDepth⟩
            · exact hoverflow.elim
        | alike hstep =>
            rcases hends with ⟨e, rfl, rfl, rfl⟩ | ⟨rfl, n₃, hpop, rfl⟩
            · exact ⟨_, _, runSource_of_run hbegin₂ hrun₂ (.inl ⟨e, rfl, rfl, rfl⟩),
                .inr ⟨rfl, hstep.sameEffect hfunctions _ _⟩⟩
            · -- the run has left nothing but its result, which both machines take off
              obtain rfl := (beginSource_ok hcompiled hbegin).1
              have hexecution : Execution natives m₁ n := .begun (.source hbegin)
              rcases hexecution.run_ends hcompiled hloop with ⟨_, hfinished⟩ | ⟨_, hfailed, _⟩
              · cases hstep with
                | intro hg =>
                    rcases Finished.owned (y := m₁.site compiled) hfinished with ⟨v, rfl⟩
                    rw [Site.pop_result] at hpop
                    cases hpop
                    refine ⟨_, _, runSource_of_run hbegin₂ hrun₂ (.inr ⟨rfl, Site.pop_result _ v⟩),
                      .inr ⟨rfl, ?_⟩⟩
                    exact (InStep.intro hg).sameEffect hfunctions _ _
              · cases hfailed
    · refine ⟨.error (.callDepthExceeded _), _,
        by rw [runSource, beginSource_of_full hc₂ (Nat.not_lt.1 room₂)],
        .inl ⟨.inl trivial, fun hwithin => ?_⟩⟩
      have hcalls : m₁.vm.limits.callDepth - m₁.vm.stack.frames.size ≤
          m₂.vm.limits.callDepth - m₂.vm.stack.frames.size := hwithin.callDepth
      omega
  · rw [runSource, beginSource_of_full hc₁ (Nat.not_lt.1 room₁)] at hrun
    cases hrun
    exact (hr₁ (.inl trivial)).elim

end Compiled

/-- A run that no limit has ended leads to the same on any machine with the same functions and
globals, as far as the limits of that machine let it. -/
theorem runSource_concurs (hcompiled : m₁.vm.IsCompiled)
    (hfunctions : m₁.vm.functions.Same m₂.vm.functions)
    (hglobals : m₁.vm.globals.Same m₂.vm.globals) (hhost : m₁.host = m₂.host)
    {r₁ : Except ScriptError Value} {m₁' : Hosted ν σ}
    (hrun : runSource natives budget source m₁ = some (r₁, m₁')) (hr₁ : ¬ Exceeded r₁) :
    ∃ r₂ m₂', runSource natives budget source m₂ = some (r₂, m₂') ∧
      ((Exceeded r₂ ∧ ¬ m₁.vm.headroom.Within m₂.vm.headroom) ∨
        r₂ = r₁ ∧ SameEffect m₁ m₁' m₂ m₂') := by
  rcases compile_under_limits m₁.vm.limits.nestingDepth m₂.vm.limits.nestingDepth source with
    ⟨e, hcompile, hdeep⟩ | ⟨htighter, e, hcompile, hdeep⟩ | hsame
  · -- the first machine cannot have refused the source for its nesting
    rw [runSource, beginSource_of_error hcompile] at hrun
    cases hrun
    exact absurd (.inr ⟨e, rfl, hdeep⟩) hr₁
  · refine ⟨_, _, by rw [runSource, beginSource_of_error hcompile], .inl ⟨.inr ⟨e, rfl, hdeep⟩, ?_⟩⟩
    exact fun hwithin => absurd hwithin.nestingDepth (Nat.not_le.2 htighter)
  cases hcompile : compile m₁.vm.limits.nestingDepth source with
  | error e =>
      rw [runSource, beginSource_of_error hcompile] at hrun
      cases hrun
      refine ⟨_, _, by rw [runSource, beginSource_of_error (hsame ▸ hcompile)], .inr ⟨rfl, ?_⟩⟩
      exact ⟨hglobals, hfunctions, hhost, 0, rfl, rfl⟩
  | ok compiled =>
      exact runSource_compiled_concurs hcompiled hfunctions hglobals hhost hcompile
        (hsame ▸ hcompile)
        hrun hr₁

end Sources

/-- The machine with a log of the native calls to come. -/
def Hosted.watched (m : Hosted ν σ) : Hosted ν (σ × List (ν × List Value)) :=
  ⟨m.vm, (m.host, [])⟩

/-- Take two machines with the same functions and globals, on any stacks and under any limits. If
the run of a source on the first is over and not for a limit, then on the second it is over as well:
for a limit, or with the same result, the same globals, functions, host and native calls, and as
many steps; and not for a limit if the second has at least as much left of each of them. -/
theorem limits_only_limit (natives : Natives ν σ) {m₁ m₂ : Hosted ν σ}
    (hcompiled : m₁.vm.IsCompiled) (hfunctions : m₁.vm.functions.Same m₂.vm.functions)
    (hglobals : m₁.vm.globals.Same m₂.vm.globals) (hhost : m₁.host = m₂.host) {budget : Nat}
    {source : String} {r₁ : Except ScriptError Value} {m₁' : Hosted ν (σ × List (ν × List Value))}
    (hrun : runSource (logged natives) budget source m₁.watched = some (r₁, m₁'))
    (hr₁ : ¬ Exceeded r₁) :
    ∃ r₂ m₂', runSource (logged natives) budget source m₂.watched = some (r₂, m₂') ∧
      (Exceeded r₂ ∨ r₂ = r₁ ∧ SameEffect m₁.watched m₁' m₂.watched m₂') ∧
      (m₁.vm.headroom.Within m₂.vm.headroom → ¬ Exceeded r₂) := by
  have hwatched : m₁.watched.host = m₂.watched.host := congrArg (·, []) hhost
  have hcompiled' : m₁.watched.vm.IsCompiled := hcompiled
  have hfunctions' : m₁.watched.vm.functions.Same m₂.watched.vm.functions := hfunctions
  rcases runSource_concurs hcompiled' hfunctions' hglobals hwatched hrun hr₁ with
    ⟨r₂, m₂', hrun₂, ⟨hexceeded, hless⟩ | ⟨rfl, heffect⟩⟩
  · exact ⟨r₂, m₂', hrun₂, .inl hexceeded, fun hwithin => absurd hwithin hless⟩
  · exact ⟨r₂, m₂', hrun₂, .inr ⟨rfl, heffect⟩, fun _ => hr₁⟩

/-- A unit that just fits on an empty machine runs to the same end above an operand and a frame. -/
theorem unit_runs_alike_above_others :
    ∃ (m₁ m₂ : Hosted Unit Unit) (m₁' m₂' : Hosted Unit (Unit × List (Unit × List Value)))
      (r : Except ScriptError Value),
      let run := runSource (logged fun _ _ => pure .null) 10
        "func g(x) \x7b f(x) return x \x7d return g(\"a\")"
      run m₁.watched = some (r, m₁') ∧ run m₂.watched = some (r, m₂') ∧
        r.toOption = some (.text "a") ∧ m₁'.host.2 = [((), [.text "a"])] ∧
        m₂'.host.2 = [((), [.text "a"])] ∧
        m₁.vm.stack.mark = ⟨0, 0, 0⟩ ∧ m₂.vm.stack.mark = ⟨1, 0, 1⟩ := by
  let natives : Natives Unit Unit := fun _ _ => pure .null
  let source := "func g(x) \x7b f(x) return x \x7d return g(\"a\")"
  let others : Stack Unit := ⟨#[.null], #[], #[⟨Function.new "h" 1, 0, 0⟩], 3⟩
  let m₁ : Hosted Unit Unit := ⟨(Vm.new ⟨2, 2, 3⟩).registerNative "f" (), ()⟩
  let m₂ : Hosted Unit Unit := ⟨{ (Vm.new {}).registerNative "f" () with stack := others }, ()⟩
  let first := runSource (logged natives) 10 source m₁.watched
  let m₁' := (first.map Prod.snd).getD m₁.watched
  have hcompiled : m₁.vm.IsCompiled := (Vm.IsCompiled.new _).registerNative "f" ()
  obtain ⟨r, hfirst⟩ : ∃ r, first = some (r, m₁') := exists_of_isSome (by decide +kernel)
  have hvalue : first.map (fun ended => ended.1.toOption) = some (some (.text "a")) := by
    decide +kernel
  have hlog : m₁'.host.2 = [((), [.text "a"])] := by decide +kernel
  rw [hfirst] at hvalue
  cases r with
  | error e => cases hvalue
  | ok v =>
      cases hvalue
      -- Nothing in the outcome is a limit error, so the theorem speaks of the second run.
      have hfits : ¬ Exceeded (.ok (.text "a") : Except ScriptError Value) := by
        rintro (h | ⟨e, h, _⟩)
        · exact h
        · cases h
      have hwithin : m₁.vm.headroom.Within m₂.vm.headroom :=
        ⟨by decide +kernel, by decide +kernel, by decide +kernel⟩
      have hfunctions : m₁.vm.functions.Same m₂.vm.functions := fun _ => rfl
      have hglobals : m₁.vm.globals.Same m₂.vm.globals := fun _ => rfl
      rcases limits_only_limit natives hcompiled hfunctions hglobals rfl hfirst hfits with
        ⟨r₂, m₂', hsecond, hsame, hroom⟩
      rcases hsame with hexceeded | ⟨rfl, heffect⟩
      · exact absurd hexceeded (hroom hwithin)
      · exact ⟨m₁, m₂, m₁', m₂', _, hfirst, hsecond, rfl, hlog, heffect.host ▸ hlog, rfl, rfl⟩

end Machine
end ScriptHost
