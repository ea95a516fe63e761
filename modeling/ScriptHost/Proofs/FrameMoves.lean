import ScriptHost.Proofs.Execution

/-!
# How frames move

Most instructions only move the innermost frame and leave the frames below it and the waiting
callees alone. The others open a callee, close one, push a frame for one or take the innermost
frame off. All of this is said here once, of any machine with a frame and of failing steps as well,
so that what bounds the stacks or ends a run can be read off the moves.
-/

namespace ScriptHost
namespace Machine

open Script

variable {ν σ α β : Type}

/-! ## Operations on operands -/

/-- The callees, the frames and what no instruction changes are the same, and the operands have
not outgrown their room. -/
structure Spared (m m' : Hosted ν σ) : Prop where
  setting : m'.setting = m.setting
  setups : m'.vm.stack.setups = m.vm.stack.setups
  frames : m'.vm.stack.frames = m.vm.stack.frames
  room : m.vm.stack.slots.size ≤ m.setting.capacity →
    m'.vm.stack.slots.size ≤ m'.setting.capacity

theorem Spared.refl (m : Hosted ν σ) : Spared m m :=
  ⟨rfl, rfl, rfl, id⟩

/-- What two operations spare is spared by both. -/
theorem Spared.trans {m₁ m₂ m₃ : Hosted ν σ} (h : Spared m₁ m₂) (h' : Spared m₂ m₃) :
    Spared m₁ m₃ :=
  ⟨h'.setting.trans h.setting, h'.setups.trans h.setups, h'.frames.trans h.frames,
    fun hroom => h'.room (h.room hroom)⟩

/-- Neither frames nor callees are touched. -/
def Spares (x : Exec ν σ α) : Prop :=
  ∀ m, Spared m (x m).2

/-- The operation changes nothing but operands. -/
def StackSpares (op : Attempt ScriptError (Stack ν) α) : Prop :=
  ∀ s, (op s).2.setups = s.setups ∧ (op s).2.frames = s.frames ∧ (op s).2.capacity = s.capacity ∧
    (s.slots.size ≤ s.capacity → (op s).2.slots.size ≤ s.capacity)

section Sparing

/-- One operation after the other. -/
theorem spares_bind {x : Exec ν σ α} {f : α → Exec ν σ β} (hx : Spares x)
    (hf : ∀ a, Spares (f a)) : Spares (x >>= f) := by
  intro m
  have hfirst := hx m
  rw [Attempt.bind_apply]
  rcases h : x m with ⟨e | a, m₁⟩
  · rw [h] at hfirst
    exact hfirst
  · rw [h] at hfirst
    exact hfirst.trans (hf a m₁)

/-- An operation that only looks, or only fails. -/
theorem spares_of_same {x : Exec ν σ α} (h : ∀ m, (x m).2 = m) : Spares x := by
  intro m
  rw [h m]
  exact .refl m

/-- An operation on the stack of values. -/
theorem spares_onStack {op : Attempt ScriptError (Stack ν) α} (h : StackSpares op) :
    Spares (Exec.onStack op : Exec ν σ α) := by
  intro m
  rcases h m.vm.stack with ⟨hsetups, hframes, hcapacity, hroom⟩
  have hsetting : (Exec.onStack op m).2.setting = m.setting :=
    congrArg (Setting.mk m.vm.functions m.vm.limits) hcapacity
  refine ⟨hsetting, hsetups, hframes, fun hle => ?_⟩
  rw [hsetting]
  exact hroom hle

/-- Whether there is room or not. -/
theorem stackSpares_push (v : Value) : StackSpares (Stack.push v : Attempt _ (Stack ν) Unit) := by
  intro s
  unfold Stack.push
  split
  · rename_i hlt
    refine ⟨rfl, rfl, rfl, fun _ => ?_⟩
    show (s.slots.push v).size ≤ s.capacity
    rw [Array.size_push]
    exact hlt
  · exact ⟨rfl, rfl, rfl, id⟩

theorem stackSpares_pop : StackSpares (Stack.pop : Attempt _ (Stack ν) Value) := by
  intro s
  unfold Stack.pop
  split
  · refine ⟨rfl, rfl, rfl, fun hle => ?_⟩
    show s.slots.pop.size ≤ s.capacity
    rw [Array.size_pop]
    omega
  · exact ⟨rfl, rfl, rfl, id⟩

theorem stackSpares_splitOff (base : Nat) :
    StackSpares (Stack.splitOff base : Attempt _ (Stack ν) (List Value)) := by
  intro s
  refine ⟨rfl, rfl, rfl, fun hle => ?_⟩
  show (s.slots.take base).size ≤ s.capacity
  rw [Array.take_eq_extract, Array.size_extract]
  omega

theorem stackSpares_storeLocal (slot : Nat) (v : Value) :
    StackSpares (Stack.storeLocal slot v : Attempt _ (Stack ν) Unit) := by
  intro s
  unfold Stack.storeLocal
  split
  · exact ⟨rfl, rfl, rfl, id⟩
  · refine ⟨rfl, rfl, rfl, fun hle => ?_⟩
    simpa using hle

theorem spares_push (v : Value) : Spares (Step.push v : Exec ν σ Unit) :=
  spares_onStack (stackSpares_push v)

theorem spares_pop : Spares (Step.pop : Exec ν σ Value) :=
  spares_onStack stackSpares_pop

/-- Arguments concern the values alone. -/
theorem spares_pushAll (vs : List Value) : Spares (pushAll vs : Exec ν σ Unit) := by
  induction vs with
  | nil => exact spares_of_same fun _ => rfl
  | cons v rest ih => exact spares_bind (spares_push v) fun _ => ih

theorem spares_adjustArguments (count base : Nat) :
    Spares (Exec.onStack (Step.adjustArguments count base) : Exec ν σ Unit) := by
  intro m
  by_cases hmore : count < m.vm.stack.slots.size - base
  · have hcut : Exec.onStack (Step.adjustArguments count base) m =
        (.ok (), { m with vm.stack.slots := m.vm.stack.slots.take (base + count) }) := by
      simp [Exec.onStack, Step.adjustArguments, hmore]
    rw [hcut]
    refine ⟨rfl, rfl, rfl, fun hle => ?_⟩
    show (m.vm.stack.slots.take (base + count)).size ≤ m.setting.capacity
    rw [Array.take_eq_extract, Array.size_extract]
    omega
  · -- Filling up is a row of pushes, which is known to spare all else.
    have hfill : Exec.onStack (Step.adjustArguments count base) m =
        pushAll (List.replicate (count - (m.vm.stack.slots.size - base)) .null) m := by
      rw [← onStack_fill]
      simp [Exec.onStack, Step.adjustArguments, hmore]
    rw [hfill]
    exact spares_pushAll _ m

/-- A native function has its arguments taken off and its value pushed. -/
theorem spares_callNative (natives : Natives ν σ) (native : ν) (base : Nat) :
    Spares (Step.callNative natives native base) := by
  refine spares_bind (spares_onStack (stackSpares_splitOff base)) fun args => ?_
  -- the host is no part of the stacks
  exact spares_bind (fun m => ⟨rfl, rfl, rfl, id⟩) fun v => spares_push v

end Sparing

/-! ## Calls -/

section Calls

variable {natives : Natives ν σ} {x : Setting ν} {S : Array Value} {U : Array (CallSetup ν)}
variable {F : Array Frame} {g : Store.Table Value} {k : Nat} {h : σ}

/-- What becomes of setups and frames, told together with what is not changed by it; `n` operands
were there before. -/
structure Ends (x : Setting ν) (n : Nat)
    (R : Except ScriptError Unit → Array (CallSetup ν) → Array Frame → Prop)
    (out : Except ScriptError Unit × Hosted ν σ) : Prop where
  setting : out.2.setting = x
  room : n ≤ x.capacity → out.2.vm.stack.slots.size ≤ x.capacity
  outcome : R out.1 out.2.vm.stack.setups out.2.vm.stack.frames

/-- What is spared ends as it has begun. -/
theorem Spared.ends {n : Nat} {m : Hosted ν σ} {out : Except ScriptError Unit × Hosted ν σ}
    {R : Except ScriptError Unit → Array (CallSetup ν) → Array Frame → Prop}
    (hspared : Spared m out.2) (hsize : m.vm.stack.slots.size ≤ n)
    (houtcome : R out.1 m.vm.stack.setups m.vm.stack.frames) : Ends m.setting n R out := by
  refine ⟨hspared.setting, fun hroom => ?_, ?_⟩
  · have hle := hspared.room (Nat.le_trans hsize hroom)
    rwa [hspared.setting] at hle
  · rwa [hspared.setups, hspared.frames]

/-- A call takes the innermost setup. It is over at once if the callee is native, and pushes a
frame if not. -/
inductive Called (x : Setting ν) (U : Array (CallSetup ν)) (F : Array Frame) :
    Except ScriptError Unit → Array (CallSetup ν) → Array Frame → Prop
  | answers {U₁ setup native} : U = U₁.push setup → setup.callee = .native native →
      Called x U F (.ok ()) U₁ F
  | enters {U₁ setup fn} : U = U₁.push setup → setup.callee = .script fn →
      F.size < x.limits.callDepth → Called x U F (.ok ()) U₁ (F.push ⟨fn, 0, setup.base⟩)
  | fails {e U₁} : U₁ = U ∨ U₁ = U.pop → Called x U F (.error e) U₁ F

/-- An array is empty or has a last element. -/
theorem eq_empty_or_push (a : Array α) : a = #[] ∨ ∃ (b : Array α) (v : α), a = b.push v := by
  rcases Nat.eq_zero_or_pos a.size with hzero | hpos
  · exact .inl (Array.size_eq_zero_iff.1 hzero)
  · exact .inr (Array.exists_push_of_size_pos hpos)

/-- A call takes a callee off and adds a frame at most. -/
theorem call_ends (natives : Natives ν σ) :
    Ends x S.size (Called x U F) (Step.call natives (x.machine S U F g k h)) := by
  -- The setup is off its stack whatever becomes of the call, so each failure below leaves `U`
  -- behind.
  rcases eq_empty_or_push U with rfl | ⟨U, setup, rfl⟩
  · exact ⟨rfl, id, .fails (.inl rfl)⟩
  · rw [Step.call, Attempt.bind_of_ok popSetup_push]
    have hfails {e : ScriptError} : Called x (U.push setup) F (.error e) U F :=
      .fails (.inr Array.pop_push.symm)
    cases hcallee : setup.callee with
    | native native =>
        refine (spares_callNative natives native setup.base (x.machine S U F g k h)).ends
          (Nat.le_refl _) ?_
        rcases (Step.callNative natives native setup.base (x.machine S U F g k h)).1 with e | _
        · exact hfails
        · exact .answers rfl hcallee
    | script fn =>
        simp only [Step.callScript, Attempt.get_bind]
        split
        · exact ⟨rfl, id, hfails⟩
        · rename_i hdepth
          have hspared := spares_adjustArguments fn.paramCount setup.base (x.machine S U F g k h)
          rcases hout : Exec.onStack (Step.adjustArguments fn.paramCount setup.base)
            (x.machine S U F g k h) with ⟨e | _, m'⟩
          · rw [hout] at hspared
            rw [Attempt.bind_of_error hout]
            exact hspared.ends (Nat.le_refl _) hfails
          · rw [hout] at hspared
            rw [Attempt.bind_of_ok hout]
            have hadjusted : Ends x S.size (fun _ U' F' => U' = U ∧ F' = F) (Except.ok (), m') :=
              hspared.ends (Nat.le_refl _) ⟨rfl, rfl⟩
            rcases hadjusted.outcome with ⟨hsetups, hframes⟩
            refine ⟨hadjusted.setting, hadjusted.room, ?_⟩
            show Called _ _ _ _ m'.vm.stack.setups (m'.vm.stack.frames.push ⟨fn, 0, setup.base⟩)
            rw [hsetups, hframes]
            exact .enters rfl hcallee (Nat.not_le.1 hdepth)

/-- A call from outside, with any operands on top of a callee that has just been resolved. -/
theorem outside_call_ends (natives : Natives ν σ) {m : Hosted ν σ} {name : String} {vm : Vm ν}
    (hvm : m.vm.loadFunction name = some vm) (values : List Value) :
    ∃ setup, m.vm.functions.get? (normalizeName name) = some setup.callee ∧
      Ends m.setting m.vm.stack.slots.size
        (Called m.setting (m.vm.stack.setups.push setup) m.vm.stack.frames)
        ((pushAll values >>= fun _ => Step.call natives) { m with vm := vm }) := by
  rcases loadFunction_eq_some hvm with ⟨callee, hcallee, heq⟩
  refine ⟨⟨normalizeName name, callee, m.vm.stack.slots.size⟩, hcallee, ?_⟩
  rw [heq]
  have hspared := spares_pushAll values
    (m.setting.machine m.vm.stack.slots
      (m.vm.stack.setups.push ⟨normalizeName name, callee, m.vm.stack.slots.size⟩)
      m.vm.stack.frames m.vm.globals m.vm.steps m.host)
  rcases pushAll_machine (x := m.setting) values m.vm.stack.slots with ⟨hok, _⟩ | ⟨own, hfull⟩
  · rw [hok] at hspared
    rw [Attempt.bind_of_ok hok]
    have hcall := call_ends natives (x := m.setting)
      (S := m.vm.stack.slots ++ values.toArray)
      (U := m.vm.stack.setups.push ⟨normalizeName name, callee, m.vm.stack.slots.size⟩)
      (F := m.vm.stack.frames) (g := m.vm.globals) (k := m.vm.steps) (h := m.host)
    exact ⟨hcall.setting, fun hroom => hcall.room (hspared.room hroom), hcall.outcome⟩
  · rw [hfull] at hspared
    rw [Attempt.bind_of_error hfull]
    exact ⟨rfl, hspared.room, .fails (.inl rfl)⟩

end Calls

/-! ## Instructions -/

/-- From index `ip` the instruction leads on to index `ip'` of the same activation. Instructions
that open or complete a call or return are not among these. -/
def leadsTo (op : Opcode) (ip ip' : Nat) : Prop :=
  match op with
  | .jump target => ip' = target
  | .jumpIfFalse target => ip' = ip + 1 ∨ ip' = target
  | .loadFunc _ | .call _ | .ret => False
  | _ => ip' = ip + 1

/-- What becomes of the setups `U` and of the frames, the innermost of which stands at instruction
`op` of `f` above the frames `G`. -/
inductive Moves (x : Setting ν) (op : Opcode) (f : Function) (ip base : Nat)
    (U : Array (CallSetup ν)) (G : Array Frame) :
    Except ScriptError Unit → Array (CallSetup ν) → Array Frame → Prop
  | goes {ip'} : leadsTo op ip ip' → Moves x op f ip base U G (.ok ()) U (G.push ⟨f, ip', base⟩)
  | opens {i name setup} : op = .loadFunc i → x.functions.get? name = some setup.callee →
      Moves x op f ip base U G (.ok ()) (U.push setup) (G.push ⟨f, ip + 1, base⟩)
  | calls {argc r U' F'} : op = .call argc → Called x U (G.push ⟨f, ip + 1, base⟩) r U' F' →
      Moves x op f ip base U G r U' F'
  | leaves {r} : op = .ret → Moves x op f ip base U G r U G
  | fails {e} : Moves x op f ip base U G (.error e) U (G.push ⟨f, ip + 1, base⟩)

section Instructions

variable {natives : Natives ν σ} {x : Setting ν} {f : Function} {op : Opcode} {ip base : Nat}
variable {S : Array Value} {U : Array (CallSetup ν)} {G : Array Frame}
variable {g : Store.Table Value} {k : Nat} {h : σ}

/-- An operation on operands alone moves the frame on, or fails behind the instruction. -/
theorem moves_of_spares {y : Exec ν σ Unit} (hspares : Spares y) (hop : leadsTo op ip (ip + 1)) :
    Ends x S.size (Moves x op f ip base U G)
      (y (x.machine S U (G.push ⟨f, ip + 1, base⟩) g k h)) := by
  refine (hspares (x.machine S U (G.push ⟨f, ip + 1, base⟩) g k h)).ends (Nat.le_refl _) ?_
  rcases (y (x.machine S U (G.push ⟨f, ip + 1, base⟩) g k h)).1 with e | _
  · exact .fails
  · exact .goes hop

/-- A condition that jumps moves the frame on, or to its target. -/
theorem moves_jumpIfFalse {target : Nat} :
    Ends x S.size (Moves x (.jumpIfFalse target) f ip base U G)
      (Step.execute natives f (.jumpIfFalse target)
        (x.machine S U (G.push ⟨f, ip + 1, base⟩) g k h)) := by
  rcases eq_empty_or_push S with rfl | ⟨S, v, rfl⟩
  · exact ⟨rfl, fun _ => Nat.zero_le _, .fails⟩
  · rw [execute_jumpIfFalse]
    refine ⟨rfl, fun hroom => ?_, .goes ?_⟩
    · rw [Array.size_push] at hroom
      exact Nat.le_of_succ_le hroom
    · cases v.isTruthy with
      | true => exact .inl rfl
      | false => exact .inr rfl

/-- A callee is looked up and waits. -/
theorem moves_loadFunc {i : Nat} :
    Ends x S.size (Moves x (.loadFunc i) f ip base U G)
      (Step.execute natives f (.loadFunc i)
        (x.machine S U (G.push ⟨f, ip + 1, base⟩) g k h)) := by
  cases hy : f.names[i]? with
  | none =>
      have hfails : Step.execute natives f (.loadFunc i)
          (x.machine S U (G.push ⟨f, ip + 1, base⟩) g k h) =
          (.error (.runtime (.nameRange i)), x.machine S U (G.push ⟨f, ip + 1, base⟩) g k h) := by
        simp only [Step.execute, Step.nameAt, hy]
        rfl
      rw [hfails]
      exact ⟨rfl, id, .fails⟩
  | some y =>
      cases hcallee : x.functions.get? (normalizeName y) with
      | none =>
          rw [execute_loadFunc_of_none hy hcallee]
          exact ⟨rfl, id, .fails⟩
      | some callee =>
          rw [execute_loadFunc_of_some hy hcallee]
          exact ⟨rfl, id, .opens rfl hcallee⟩

/-- A return takes the frame off. -/
theorem moves_ret :
    Ends x S.size (Moves x .ret f ip base U G)
      (Step.execute natives f .ret (x.machine S U (G.push ⟨f, ip + 1, base⟩) g k h)) := by
  rcases eq_empty_or_push S with rfl | ⟨S, v, rfl⟩
  · exact ⟨rfl, fun _ => Nat.zero_le _, .fails⟩
  · rw [execute_ret]
    refine (spares_push v (x.machine (S.take base) U G g k h)).ends ?_ (.leaves rfl)
    rw [machine_slots, Array.take_eq_extract, Array.size_extract, Array.size_push]
    omega

/-- Every instruction moves frames as it should. -/
theorem execute_moves :
    Ends x S.size (Moves x op f ip base U G)
      (Step.execute natives f op (x.machine S U (G.push ⟨f, ip + 1, base⟩) g k h)) := by
  have hsame {γ : Type} (r : Except ScriptError γ) :
      Spares (Attempt.ofExcept r : Exec ν σ γ) :=
    spares_of_same fun _ => rfl
  have hget : Spares (Attempt.get : Exec ν σ (Hosted ν σ)) := spares_of_same fun _ => rfl
  -- Most opcodes only move values, which spares setups and frames: they are put together from parts
  -- that spare them.
  cases op with
  | const i => exact moves_of_spares (spares_bind (hsame _) fun v => spares_push v) rfl
  | loadGlobal i =>
      exact moves_of_spares
        (spares_bind (hsame _) fun y => spares_bind hget fun m => spares_push _) rfl
  | storeGlobal i =>
      exact moves_of_spares
        (spares_bind (hsame _) fun y => spares_bind spares_pop fun v m => ⟨rfl, rfl, rfl, id⟩) rfl
  | loadLocal slot =>
      exact moves_of_spares
        (spares_bind hget fun m => spares_bind (hsame _) fun v => spares_push v) rfl
  | storeLocal slot =>
      exact moves_of_spares
        (spares_bind spares_pop fun v => spares_onStack (stackSpares_storeLocal slot v)) rfl
  | binary op =>
      exact moves_of_spares
        (spares_bind spares_pop fun b => spares_bind spares_pop fun a =>
          spares_bind (hsame _) fun v => spares_push v) rfl
  | prefixed op =>
      exact moves_of_spares
        (spares_bind spares_pop fun v => spares_bind (hsame _) fun w => spares_push w) rfl
  | jump target =>
      rw [execute_jump]
      exact ⟨rfl, id, .goes rfl⟩
  | jumpIfFalse target => exact moves_jumpIfFalse
  | loadFunc i => exact moves_loadFunc
  | call argc =>
      have hcall := call_ends natives (x := x) (S := S) (U := U) (F := G.push ⟨f, ip + 1, base⟩)
        (g := g) (k := k) (h := h)
      exact ⟨hcall.setting, hcall.room, .calls rfl hcall.outcome⟩
  | pop => exact moves_of_spares (spares_bind spares_pop fun _ => spares_of_same fun _ => rfl) rfl
  | ret => exact moves_ret

/-- What a step does that finds an instruction. -/
theorem step_moves (natives : Natives ν σ) (hop : f.code[ip]? = some op) :
    Ends x S.size (Moves x op f ip base U G)
      (step natives (x.machine S U (G.push ⟨f, ip, base⟩) g k h)) := by
  rw [step_fetch hop]
  exact execute_moves

/-- A move pushes a frame only if there is room for it. -/
theorem Moves.frames_le {U' : Array (CallSetup ν)} {F' : Array Frame}
    {r : Except ScriptError Unit} (h : Moves x op f ip base U G r U' F') :
    F'.size ≤ G.size + 1 ∨ F'.size ≤ x.limits.callDepth := by
  cases h with
  | goes _ => exact .inl (by simp)
  | opens _ _ => exact .inl (by simp)
  | calls _ hcalled =>
      cases hcalled with
      | answers _ _ => exact .inl (by simp)
      | enters _ _ hroom =>
          right
          rw [Array.size_push]
          exact hroom
      | fails _ => exact .inl (by simp)
  | leaves _ => exact .inl (Nat.le_succ _)
  | fails => exact .inl (by simp)

end Instructions

/-! ## Where functions come from -/

/-- The script functions that a machine knows all satisfy `P`. -/
def Vm.KnowsOnly (P : Function → Prop) (vm : Vm ν) : Prop :=
  ∀ name f, vm.functions.get? name = some (.script f) → P f

/-- Only the table of functions matters. -/
theorem Vm.KnowsOnly.congr {P : Function → Prop} {vm vm' : Vm ν} (hvm : vm.KnowsOnly P)
    (h : vm'.functions = vm.functions) : vm'.KnowsOnly P :=
  fun name f hf => hvm name f (h ▸ hf)

/-- Functions that are added have the property too. -/
theorem Vm.KnowsOnly.defineFunctions {P : Function → Prop} {vm : Vm ν} {fs : List Function}
    (hvm : vm.KnowsOnly P) (hfs : ∀ f ∈ fs, P f) : (vm.defineFunctions fs).KnowsOnly P := by
  induction fs generalizing vm with
  | nil => exact hvm
  | cons f rest ih =>
      have hdefined : (vm.defineFunction f).KnowsOnly P := by
        intro name g hg
        rw [Vm.defineFunction, Vm.define, Store.Table.get?_insert] at hg
        split at hg
        · cases hg
          exact hfs f List.mem_cons_self
        · exact hvm name g hg
      exact ih hdefined fun g hg => hfs g (List.mem_cons_of_mem f hg)

/-- What an execution on top of `o` has of functions satisfies `P`: those in the table, those that
wait to be called, and those of the frames. -/
structure Owned (P : Function → Prop) (o : Stack ν) (m : Hosted ν σ) : Prop where
  table : m.vm.KnowsOnly P
  setups : ∀ {i setup fn}, o.setups.size ≤ i → m.vm.stack.setups[i]? = some setup →
    setup.callee = .script fn → P fn
  frames : ∀ {i fr}, o.frames.size ≤ i → m.vm.stack.frames[i]? = some fr → P fr.function

section Owned

variable {P : Function → Prop} {natives : Natives ν σ} {o : Stack ν} {m m' : Hosted ν σ}

/-- The setting tells the limits. -/
theorem limits_eq_of_setting (h : m'.setting = m.setting) :
    m'.vm.limits = m.vm.limits ∧ m'.vm.stack.capacity = m.vm.stack.capacity :=
  ⟨congrArg Setting.limits h, congrArg Setting.capacity h⟩

/-- An element is the last one or was there before. -/
theorem getElem?_push_cases {a : Array α} {v w : α} {i : Nat} (h : (a.push v)[i]? = some w) :
    (i = a.size ∧ w = v) ∨ a[i]? = some w := by
  rw [Array.getElem?_push] at h
  split at h
  · rename_i hi
    exact .inl ⟨hi, (Option.some.inj h).symm⟩
  · exact .inr h

/-- A step goes from one form to another in this way. -/
theorem Ongoing.step_moves (natives : Natives ν σ) (h : Ongoing o m) :
    ∃ op f ip base G, f.code[ip]? = some op ∧ m.vm.stack.frames = G.push ⟨f, ip, base⟩ ∧
      Ends m.setting m.vm.stack.slots.size
        (Moves m.setting op f ip base m.vm.stack.setups G) (step natives m) := by
  rcases h.running with ⟨f, ip, base, table, s, G, hverified, hs, _, hframes⟩
  rcases hverified.fits hs with ⟨op, hop, _⟩
  have hm : m = m.setting.machine m.vm.stack.slots m.vm.stack.setups (G.push ⟨f, ip, base⟩)
      m.vm.globals m.vm.steps m.host := by
    rw [← hframes]
    rfl
  refine ⟨op, f, ip, base, G, hop, hframes, ?_⟩
  rw [congrArg (step natives) hm]
  exact Machine.step_moves natives hop

/-- What was there before is still there. -/
theorem Ongoing.kept (h : Ongoing o m) : Kept o m.vm.stack := by
  rcases h.running with ⟨f, ip, base, table, s, G, _, _, hactive, hframes⟩
  have hkept : Kept o ⟨_, _, G.push ⟨f, ip, base⟩, _⟩ := hactive.keptStacks
  rw [← hframes] at hkept
  exact ⟨hkept.slots, hkept.setups, hkept.frames⟩

theorem size_le_of_append {a b own : Array α} (h : b = a ++ own) : a.size ≤ b.size := by
  rw [h, Array.size_append]
  exact Nat.le_add_right _ _

/-- No callee that waited before is called. -/
theorem setups_le (h : Ongoing o m ∨ Finished o m) :
    o.setups.size ≤ m.vm.stack.setups.size := by
  have hkept : Kept o m.vm.stack := by
    rcases h with hongoing | hfinished
    · exact hongoing.kept
    · exact hfinished.kept.1
  rcases hkept.setups with ⟨own, hown⟩
  exact size_le_of_append hown

/-- A call takes its function from the table. -/
theorem Owned.called {U : Array (CallSetup ν)} {F : Array Frame}
    (hsetups : ∀ {i setup fn}, o.setups.size ≤ i → U[i]? = some setup →
      setup.callee = .script fn → P fn)
    (hframes : ∀ {i fr}, o.frames.size ≤ i → F[i]? = some fr → P fr.function)
    (hcalled : Called m.setting U F (.ok ()) m'.vm.stack.setups m'.vm.stack.frames)
    (hsetting : m'.setting = m.setting)
    (hle : o.setups.size ≤ m'.vm.stack.setups.size)
    (htable : m.vm.KnowsOnly P) : Owned P o m' := by
  have hknown : m'.vm.KnowsOnly P := htable.congr (congrArg Setting.functions hsetting)
  generalize hU' : m'.vm.stack.setups = U' at hcalled hle
  generalize hF' : m'.vm.stack.frames = F' at hcalled
  -- the setup that is taken was one that the execution owns, and what is below it stays
  cases hcalled with
  | answers hU _ =>
      subst hU
      refine ⟨hknown, fun hi hsetup => ?_, fun hi hfr => ?_⟩
      · exact hsetups hi (Function.getElem?_push_of_some (hU' ▸ hsetup))
      · exact hframes hi (hF' ▸ hfr)
  | @enters _ setup fn hU hfn _ =>
      subst hU
      have hentered : P fn := hsetups hle (by simp) hfn
      refine ⟨hknown, fun hi hsetup => ?_, fun hi hfr => ?_⟩
      · exact hsetups hi (Function.getElem?_push_of_some (hU' ▸ hsetup))
      · rcases getElem?_push_cases (hF' ▸ hfr) with ⟨_, rfl⟩ | hfr
        · exact hentered
        · exact hframes hi hfr

/-- Whatever an execution owns is drawn from the table and from what it began with. -/
theorem Owned.step (h : Owned P o m) (hongoing : Ongoing o m)
    (hstep : step natives m = (.ok (), m')) : Owned P o m' := by
  rcases hongoing.step_moves natives with ⟨op, f, ip, base, G, _, hframes, hends⟩
  have hle := setups_le (hongoing.step_ok hstep)
  have hlt := hongoing.frames_lt
  rw [hstep] at hends
  rw [hframes, Array.size_push] at hlt
  have hknown : m'.vm.KnowsOnly P := h.table.congr (congrArg Setting.functions hends.setting)
  have htop : m.vm.stack.frames[G.size]? = some ⟨f, ip, base⟩ := by
    rw [hframes]
    simp
  have hf : P f := h.frames (Nat.le_of_lt_succ hlt) htop
  -- What lies below the frame on top is as it was; the frame itself may only have moved on.
  have hbelow {i fr} (hi : o.frames.size ≤ i) (hfr : G[i]? = some fr) : P fr.function :=
    h.frames hi (hframes ▸ Function.getElem?_push_of_some hfr)
  have hmoved {i fr ip'} (hi : o.frames.size ≤ i)
      (hfr : (G.push ⟨f, ip', base⟩)[i]? = some fr) : P fr.function := by
    rcases getElem?_push_cases hfr with ⟨_, rfl⟩ | hfr
    · exact hf
    · exact hbelow hi hfr
  have houtcome := hends.outcome
  generalize hU' : m'.vm.stack.setups = U' at houtcome
  generalize hF' : m'.vm.stack.frames = F' at houtcome
  cases houtcome with
  | goes _ =>
      exact ⟨hknown, fun hi hsetup => h.setups hi (hU' ▸ hsetup),
        fun hi hfr => hmoved hi (hF' ▸ hfr)⟩
  | opens _ hcallee =>
      refine ⟨hknown, fun hi hsetup hfn => ?_, fun hi hfr => hmoved hi (hF' ▸ hfr)⟩
      rcases getElem?_push_cases (hU' ▸ hsetup) with ⟨_, rfl⟩ | hsetup
      · exact h.table _ _ (hcallee.trans (congrArg some hfn))
      · exact h.setups hi hsetup hfn
  | calls _ hcalled =>
      rw [← hU', ← hF'] at hcalled
      exact .called h.setups hmoved hcalled hends.setting hle h.table
  | leaves _ =>
      exact ⟨hknown, fun hi hsetup => h.setups hi (hU' ▸ hsetup),
        fun hi hfr => hbelow hi (hF' ▸ hfr)⟩

/-! ### Where an execution begins -/

/-- What has just begun owns the code of the unit and the functions that the unit declares. -/
theorem owned_of_beginSource {source : String} {mark : Mark} (hm : m.vm.KnowsOnly P)
    (hsource : ∀ compiled, compile m.vm.limits.nestingDepth source = .ok compiled →
      P compiled.main ∧ ∀ f ∈ compiled.functions, P f)
    (h : beginSource source m = (.ok mark, m')) : Owned P m.vm.stack m' := by
  rcases beginSource_eq_ok h with ⟨compiled, hcompile, _, _, rfl⟩
  rcases hsource compiled hcompile with ⟨hmain, hfunctions⟩
  refine ⟨hm.defineFunctions hfunctions, fun hi hsetup => ?_, fun hi hfr => ?_⟩
  · rw [machine_setups, Array.getElem?_eq_none hi] at hsetup
    cases hsetup
  · rcases getElem?_push_cases hfr with ⟨_, rfl⟩ | hfr
    · exact hmain
    · rw [Array.getElem?_eq_none hi] at hfr
      cases hfr

/-- The callee of a call from outside comes from the table. -/
theorem owned_of_outside_call {name : String} {vm : Vm ν} {values : List Value}
    (hm : m.vm.KnowsOnly P) (hvm : m.vm.loadFunction name = some vm)
    (h : (pushAll values >>= fun _ => Step.call natives) { m with vm := vm } = (.ok (), m')) :
    Owned P m.vm.stack m' := by
  rcases outside_call_ends natives hvm values with ⟨setup, hcallee, hends⟩
  rw [h] at hends
  -- A call from outside takes off its own setup only.
  have hle : m.vm.stack.setups.size ≤ m'.vm.stack.setups.size := by
    have houtcome := hends.outcome
    generalize m'.vm.stack.setups = U' at houtcome ⊢
    generalize m'.vm.stack.frames = F' at houtcome
    cases houtcome with
    | answers hU _ => exact Nat.le_of_eq (congrArg Array.size (Array.push_eq_push.1 hU).2)
    | enters hU _ _ => exact Nat.le_of_eq (congrArg Array.size (Array.push_eq_push.1 hU).2)
  refine .called (fun hi hsetup hfn => ?_) (fun hi hfr => ?_) hends.outcome hends.setting hle hm
  · rcases getElem?_push_cases hsetup with ⟨_, rfl⟩ | hsetup
    · exact hm _ _ (hcallee.trans (congrArg some hfn))
    · rw [Array.getElem?_eq_none hi] at hsetup
      cases hsetup
  · rw [Array.getElem?_eq_none hi] at hfr
    cases hfr

/-- If every source gives functions that satisfy `P`, then an execution owns none but such. -/
theorem Begins.owned (h : Begins natives m (.ok ()) m') (hm : m.vm.KnowsOnly P)
    (hsource : ∀ source compiled, compile m.vm.limits.nestingDepth source = .ok compiled →
      P compiled.main ∧ ∀ f ∈ compiled.functions, P f) : Owned P m.vm.stack m' := by
  cases h with
  | source h => exact owned_of_beginSource hm (hsource _) h
  | invoke hvm h =>
      rw [beginCall, pushTexts_eq_pushAll] at h
      exact owned_of_outside_call hm hvm h
  | call hvm h => exact owned_of_outside_call hm hvm h

/-- By induction over the steps: every function that is run is in the table, or is the unit
itself. -/
theorem Execution.owned (h : Execution natives m m') (hm : m.vm.KnowsOnly P)
    (hcompiled : m.vm.IsCompiled)
    (hsource : ∀ source compiled, compile m.vm.limits.nestingDepth source = .ok compiled →
      P compiled.main ∧ ∀ f ∈ compiled.functions, P f) : Owned P m.vm.stack m' := by
  induction h with
  | begun hbegins => exact hbegins.owned hm hsource
  | next hexecution hmore hstep ih => exact ih.step (hexecution.ongoing hcompiled hmore) hstep

end Owned

end Machine
end ScriptHost
