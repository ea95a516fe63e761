import ScriptHost.Machine.Invoke

/-!
# What one instruction does

Equations for the operations of the machine, each under the circumstances in which it is used. An
operand that is there is taken, a name or constant that is there is found; what is left open is
whether there is room for one more operand. The last section puts the instructions together with
the fetch, so that later modules need not look into `step` again.
-/

namespace ScriptHost

namespace Attempt

variable {ε σ α β : Type}

@[simp]
theorem pure_apply (a : α) (s : σ) : (pure a : Attempt ε σ α) s = (.ok a, s) :=
  rfl

/-- An error ends both, with the state as it is then. -/
theorem bind_apply (x : Attempt ε σ α) (f : α → Attempt ε σ β) (s : σ) :
    (x >>= f) s =
      match x s with
      | (.ok a, s) => f a s
      | (.error e, s) => (.error e, s) :=
  rfl

theorem bind_of_ok {x : Attempt ε σ α} {f : α → Attempt ε σ β} {s s' : σ} {a : α}
    (h : x s = (.ok a, s')) : (x >>= f) s = f a s' := by
  rw [bind_apply, h]

theorem bind_of_error {x : Attempt ε σ α} {f : α → Attempt ε σ β} {s s' : σ} {e : ε}
    (h : x s = (.error e, s')) : (x >>= f) s = (.error e, s') := by
  rw [bind_apply, h]

/-- Whoever looks at the state sees it. -/
theorem get_bind (f : σ → Attempt ε σ β) (s : σ) : ((get : Attempt ε σ σ) >>= f) s = f s s :=
  rfl

end Attempt

namespace Machine

open Script

variable {ν σ α β : Type}

/-! ## Machines by their parts -/

/-- What no instruction changes: the function table, the limits and the room for operands. -/
structure Setting (ν : Type) where
  functions : Store.Table (Callable ν)
  limits : Limits
  capacity : Nat

/-- The machine with the given operands, call setups, frames, globals and count of steps. -/
def Setting.machine (x : Setting ν) (slots : Array Value) (setups : Array (CallSetup ν))
    (frames : Array Frame) (globals : Store.Table Value) (steps : Nat) (host : σ) : Hosted ν σ :=
  ⟨⟨⟨slots, setups, frames, x.capacity⟩, x.functions, globals, x.limits, steps⟩, host⟩

/-- What a step does not change. -/
def Hosted.setting (m : Hosted ν σ) : Setting ν :=
  ⟨m.vm.functions, m.vm.limits, m.vm.stack.capacity⟩

section Parts

variable (x : Setting ν) (slots : Array Value) (setups : Array (CallSetup ν))
variable (frames : Array Frame) (globals : Store.Table Value) (steps : Nat) (host : σ)

@[simp]
theorem machine_slots :
    (x.machine slots setups frames globals steps host).vm.stack.slots = slots :=
  rfl

@[simp]
theorem machine_setups :
    (x.machine slots setups frames globals steps host).vm.stack.setups = setups :=
  rfl

@[simp]
theorem machine_frames :
    (x.machine slots setups frames globals steps host).vm.stack.frames = frames :=
  rfl

@[simp]
theorem machine_globals :
    (x.machine slots setups frames globals steps host).vm.globals = globals :=
  rfl

@[simp]
theorem machine_host : (x.machine slots setups frames globals steps host).host = host :=
  rfl

@[simp]
theorem machine_setting : (x.machine slots setups frames globals steps host).setting = x :=
  rfl

end Parts

variable {x : Setting ν} {S : Array Value} {U : Array (CallSetup ν)} {F : Array Frame}
variable {g : Store.Table Value} {k : Nat} {h : σ} {natives : Natives ν σ}

/-! ## Operands -/

theorem take_append_size {α : Type} (a own : Array α) : (a ++ own).take a.size = a := by
  rw [Array.take_eq_extract, Array.extract_append_left, Array.extract_size]

/-- With room the value is pushed. -/
theorem push_of_room {v : Value} (room : S.size < x.capacity) :
    Step.push v (x.machine S U F g k h) = (.ok (), x.machine (S.push v) U F g k h) := by
  simp [Step.push, Exec.onStack, Stack.push, Setting.machine, room]

/-- Without room the stack overflows. -/
theorem push_of_full {v : Value} (full : x.capacity ≤ S.size) :
    Step.push v (x.machine S U F g k h) = (.error .stackOverflow, x.machine S U F g k h) := by
  have hfull : ¬ S.size < x.capacity := Nat.not_lt.2 full
  simp [Step.push, Exec.onStack, Stack.push, Setting.machine, hfull]

/-- The value on top is taken. -/
theorem pop_of_push {v : Value} :
    Step.pop (x.machine (S.push v) U F g k h) = (.ok v, x.machine S U F g k h) := by
  simp [Step.pop, Exec.onStack, Stack.pop, Setting.machine]

/-- Pushes operands in order, as an embedder does before a call. -/
def pushAll : List Value → Exec ν σ Unit
  | [] => pure ()
  | v :: rest => do
      Step.push v
      pushAll rest

/-- All are pushed, or as many as there is room for. -/
theorem pushAll_machine (vs : List Value) (S : Array Value) :
    (pushAll vs (x.machine S U F g k h) = (.ok (), x.machine (S ++ vs.toArray) U F g k h) ∧
      S.size + vs.length ≤ max S.size x.capacity) ∨
    ∃ own : Array Value, pushAll vs (x.machine S U F g k h) =
      (.error .stackOverflow, x.machine (S ++ own) U F g k h) := by
  induction vs generalizing S with
  | nil =>
      left
      exact ⟨by simp [pushAll], Nat.le_max_left _ _⟩
  | cons v rest ih =>
      rw [pushAll]
      by_cases room : S.size < x.capacity
      · have happend (own : Array Value) : S.push v ++ own = S ++ (#[v] ++ own) := by
          rw [Array.push_eq_append, Array.append_assoc]
        rw [Attempt.bind_of_ok (push_of_room room)]
        -- if room runs out later, what has been pushed until then is part of the rest
        rcases ih (S.push v) with ⟨hok, hroom⟩ | ⟨own, hfull⟩
        · left
          refine ⟨by rw [hok]; simp, ?_⟩
          rw [Array.size_push] at hroom
          rw [List.length_cons]
          omega
        · right
          exact ⟨#[v] ++ own, by rw [hfull, happend]⟩
      · right
        refine ⟨#[], ?_⟩
        rw [Attempt.bind_of_error (push_of_full (Nat.not_lt.1 room)), Array.append_empty]

/-- Arguments from outside are strings. -/
theorem pushTexts_eq_pushAll (args : List String) :
    (pushTexts args : Exec ν σ Unit) = pushAll (args.map .text) := by
  induction args with
  | nil => rfl
  | cons s rest ih =>
      rw [pushTexts, ih]
      rfl

/-! ## The fetch -/

theorem modify_last (fr : Frame) (t : Frame → Frame) :
    (F.push fr).modify F.size t = F.push (t fr) := by
  apply Array.ext_getElem?
  intro i
  rw [Array.getElem?_modify, Array.getElem?_push, Array.getElem?_push]
  by_cases hi : i = F.size
  · simp [hi]
  · simp [hi, Ne.symm hi]

/-- The innermost frame is moved. -/
theorem setIp_push {c ip : Nat} {fr : Frame} :
    Stack.setIp ip ⟨S, U, F.push fr, c⟩ = ⟨S, U, F.push { fr with ip := ip }, c⟩ := by
  simp [Stack.setIp, modify_last]

/-- A step moves on before it executes. -/
theorem step_fetch {f : Function} {ip base : Nat} {op : Opcode} (hop : f.code[ip]? = some op) :
    step natives (x.machine S U (F.push ⟨f, ip, base⟩) g k h) =
      Step.execute natives f op (x.machine S U (F.push ⟨f, ip + 1, base⟩) g (k + 1) h) := by
  have hadvance :
      Exec.onStack Step.advance (x.machine S U (F.push ⟨f, ip, base⟩) g k h) =
        (.ok (f, ip), x.machine S U (F.push ⟨f, ip + 1, base⟩) g k h) := by
    simp only [Exec.onStack, Step.advance, Stack.currentFrame?, Setting.machine, Array.back?_push,
      setIp_push]
  rw [step, Attempt.bind_of_ok hadvance]
  simp only [hop]
  rfl

/-! ## Instructions that load and store -/

section Instructions

variable {f : Function} {fr : Frame} {i : Nat}

theorem execute_const {v : Value} (hv : f.constants[i]? = some v) {m : Hosted ν σ} :
    Step.execute natives f (.const i) m = Step.push v m := by
  simp only [Step.execute, Step.constantAt, hv]
  rfl

/-- A global that is not there is null. -/
theorem execute_loadGlobal {y : String} (hy : f.names[i]? = some y) :
    Step.execute natives f (.loadGlobal i) (x.machine S U F g k h) =
      Step.push ((g.get? y).getD .null) (x.machine S U F g k h) := by
  simp only [Step.execute, Step.nameAt, hy]
  rfl

/-- The value on top becomes that of the global. -/
theorem execute_storeGlobal {y : String} {v : Value} (hy : f.names[i]? = some y) :
    Step.execute natives f (.storeGlobal i) (x.machine (S.push v) U F g k h) =
      (.ok (), x.machine S U F (g.insert y v) k h) := by
  simp only [Step.execute, Step.nameAt, hy]
  exact Attempt.bind_of_ok pop_of_push

/-- A local is found above the base of its frame. -/
theorem localSlot_push {c slot : Nat} (hslot : slot < fr.function.paramCount)
    (hsize : fr.base + slot < S.size) :
    Stack.localSlot slot (⟨S, U, F.push fr, c⟩ : Stack ν) = .ok (fr.base + slot) := by
  simp [Stack.localSlot, Stack.currentFrame?, Nat.not_le.2 hslot, Nat.not_le.2 hsize]

theorem execute_loadLocal {slot : Nat} {v : Value} (hslot : slot < fr.function.paramCount)
    (hv : S[fr.base + slot]? = some v) :
    Step.execute natives f (.loadLocal slot) (x.machine S U (F.push fr) g k h) =
      Step.push v (x.machine S U (F.push fr) g k h) := by
  have hsize : fr.base + slot < S.size := (Array.getElem?_eq_some_iff.1 hv).1
  have hload : Stack.loadLocal slot (⟨S, U, F.push fr, x.capacity⟩ : Stack ν) = .ok v := by
    simp only [Stack.loadLocal, localSlot_push hslot hsize, hv]
  simp only [Step.execute, Attempt.get_bind, Setting.machine, hload]
  rfl

/-- The value on top becomes that of the local. -/
theorem execute_storeLocal {slot : Nat} {v : Value} (hslot : slot < fr.function.paramCount)
    (hsize : fr.base + slot < S.size) :
    Step.execute natives f (.storeLocal slot) (x.machine (S.push v) U (F.push fr) g k h) =
      (.ok (), x.machine (S.setIfInBounds (fr.base + slot) v) U (F.push fr) g k h) := by
  simp only [Step.execute]
  rw [Attempt.bind_of_ok pop_of_push]
  simp only [Exec.onStack, Stack.storeLocal, Setting.machine, localSlot_push hslot hsize]

theorem execute_pop {v : Value} :
    Step.execute natives f .pop (x.machine (S.push v) U F g k h) =
      (.ok (), x.machine S U F g k h) := by
  simp only [Step.execute]
  rw [Attempt.bind_of_ok pop_of_push]
  rfl

/-! ## Operators and jumps -/

/-- Two operands are taken, and the result is pushed. -/
theorem execute_binary {op : BinaryOp} {a b : Value} :
    Step.execute natives f (.binary op) (x.machine ((S.push a).push b) U F g k h) =
      match Step.binaryValue op a b with
      | .ok v => Step.push v (x.machine S U F g k h)
      | .error e => (.error e, x.machine S U F g k h) := by
  simp only [Step.execute]
  rw [Attempt.bind_of_ok pop_of_push, Attempt.bind_of_ok pop_of_push]
  cases Step.binaryValue op a b <;> rfl

/-- One operand is taken, and the result is pushed. -/
theorem execute_prefixed {op : PrefixOp} {v : Value} :
    Step.execute natives f (.prefixed op) (x.machine (S.push v) U F g k h) =
      match Step.prefixValue op v with
      | .ok w => Step.push w (x.machine S U F g k h)
      | .error e => (.error e, x.machine S U F g k h) := by
  simp only [Step.execute]
  rw [Attempt.bind_of_ok pop_of_push]
  cases Step.prefixValue op v <;> rfl

theorem jump_push {t : Nat} :
    Step.jump t (x.machine S U (F.push fr) g k h) =
      (.ok (), x.machine S U (F.push { fr with ip := t }) g k h) := by
  simp only [Step.jump, Exec.onStack, Attempt.modify, Setting.machine, setIp_push]

theorem execute_jump {t : Nat} :
    Step.execute natives f (.jump t) (x.machine S U (F.push fr) g k h) =
      (.ok (), x.machine S U (F.push { fr with ip := t }) g k h) :=
  jump_push

/-- The condition is taken whether it jumps or not. -/
theorem execute_jumpIfFalse {t : Nat} {v : Value} :
    Step.execute natives f (.jumpIfFalse t) (x.machine (S.push v) U (F.push fr) g k h) =
      (.ok (), x.machine S U (F.push { fr with ip := if v.isTruthy then fr.ip else t }) g k h) := by
  simp only [Step.execute]
  rw [Attempt.bind_of_ok pop_of_push]
  cases v.isTruthy with
  | true => rfl
  | false => simpa using jump_push

/-! ## Calls and returns -/

/-- A function that is there waits from now on. -/
theorem execute_loadFunc_of_some {y : String} {callee : Callable ν} (hy : f.names[i]? = some y)
    (hcallee : x.functions.get? (normalizeName y) = some callee) :
    Step.execute natives f (.loadFunc i) (x.machine S U F g k h) =
      (.ok (), x.machine S (U.push ⟨normalizeName y, callee, S.size⟩) F g k h) := by
  simp only [Step.execute, Step.nameAt, hy]
  show Step.loadFunc y _ = _
  simp only [Step.loadFunc, Vm.loadFunction, Setting.machine, hcallee]
  rfl

/-- A function that is not there is an error at once. -/
theorem execute_loadFunc_of_none {y : String} (hy : f.names[i]? = some y)
    (hcallee : x.functions.get? (normalizeName y) = none) :
    Step.execute natives f (.loadFunc i) (x.machine S U F g k h) =
      (.error (.unknownFunction y), x.machine S U F g k h) := by
  simp only [Step.execute, Step.nameAt, hy]
  show Step.loadFunc y _ = _
  simp only [Step.loadFunc, Vm.loadFunction, Setting.machine, hcallee]
  rfl

theorem popSetup_push {setup : CallSetup ν} :
    Exec.onStack Stack.popSetup (x.machine S (U.push setup) F g k h) =
      (.ok setup, x.machine S U F g k h) := by
  simp [Exec.onStack, Stack.popSetup, Setting.machine]

/-- A native function takes all that lies above the base of its call. -/
theorem call_native {y : String} {native : ν} {base : Nat} :
    Step.call natives (x.machine S (U.push ⟨y, .native native, base⟩) F g k h) =
      match natives native (S.drop base).toList h with
      | (.ok v, h) => Step.push v (x.machine (S.take base) U F g k h)
      | (.error e, h) => (.error e, x.machine (S.take base) U F g k h) := by
  rw [Step.call, Attempt.bind_of_ok popSetup_push]
  -- the operands are split where the arguments begin
  have hsplit :
      Exec.onStack (Stack.splitOff base) (x.machine S U F g k h) =
        (.ok (S.drop base).toList, x.machine (S.take base) U F g k h) :=
    rfl
  simp only [Step.callNative]
  rw [Attempt.bind_of_ok hsplit, Attempt.bind_apply]
  simp only [Exec.onHost, Setting.machine]
  rcases natives native (S.drop base).toList h with ⟨r, h'⟩
  cases r <;> rfl

/-- The operands after a call has been given exactly as many arguments as it takes. -/
def adjusted (S : Array Value) (base count : Nat) : Array Value :=
  S.take (base + count) ++ Array.replicate (base + count - S.size) .null

/-- Then there is a local for every parameter. -/
theorem size_adjusted (S : Array Value) (base count : Nat) :
    (adjusted S base count).size = base + count := by
  rw [adjusted, Array.size_append, Array.take_eq_extract, Array.size_extract,
    Array.size_replicate]
  omega

theorem onStack_fill (n : Nat) :
    (Exec.onStack (Step.adjustArguments.fill n) : Exec ν σ Unit) =
      pushAll (List.replicate n .null) := by
  induction n with
  | zero => rfl
  | succ n ih =>
      rw [Step.adjustArguments.fill, List.replicate_succ, pushAll, ← ih]
      -- the fill pushes on the bare stacks, the other side on the machine around them
      funext m
      simp only [Attempt.bind_apply, Step.push, Exec.onStack]
      rcases Stack.push .null m.vm.stack with ⟨r, s⟩
      cases r <;> rfl

/-- More arguments than parameters are only cut off, for which there is always room. -/
theorem adjustArguments_of_more {count base : Nat} (hcount : count < S.size - base) :
    Exec.onStack (Step.adjustArguments count base) (x.machine S U F g k h) =
      (.ok (), x.machine (adjusted S base count) U F g k h) := by
  have hmissing : base + count - S.size = 0 := by omega
  simp [Exec.onStack, Step.adjustArguments, Setting.machine, hcount, adjusted, hmissing]

/-- For the missing ones nulls are pushed, and all of them make the operands that the callee
wants. -/
theorem adjustArguments_of_less {count base : Nat} (hbase : base ≤ S.size)
    (hcount : ¬ count < S.size - base) :
    Exec.onStack (Step.adjustArguments count base) (x.machine S U F g k h) =
        pushAll (List.replicate (base + count - S.size) .null) (x.machine S U F g k h) ∧
      adjusted S base count = S ++ (List.replicate (base + count - S.size) .null).toArray := by
  have hmissing : count - (S.size - base) = base + count - S.size := by omega
  have htake : S.take (base + count) = S := by
    rw [Array.take_eq_extract, Array.extract_eq_self_of_le (by omega)]
  refine ⟨?_, by rw [adjusted, htake, List.toArray_replicate]⟩
  rw [← onStack_fill, ← hmissing]
  simp [Exec.onStack, Step.adjustArguments, Setting.machine, hcount]

/-- There is room for the missing ones, or the stack overflows. -/
theorem adjustArguments_machine (count : Nat) {base : Nat} (hbase : base ≤ S.size) :
    (Exec.onStack (Step.adjustArguments count base) (x.machine S U F g k h) =
        (.ok (), x.machine (adjusted S base count) U F g k h) ∧
      (base + count ≤ S.size ∨ base + count ≤ x.capacity)) ∨
    ∃ own, Exec.onStack (Step.adjustArguments count base) (x.machine S U F g k h) =
      (.error .stackOverflow, x.machine (S ++ own) U F g k h) := by
  by_cases hcount : count < S.size - base
  · exact .inl ⟨adjustArguments_of_more hcount, .inl (by omega)⟩
  · rcases adjustArguments_of_less (x := x) (U := U) (F := F) (g := g) (k := k) (h := h) hbase
      hcount with ⟨hfill, hadjusted⟩
    rw [hfill, hadjusted]
    rcases pushAll_machine (List.replicate (base + count - S.size) .null) S with
      ⟨hok, hroom⟩ | ⟨own, hfull⟩
    · rw [List.length_replicate] at hroom
      exact .inl ⟨hok, by omega⟩
    · exact .inr ⟨own, hfull⟩

/-- A script call fails for want of room, or it opens a frame above its adjusted arguments. -/
theorem call_script (natives : Natives ν σ) (y : String) (fn : Function) {base : Nat}
    (hbase : base ≤ S.size) :
    (x.limits.callDepth ≤ F.size ∧
      Step.call natives (x.machine S (U.push ⟨y, .script fn, base⟩) F g k h) =
        (.error (.callDepthExceeded x.limits.callDepth), x.machine S U F g k h)) ∨
    (∃ own, Step.call natives (x.machine S (U.push ⟨y, .script fn, base⟩) F g k h) =
        (.error .stackOverflow, x.machine (S ++ own) U F g k h)) ∨
    (Step.call natives (x.machine S (U.push ⟨y, .script fn, base⟩) F g k h) =
        (.ok (), x.machine (adjusted S base fn.paramCount) U (F.push ⟨fn, 0, base⟩) g k h) ∧
      (base + fn.paramCount ≤ S.size ∨ base + fn.paramCount ≤ x.capacity)) := by
  rw [Step.call, Attempt.bind_of_ok popSetup_push]
  simp only [Step.callScript, Attempt.get_bind]
  -- The depth of calls is checked before the room for the values.
  by_cases hdepth : x.limits.callDepth ≤ F.size
  · left
    refine ⟨hdepth, ?_⟩
    simp [Setting.machine, hdepth, Attempt.fail]
  · right
    have hbody : (x.machine S U F g k h).vm.limits.callDepth = x.limits.callDepth := rfl
    rw [hbody, machine_frames, if_neg hdepth]
    rcases adjustArguments_machine fn.paramCount hbase with ⟨hok, hroom⟩ | ⟨own, hfull⟩
    · right
      refine ⟨?_, hroom⟩
      rw [Attempt.bind_of_ok hok]
      rfl
    · left
      exact ⟨own, Attempt.bind_of_error hfull⟩

theorem execute_call {n : Nat} {m : Hosted ν σ} :
    Step.execute natives f (.call n) m = Step.call natives m :=
  rfl

/-- A return cuts the stack where its frame began, and pushes the value. -/
theorem execute_ret {v : Value} :
    Step.execute natives f .ret (x.machine (S.push v) U (F.push fr) g k h) =
      Step.push v (x.machine (S.take fr.base) U F g k h) := by
  simp only [Step.execute, Step.ret]
  have hframe :
      Exec.onStack Stack.popFrame (x.machine S U (F.push fr) g k h) =
        (.ok fr, x.machine (S.take fr.base) U F g k h) := by
    simp [Exec.onStack, Stack.popFrame, Setting.machine]
  rw [Attempt.bind_of_ok pop_of_push, Attempt.bind_of_ok hframe]

end Instructions

/-! ## How a unit or a call begins -/

theorem defineFunctions_eq (vm : Vm ν) (fs : List Function) :
    vm.defineFunctions fs = { vm with functions := (vm.defineFunctions fs).functions } := by
  induction fs generalizing vm with
  | nil => rfl
  | cons f rest ih => exact ih (vm.defineFunction f)

section Beginning

variable {m : Hosted ν σ} {source : String} {compiled : CompiledUnit}

/-- A source that does not compile leaves the machine alone. -/
theorem beginSource_of_error {e : CompileError}
    (h : compile m.vm.limits.nestingDepth source = .error e) :
    beginSource source m = (.error (.compile e), m) := by
  have hload : Exec.onVm (Vm.load source) m = (.error (.compile e), m) := by
    simp only [Exec.onVm, Vm.load, h]
  rw [beginSource, Attempt.bind_of_error hload]

/-- The machine once the functions of a unit have been registered. -/
def Hosted.loaded (m : Hosted ν σ) (compiled : CompiledUnit) : Hosted ν σ :=
  { m with vm.functions := (m.vm.defineFunctions compiled.functions).functions }

/-- Loading defines the functions of the unit. -/
theorem onVm_load (h : compile m.vm.limits.nestingDepth source = .ok compiled) :
    Exec.onVm (Vm.load source) m = (.ok compiled.main, m.loaded compiled) := by
  simp only [Exec.onVm, Vm.load, h]
  rw [defineFunctions_eq]
  rfl

/-- Without room for a frame the unit is loaded and not run. -/
theorem beginSource_of_full (h : compile m.vm.limits.nestingDepth source = .ok compiled)
    (full : m.vm.limits.callDepth ≤ m.vm.stack.frames.size) :
    beginSource source m =
      (.error (.callDepthExceeded m.vm.limits.callDepth), m.loaded compiled) := by
  have hroom : roomForCall (m.loaded compiled) =
      (.error (.callDepthExceeded m.vm.limits.callDepth), m.loaded compiled) :=
    if_pos full
  rw [beginSource, Attempt.bind_of_ok (onVm_load h), Attempt.bind_of_error hroom]

/-- With room it is about to run. -/
theorem beginSource_of_room (h : compile m.vm.limits.nestingDepth source = .ok compiled)
    (room : m.vm.stack.frames.size < m.vm.limits.callDepth) :
    beginSource source m =
      (.ok m.vm.mark,
        (m.loaded compiled).setting.machine m.vm.stack.slots m.vm.stack.setups
          (m.vm.stack.frames.push ⟨compiled.main, 0, m.vm.stack.slots.size⟩) m.vm.globals
          m.vm.steps m.host) := by
  have hroom : roomForCall (m.loaded compiled) = (.ok m.vm.mark, m.loaded compiled) :=
    if_neg (Nat.not_le.2 room)
  rw [beginSource, Attempt.bind_of_ok (onVm_load h), Attempt.bind_of_ok hroom]
  rfl

theorem beginSource_eq_ok {mark : Mark} {m' : Hosted ν σ}
    (h : beginSource source m = (.ok mark, m')) :
    ∃ compiled, compile m.vm.limits.nestingDepth source = .ok compiled ∧
      m.vm.stack.frames.size < m.vm.limits.callDepth ∧ mark = m.vm.mark ∧
      m' = (m.loaded compiled).setting.machine m.vm.stack.slots m.vm.stack.setups
        (m.vm.stack.frames.push ⟨compiled.main, 0, m.vm.stack.slots.size⟩) m.vm.globals
        m.vm.steps m.host := by
  cases hcompile : compile m.vm.limits.nestingDepth source with
  | error e =>
      rw [beginSource_of_error hcompile] at h
      cases h
  | ok compiled =>
      by_cases full : m.vm.limits.callDepth ≤ m.vm.stack.frames.size
      · rw [beginSource_of_full hcompile full] at h
        cases h
      · rw [beginSource_of_room hcompile (Nat.not_le.1 full)] at h
        cases h
        exact ⟨compiled, rfl, Nat.not_le.1 full, rfl, rfl⟩

/-- These are the only reasons why a source does not begin. -/
theorem beginSource_eq_error {e : ScriptError} {m' : Hosted ν σ}
    (h : beginSource source m = (.error e, m')) :
    (∃ fault, compile m.vm.limits.nestingDepth source = .error fault ∧ e = .compile fault ∧
      m' = m) ∨
    ∃ compiled, compile m.vm.limits.nestingDepth source = .ok compiled ∧
      e = .callDepthExceeded m.vm.limits.callDepth ∧ m' = m.loaded compiled := by
  cases hcompile : compile m.vm.limits.nestingDepth source with
  | error fault =>
      rw [beginSource_of_error hcompile] at h
      cases h
      exact .inl ⟨fault, rfl, rfl, rfl⟩
  | ok compiled =>
      by_cases full : m.vm.limits.callDepth ≤ m.vm.stack.frames.size
      · rw [beginSource_of_full hcompile full] at h
        cases h
        exact .inr ⟨compiled, rfl, rfl, rfl⟩
      · rw [beginSource_of_room hcompile (Nat.not_le.1 full)] at h
        cases h

end Beginning

theorem loadFunction_eq_some {m : Hosted ν σ} {name : String} {vm : Vm ν}
    (h : m.vm.loadFunction name = some vm) :
    ∃ callee, m.vm.functions.get? (normalizeName name) = some callee ∧
      ({ m with vm := vm } : Hosted ν σ) =
        m.setting.machine m.vm.stack.slots
          (m.vm.stack.setups.push ⟨normalizeName name, callee, m.vm.stack.slots.size⟩)
          m.vm.stack.frames m.vm.globals m.vm.steps m.host := by
  rcases Option.map_eq_some_iff.1 h with ⟨callee, hcallee, rfl⟩
  exact ⟨callee, hcallee, rfl⟩

/-! ## Loops over instructions -/

section Loops

variable {m m' : Hosted ν σ} {depth : Nat}

/-- One instruction of the budget. -/
theorem runUntil_of_step (habove : depth < m.vm.stack.frames.size)
    (hstep : step natives m = (.ok (), m')) (budget : Nat) :
    runUntil natives depth (budget + 1) m = runUntil natives depth budget m' := by
  rw [runUntil, if_neg (Nat.not_le.2 habove), hstep]

theorem runUntil_of_error {e : ScriptError} (habove : depth < m.vm.stack.frames.size)
    (hstep : step natives m = (.error e, m')) (budget : Nat) :
    runUntil natives depth (budget + 1) m = some (.error e, m') := by
  rw [runUntil, if_neg (Nat.not_le.2 habove), hstep]

/-- A run that is over takes no budget. -/
theorem runUntil_of_le (hdepth : m.vm.stack.frames.size ≤ depth) (budget : Nat) :
    runUntil natives depth budget m = some (.ok (), m) := by
  unfold runUntil
  exact if_pos hdepth

/-- What every step above the depth keeps up holds where the loop ends, or where the step is taken
that fails. -/
theorem runUntil_ends {P : Hosted ν σ → Prop} {budget : Nat} {r : Except ScriptError Unit}
    (hnext : ∀ m m', P m → depth < m.vm.stack.frames.size → step natives m = (.ok (), m') → P m')
    (hm : P m) (hrun : runUntil natives depth budget m = some (r, m')) :
    (r = .ok () ∧ P m' ∧ m'.vm.stack.frames.size ≤ depth) ∨
    ∃ e m₁, r = .error e ∧ P m₁ ∧ depth < m₁.vm.stack.frames.size ∧
      step natives m₁ = (.error e, m') := by
  -- `P` is carried along the steps; the run ends at the depth or with the step that fails.
  induction budget generalizing m with
  | zero =>
      by_cases hmore : depth < m.vm.stack.frames.size
      · rw [runUntil, if_neg (Nat.not_le.2 hmore)] at hrun
        cases hrun
      · have hless := Nat.not_lt.1 hmore
        rw [runUntil_of_le hless] at hrun
        cases hrun
        exact .inl ⟨rfl, hm, hless⟩
  | succ budget ih =>
      by_cases hmore : depth < m.vm.stack.frames.size
      · rcases hstep : step natives m with ⟨e | _, m₁⟩
        · rw [runUntil_of_error hmore hstep] at hrun
          cases hrun
          exact .inr ⟨e, m, rfl, hm, hmore, hstep⟩
        · rw [runUntil_of_step hmore hstep] at hrun
          exact ih (hnext m m₁ hm hmore hstep) hrun
      · have hless := Nat.not_lt.1 hmore
        rw [runUntil_of_le hless] at hrun
        cases hrun
        exact .inl ⟨rfl, hm, hless⟩

end Loops

/-! ## How a unit or a call ends -/

section Ending

variable {m m' : Hosted ν σ} {budget : Nat}

/-- A unit is refused, or it runs until an error or until its result can be taken off, and is cut
back in either case. -/
theorem runSource_eq_some {source : String} {r : Except ScriptError Value}
    (h : runSource natives budget source m = some (r, m')) :
    (∃ e, beginSource source m = (.error e, m') ∧ r = .error e) ∨
    ∃ mark m₁ r₂ m₂, beginSource source m = (.ok mark, m₁) ∧
      runUntil natives mark.frames budget m₁ = some (r₂, m₂) ∧
      ((∃ e, r₂ = .error e ∧ r = .error e ∧ m' = { m₂ with vm := m₂.vm.restore mark }) ∨
        r₂ = .ok () ∧ ∃ m₃, Step.pop m₂ = (r, m₃) ∧ m' = { m₃ with vm := m₃.vm.restore mark }) := by
  unfold runSource at h
  rcases hbegin : beginSource source m with ⟨e | mark, m₁⟩
  · rw [hbegin] at h
    cases h
    exact .inl ⟨e, rfl, rfl⟩
  · refine .inr ⟨mark, m₁, ?_⟩
    -- Three ways to end: no budget, an error on the way, or a return whose value is on top.
    rcases hrun : runUntil natives mark.frames budget m₁ with _ | ⟨e | _, m₂⟩
    · simp only [hbegin, hrun, followedBy, restoring] at h
      cases h
    · simp only [hbegin, hrun, followedBy, restoring] at h
      cases h
      exact ⟨_, m₂, rfl, rfl, .inl ⟨e, rfl, rfl, rfl⟩⟩
    · simp only [hbegin, hrun, followedBy, restoring] at h
      cases h
      exact ⟨_, m₂, rfl, rfl, .inr ⟨rfl, _, rfl, rfl⟩⟩

/-- A call from outside comes to nothing, or it runs and is cut back. -/
theorem invoke_eq_some {name : String} {args : List String} {outcome : Invocation}
    (h : invoke natives budget name args m = some (outcome, m')) :
    m' = m ∨
    ∃ vm r m₁, m.vm.loadFunction name = some vm ∧
      completeCall natives budget m.vm.mark.frames args { m with vm := vm } = some (r, m₁) ∧
      m' = { m₁ with vm := m₁.vm.restore m.vm.mark } := by
  unfold invoke at h
  split at h
  · cases h
    exact .inl rfl
  · cases hvm : m.vm.loadFunction name with
    | none =>
        rw [hvm] at h
        cases h
        exact .inl rfl
    | some vm =>
        right
        rcases hcomplete : completeCall natives budget m.vm.mark.frames args { m with vm := vm }
          with _ | ⟨r, m₁⟩
        · simp only [hvm, hcomplete, restoring] at h
          cases h
        · simp only [hvm, hcomplete, restoring] at h
          cases h
          exact ⟨vm, r, m₁, rfl, hcomplete, rfl⟩

end Ending

end Machine
end ScriptHost
