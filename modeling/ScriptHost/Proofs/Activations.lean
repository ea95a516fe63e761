import ScriptHost.Proofs.Literals
import ScriptHost.Proofs.Runs

/-!
# Activations

While a tree is evaluated, the machine stands in an activation: the locals of the evaluation lie on
the stack right above what belongs to the callers, and what belongs to the expressions around lies
above the locals. Each rule below is about one instruction of an activation and tells which part of
an evaluation the machine follows by it.
-/

namespace ScriptHost

/-! ## Locals -/

namespace Evaluation

open Script

/-- The locals as they lie on the stack. -/
def valuesOf (locals : Locals) : Array Value :=
  (locals.map Prod.snd).toArray

/-- The locals bear the names of the parameters, in their order. -/
theorem names_bindArguments (params : List String) (args : List Value) :
    (bindArguments params args).map Prod.fst = params := by
  induction params generalizing args with
  | nil => rfl
  | cons p params ih =>
      cases args with
      | nil => rw [bindArguments, List.map_cons, ih]
      | cons v args => rw [bindArguments, List.map_cons, ih]

/-- Arguments that are too many are dropped, and those that are missing are null. -/
theorem values_bindArguments (params : List String) (args : List Value) :
    (bindArguments params args).map Prod.snd =
      args.take params.length ++ List.replicate (params.length - args.length) .null := by
  induction params generalizing args with
  | nil => simp [bindArguments]
  | cons p params ih =>
      cases args with
      | nil => simp [bindArguments, ih, List.replicate_succ]
      | cons v args => simp [bindArguments, ih]

/-- A local stands at the index that its name has among the parameters, for reading and for
writing. -/
theorem local_of_idxOf? {locals : Locals} {name : String} {slot : Nat}
    (h : (locals.map Prod.fst).idxOf? name = some slot) :
    (∃ w, Store.Table.lookup name locals = some w ∧ locals[slot]? = some (name, w)) ∧
      ∀ v, Store.Table.put name v locals = locals.set slot (name, v) := by
  induction locals generalizing slot with
  | nil => cases h
  | cons e rest ih =>
      rcases e with ⟨p, w⟩
      rw [List.map_cons, List.idxOf?_cons] at h
      -- the first parameter of the name counts for both
      by_cases hp : p = name
      · subst hp
        rw [if_pos (beq_self_eq_true p), Option.some.injEq] at h
        subst h
        exact ⟨⟨w, by simp [Store.Table.lookup]⟩, fun v => by simp [Store.Table.put]⟩
      · rw [if_neg (by simpa using hp)] at h
        rcases Option.map_eq_some_iff.1 h with ⟨slot, hslot, rfl⟩
        rcases ih hslot with ⟨⟨u, hlookup, hat⟩, hput⟩
        refine ⟨⟨u, ?_, hat⟩, ?_⟩
        · rw [Store.Table.lookup, if_neg hp, hlookup]
        · intro v
          rw [Store.Table.put, if_neg hp, hput, List.set_cons_succ]

/-- What is no parameter is no local. -/
theorem lookup_of_idxOf?_eq_none {locals : Locals} {name : String}
    (h : (locals.map Prod.fst).idxOf? name = none) : Store.Table.lookup name locals = none := by
  rw [List.idxOf?_eq_none_iff] at h
  induction locals with
  | nil => rfl
  | cons e rest ih =>
      rcases e with ⟨p, w⟩
      rw [List.map_cons, List.mem_cons, not_or] at h
      rw [Store.Table.lookup, if_neg (Ne.symm h.1), ih h.2]

/-- An assignment changes a value and no name. -/
theorem names_set {locals : Locals} {name : String} {slot : Nat} {v : Value}
    (h : ∃ w, locals[slot]? = some (name, w)) :
    (locals.set slot (name, v)).map Prod.fst = locals.map Prod.fst := by
  rcases h with ⟨w, hw⟩
  rw [List.map_set]
  apply List.ext_getElem?
  intro i
  rw [List.getElem?_set]
  split
  · rename_i hi
    subst hi
    have hlt : slot < locals.length := (List.getElem?_eq_some_iff.1 hw).1
    rw [if_pos (by rwa [List.length_map]), List.getElem?_map, hw]
    rfl
  · rfl

end Evaluation

namespace Machine

open Script Evaluation

variable {ν σ : Type}

/-- The entry of the function table for a definition. -/
def callableOf : Definition ν → Callable ν
  | .declared d => .script d.compile
  | .native native => .native native

/-- The machine adjusts the arguments as the evaluation binds them. -/
theorem adjusted_append (S : Array Value) (params : List String) (args : List Value) :
    adjusted (S ++ args.toArray) S.size params.length =
      S ++ valuesOf (bindArguments params args) := by
  have htake : (S ++ args.toArray).take (S.size + params.length) =
      S ++ (args.take params.length).toArray := by
    rw [Array.take_eq_extract, Array.extract_append, Array.extract_eq_self_of_le (by omega),
      Nat.zero_sub, Nat.add_sub_cancel_left]
    simp
  have hmissing : S.size + params.length - (S ++ args.toArray).size =
      params.length - args.length := by
    simp [Nat.add_sub_add_left]
  calc
    adjusted (S ++ args.toArray) S.size params.length
        = S ++ (args.take params.length).toArray ++
            Array.replicate (params.length - args.length) .null := by
          rw [adjusted, htake, hmissing]
    _ = S ++ (args.take params.length ++
            List.replicate (params.length - args.length) Value.null).toArray := by
          rw [Array.append_assoc, ← List.append_toArray, List.toArray_replicate]
    _ = S ++ valuesOf (bindArguments params args) := by
          rw [valuesOf, values_bindArguments]

/-! ## Activations -/

/-- An activation of a function: what lies below its locals and the frames below its own. -/
structure Activation where
  function : Function
  below : Array Value
  callers : Array Frame

/-- The machine at an instruction of an activation, with so many operands above the locals. -/
def Activation.machine (a : Activation) (x : Setting ν) (ip : Nat) (locals : Locals)
    (operands : Array Value) (setups : Array (CallSetup ν)) (w : World σ) (steps : Nat) :
    Hosted ν σ :=
  x.machine (a.below ++ valuesOf locals ++ operands) setups
    (a.callers.push ⟨a.function, ip, a.below.size⟩) w.globals steps w.host

section Instructions

variable {natives : Natives ν σ} {x : Setting ν} {depth n : Nat} {a : Activation}
variable {ip k : Nat} {locals : Locals} {T : Array Value} {U : Array (CallSetup ν)}
variable {w : World σ} {m : Hosted ν σ} {v : Value}

/-- The machine stands at an instruction of the activation, in the given world. -/
def Activation.At (a : Activation) (x : Setting ν) (ip : Nat) (locals : Locals)
    (operands : Array Value) (setups : Array (CallSetup ν)) (w : World σ) (m : Hosted ν σ) : Prop :=
  ∃ steps, m = a.machine x ip locals operands setups w steps

/-- The activation is gone and has left its result to the caller. -/
def Activation.Left (a : Activation) (x : Setting ν) (setups : Array (CallSetup ν)) (v : Value)
    (w : World σ) (m : Hosted ν σ) : Prop :=
  ∃ steps, m = x.machine (a.below.push v) setups a.callers w.globals steps w.host

/-- An activation stands above every frame of its callers. -/
theorem above_machine (hdepth : depth ≤ a.callers.size) :
    depth < (a.machine x ip locals T U w k).vm.stack.frames.size := by
  rw [Activation.machine, machine_frames, Array.size_push]
  omega

theorem Activation.At.above (hat : a.At x ip locals T U w m)
    (hdepth : depth ≤ a.callers.size) : depth < m.vm.stack.frames.size := by
  rcases hat with ⟨k, rfl⟩
  exact above_machine hdepth

/-- A step takes the instruction at the pointer. -/
theorem step_machine {op : Opcode} (hop : a.function.code[ip]? = some op) :
    step natives (a.machine x ip locals T U w k) =
      Step.execute natives a.function op (a.machine x (ip + 1) locals T U w (k + 1)) :=
  step_fetch hop

/-- A new activation has what its caller has on the stack below it. -/
theorem machine_push :
    a.machine x ip locals (T.push v) U w k =
      x.machine ((a.below ++ valuesOf locals ++ T).push v) U
        (a.callers.push ⟨a.function, ip, a.below.size⟩) w.globals k w.host := by
  rw [Activation.machine, Array.append_push]

/-- An instruction that ends in pushing a value. -/
theorem follows_push {ip' j : Nat} (habove : depth < m.vm.stack.frames.size)
    (hstep : step natives m = Step.push v (a.machine x ip' locals T U w j)) :
    Follows natives depth n m (fun v w m => a.At x ip' locals (T.push v) U w m)
      (some (.ok v, w)) := by
  by_cases room : (a.below ++ valuesOf locals ++ T).size < x.capacity
  · rw [Activation.machine, push_of_room room] at hstep
    exact .inr ⟨1, _, goes_of_step habove hstep, j, by rw [machine_push]⟩
  · rw [Activation.machine, push_of_full (Nat.not_lt.1 room)] at hstep
    -- no room: an evaluation knows nothing of that
    exact .inl (exceeds_of_step habove hstep trivial)

/-- Where a local lies on the stack. -/
theorem getElem?_local {slot : Nat} {y : String} (h : locals[slot]? = some (y, v)) :
    (a.below ++ valuesOf locals ++ T)[a.below.size + slot]? = some v := by
  have hlt : slot < (valuesOf locals).size := by
    simpa [valuesOf] using (List.getElem?_eq_some_iff.1 h).1
  rw [Array.append_assoc, Array.getElem?_append_right (Nat.le_add_right _ _),
    Nat.add_sub_cancel_left, Array.getElem?_append_left hlt]
  simp [valuesOf, h]

variable {f : Function} {params : List String}

/-- A literal is pushed as a constant. -/
theorem follows_literal (hdepth : depth ≤ a.callers.size) (hplain : a.function.IsPlain)
    (hv : v.IsPlain) (hF : Function.Extends (f.emitConstant v) a.function)
    (hat : a.At x f.code.size locals T U w m) :
    Follows natives depth n m
      (fun v w m => a.At x (f.code.size + 1) locals (T.push v) U w m) (some (.ok v, w)) := by
  rcases hat with ⟨k, rfl⟩
  have hop := hF.code (Function.getElem?_code_emit (f.addConstant v).1 (.const (f.addConstant v).2))
  rw [Function.code_addConstant] at hop
  have hpool := Function.getElem?_addConstant_of_isPlain hplain hv
    ((Function.extends_emit _ _).trans hF)
  exact follows_push (above_machine hdepth) ((step_machine hop).trans (execute_const hpool))

/-- A name is read from its local, or from the globals. -/
theorem follows_readName (hdepth : depth ≤ a.callers.size) {y : String}
    (hparams : a.function.paramCount = params.length) (hnames : locals.map Prod.fst = params)
    (hF : Function.Extends (f.emitLoad params y) a.function)
    (hat : a.At x f.code.size locals T U w m) :
    Follows natives depth n m
      (fun v w m => a.At x (f.code.size + 1) locals (T.push v) U w m)
      (readName locals y w) := by
  rcases hat with ⟨k, rfl⟩
  unfold Function.emitLoad at hF
  split at hF
  · -- a parameter
    rename_i slot hslot
    have hop := hF.code (Function.getElem?_code_emit f (.loadLocal slot))
    subst hnames
    rcases local_of_idxOf? hslot with ⟨⟨v, hlookup, hlocal⟩, _⟩
    have hcount : slot < a.function.paramCount := by
      rw [hparams, List.length_map]
      exact (List.getElem?_eq_some_iff.1 hlocal).1
    have hread : readName locals y w = some (.ok v, w) := by
      rw [readName, hlookup]
      rfl
    rw [hread]
    exact follows_push (above_machine hdepth)
      ((step_machine hop).trans (execute_loadLocal hcount (getElem?_local hlocal)))
  · -- a global, which is null as long as it has not been written
    rename_i hslot
    have hop := hF.code (Function.getElem?_code_emit (f.addName y).1 (.loadGlobal (f.addName y).2))
    rw [Function.code_addName] at hop
    have hpool := hF.names ((Function.extends_emit _ _).names (f.getElem?_addName y))
    have hread : readName locals y w = some (.ok ((w.globals.get? y).getD .null), w) := by
      rw [readName, lookup_of_idxOf?_eq_none (hnames ▸ hslot)]
      rfl
    rw [hread]
    exact follows_push (above_machine hdepth)
      ((step_machine hop).trans (execute_loadGlobal hpool))

/-- An instruction that replaces its operands by a value or fails. -/
theorem follows_ofExcept {ip' j : Nat} {r : Except ScriptError Value}
    (habove : depth < m.vm.stack.frames.size)
    (hstep : step natives m =
      match r with
      | .ok v => Step.push v (a.machine x ip' locals T U w j)
      | .error e => (.error e, a.machine x ip' locals T U w j)) :
    Follows natives depth n m (fun v w m => a.At x ip' locals (T.push v) U w m)
      (ofExcept r w) := by
  cases r with
  | ok v => exact follows_push habove hstep
  | error e => exact follows_fails habove hstep

/-- A prefix operator replaces the value on top. -/
theorem follows_prefixed {op : PrefixOp} (hdepth : depth ≤ a.callers.size)
    (hop : a.function.code[ip]? = some (.prefixed op))
    (hat : a.At x ip locals (T.push v) U w m) :
    Follows natives depth n m (fun v w m => a.At x (ip + 1) locals (T.push v) U w m)
      (ofExcept (Step.prefixValue op v) w) := by
  rcases hat with ⟨k, rfl⟩
  refine follows_ofExcept (above_machine hdepth) (j := k + 1) ?_
  rw [step_machine hop, machine_push]
  exact execute_prefixed

/-- A binary operator takes two values and leaves one. -/
theorem follows_binary {op : BinaryOp} {v' : Value} (hdepth : depth ≤ a.callers.size)
    (hop : a.function.code[ip]? = some (.binary op))
    (hat : a.At x ip locals ((T.push v).push v') U w m) :
    Follows natives depth n m (fun v w m => a.At x (ip + 1) locals (T.push v) U w m)
      (ofExcept (Step.binaryValue op v v') w) := by
  rcases hat with ⟨k, rfl⟩
  refine follows_ofExcept (above_machine hdepth) (j := k + 1) ?_
  rw [step_machine hop, machine_push, Array.append_push]
  exact execute_binary

/-! ## Callees -/

/-- The setup of a callee that has just been resolved in the activation. -/
def Activation.setup (a : Activation) (locals : Locals) (T : Array Value) (y : String)
    (definition : Definition ν) : CallSetup ν :=
  ⟨normalizeName y, callableOf definition, (a.below ++ valuesOf locals ++ T).size⟩

/-- A callee is found by the machine if the evaluation finds it, and as the same function. -/
theorem follows_resolve {defs : Definitions ν} {y : String} (hdepth : depth ≤ a.callers.size)
    (hdefs : ∀ name, x.functions.get? name = (defs.get? name).map callableOf)
    (hF : Function.Extends (f.emitCallee y) a.function)
    (hat : a.At x f.code.size locals T U w m) :
    Follows natives depth n m
      (fun definition w m => defs.get? (normalizeName y) = some definition ∧
        a.At x (f.code.size + 1) locals T (U.push (a.setup locals T y definition)) w m)
      (resolve defs y w) := by
  rcases hat with ⟨k, rfl⟩
  have hop := hF.code (Function.getElem?_code_emit (f.addName y).1 (.loadFunc (f.addName y).2))
  rw [Function.code_addName] at hop
  have hpool := hF.names ((Function.extends_emit _ _).names (f.getElem?_addName y))
  have hfunction := hdefs (normalizeName y)
  -- The evaluator knows declarations and the machine compiled functions; the name is found in both
  -- or in neither.
  cases hdefinition : defs.get? (normalizeName y) with
  | none =>
      rw [hdefinition] at hfunction
      have hresolve : resolve defs y w = some (.error (.unknownFunction y), w) := by
        rw [resolve, hdefinition]
        rfl
      rw [hresolve]
      exact follows_fails (above_machine hdepth)
        ((step_machine hop).trans (execute_loadFunc_of_none hpool hfunction))
  | some definition =>
      rw [hdefinition] at hfunction
      have hresolve : resolve defs y w = some (.ok definition, w) := by
        rw [resolve, hdefinition]
        rfl
      rw [hresolve]
      exact .inr ⟨1, _, goes_of_step (above_machine hdepth)
        ((step_machine hop).trans (execute_loadFunc_of_some hpool hfunction)), rfl, k + 1, rfl⟩

/-! ## Instructions of statements -/

/-- Where the machine is when a flow has come about whose next statement begins at `ip`. -/
def Activation.Ends (a : Activation) (x : Setting ν) (params : List String)
    (setups : Array (CallSetup ν)) (ip : Nat) : Flow → World σ → Hosted ν σ → Prop
  | .next locals, w, m => locals.map Prod.fst = params ∧ a.At x ip locals #[] setups w m
  | .returned v, w, m => a.Left x setups v w m

/-- A return leaves the activation with its value. -/
theorem follows_ret (hdepth : depth ≤ a.callers.size)
    (hop : a.function.code[ip]? = some .ret) (hat : a.At x ip locals (#[].push v) U w m) :
    Follows natives depth n m (a.Left x U) (some (.ok v, w)) := by
  have habove := hat.above hdepth
  rcases hat with ⟨k, rfl⟩
  have htake : (a.below ++ valuesOf locals ++ #[]).take a.below.size = a.below := by
    rw [Array.append_empty, take_append_size]
  have hstep : step natives (a.machine x ip locals (#[].push v) U w k) =
      Step.push v (x.machine a.below U a.callers w.globals (k + 1) w.host) := by
    rw [step_machine hop, machine_push, execute_ret, htake]
  by_cases room : a.below.size < x.capacity
  · rw [push_of_room room] at hstep
    exact .inr ⟨1, _, goes_of_step habove hstep, k + 1, rfl⟩
  · rw [push_of_full (Nat.not_lt.1 room)] at hstep
    exact .inl (exceeds_of_step habove hstep trivial)

/-- An assignment writes where the local lies. -/
theorem valuesOf_set {slot : Nat} {y : String} :
    (a.below ++ valuesOf locals ++ #[]).setIfInBounds (a.below.size + slot) v =
      a.below ++ valuesOf (locals.set slot (y, v)) ++ #[] := by
  rw [Array.append_empty, Array.append_empty,
    Array.setIfInBounds_append_right (Nat.le_add_right _ _), Nat.add_sub_cancel_left]
  simp [valuesOf, List.map_set]

/-- A name is written to its local, or to the globals. -/
theorem follows_assign (hdepth : depth ≤ a.callers.size) {y : String}
    (hparams : a.function.paramCount = params.length) (hnames : locals.map Prod.fst = params)
    (hF : Function.Extends (f.emitStore params y) a.function)
    (hat : a.At x f.code.size locals (#[].push v) U w m) :
    Follows natives depth n m (a.Ends x params U (f.code.size + 1)) (assign locals y v w) := by
  rcases hat with ⟨k, rfl⟩
  unfold Function.emitStore at hF
  split at hF
  · -- a parameter: only the value in its slot changes
    rename_i slot hslot
    have hop := hF.code (Function.getElem?_code_emit f (.storeLocal slot))
    subst hnames
    rcases local_of_idxOf? hslot with ⟨⟨u, hlookup, hlocal⟩, hput⟩
    have hlt : slot < locals.length := (List.getElem?_eq_some_iff.1 hlocal).1
    have hcount : slot < a.function.paramCount := by
      rwa [hparams, List.length_map]
    have hsize : a.below.size + slot < (a.below ++ valuesOf locals ++ #[]).size := by
      simpa [valuesOf] using hlt
    have hassign : assign locals y v w = some (.ok (.next (locals.set slot (y, v))), w) := by
      rw [assign, hlookup, hput]
      rfl
    have hstep : step natives (a.machine x f.code.size locals (#[].push v) U w k) =
        (.ok (), a.machine x (f.code.size + 1) (locals.set slot (y, v)) #[] U w (k + 1)) := by
      rw [step_machine hop, machine_push, Activation.machine, ← valuesOf_set]
      exact execute_storeLocal hcount hsize
    rw [hassign]
    exact .inr ⟨1, _, goes_of_step (above_machine hdepth) hstep, names_set ⟨u, hlocal⟩, k + 1, rfl⟩
  · -- a global: the value leaves the stack and nothing else happens there
    rename_i hslot
    have hop := hF.code
      (Function.getElem?_code_emit (f.addName y).1 (.storeGlobal (f.addName y).2))
    rw [Function.code_addName] at hop
    have hpool := hF.names ((Function.extends_emit _ _).names (f.getElem?_addName y))
    have hassign : assign locals y v w =
        some (.ok (.next locals), { w with globals := w.globals.insert y v }) := by
      rw [assign, lookup_of_idxOf?_eq_none (hnames ▸ hslot)]
      rfl
    have hstep : step natives (a.machine x f.code.size locals (#[].push v) U w k) =
        (.ok (), a.machine x (f.code.size + 1) locals #[] U
          { w with globals := w.globals.insert y v } (k + 1)) := by
      rw [step_machine hop, machine_push, execute_storeGlobal hpool]
      rfl
    rw [hassign]
    exact .inr ⟨1, _, goes_of_step (above_machine hdepth) hstep, hnames, k + 1, rfl⟩

/-- The value of an expression statement is dropped. -/
theorem goes_pop (hdepth : depth ≤ a.callers.size)
    (hop : a.function.code[ip]? = some .pop) (hat : a.At x ip locals (#[].push v) U w m) :
    ∃ m', Goes natives depth 1 m m' ∧ a.At x (ip + 1) locals #[] U w m' := by
  rcases hat with ⟨k, rfl⟩
  have hstep : step natives (a.machine x ip locals (#[].push v) U w k) =
      (.ok (), a.machine x (ip + 1) locals #[] U w (k + 1)) := by
    rw [step_machine hop, machine_push, execute_pop]
    rfl
  exact ⟨_, goes_of_step (above_machine hdepth) hstep, k + 1, rfl⟩

/-- A jump leaves everything else alone. -/
theorem goes_jump (hdepth : depth ≤ a.callers.size) {target : Nat}
    (hop : a.function.code[ip]? = some (.jump target)) (hat : a.At x ip locals #[] U w m) :
    ∃ m', Goes natives depth 1 m m' ∧ a.At x target locals #[] U w m' := by
  rcases hat with ⟨k, rfl⟩
  have hstep : step natives (a.machine x ip locals #[] U w k) =
      (.ok (), a.machine x target locals #[] U w (k + 1)) := by
    rw [step_machine hop, Activation.machine, execute_jump]
    rfl
  exact ⟨_, goes_of_step (above_machine hdepth) hstep, k + 1, rfl⟩

/-- A condition takes its value from the stack whether it jumps or not. -/
theorem goes_jumpIfFalse (hdepth : depth ≤ a.callers.size) {target : Nat}
    (hop : a.function.code[ip]? = some (.jumpIfFalse target))
    (hat : a.At x ip locals (#[].push v) U w m) :
    ∃ m', Goes natives depth 1 m m' ∧
      a.At x (if v.isTruthy then ip + 1 else target) locals #[] U w m' := by
  rcases hat with ⟨k, rfl⟩
  have hstep : step natives (a.machine x ip locals (#[].push v) U w k) =
      (.ok (), a.machine x (if v.isTruthy then ip + 1 else target) locals #[] U w (k + 1)) := by
    rw [step_machine hop, machine_push, execute_jumpIfFalse]
    rfl
  exact ⟨_, goes_of_step (above_machine hdepth) hstep, k + 1, rfl⟩

end Instructions

end Machine
end ScriptHost
