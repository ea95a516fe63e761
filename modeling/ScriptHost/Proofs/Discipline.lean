import ScriptHost.Proofs.Shapes
import ScriptHost.Proofs.Stepping

/-!
# Stack discipline

An execution begins on stacks that may hold anything and pushes its first frame on top of them.
From then on the part of the stacks that it owns has a definite form: every frame begins where the
operands of its caller end, every call setup belongs to one frame and stands at the height that
the shape of that frame tells, and what was there before lies untouched below. Every step keeps
this form or ends the execution, and so no step runs into a check of the machine.
-/

namespace ScriptHost

/-! ## Errors -/

namespace Script

/-- The errors that a script brings about itself, by what it asks for or by how much. -/
def ScriptError.IsOrdinary : ScriptError → Prop
  | .stackOverflow => True
  | .callDepthExceeded _ => True
  | .unknownFunction _ => True
  | .type _ => True
  | .runtime .divisionByZero => True
  | _ => False

/-- The errors that tell of a broken machine and not of a script that went wrong. The text that a
host function makes up may read like any of them. -/
def ScriptError.IsInternal : ScriptError → Prop
  | .stackUnderflow => True
  | .runtime .noCallSetup => True
  | .runtime .noFrameToPop => True
  | .runtime .noActiveFrame => True
  | .runtime (.constantRange _) => True
  | .runtime (.nameRange _) => True
  | .runtime (.localRange _ _) => True
  | .runtime (.instructionRange _ _) => True
  | .runtime (.raised _) => True
  | _ => False

theorem ScriptError.IsOrdinary.not_isInternal {e : ScriptError} (h : e.IsOrdinary) :
    ¬ e.IsInternal := by
  unfold IsOrdinary at h
  split at h
  · exact id
  · exact id
  · exact id
  · exact id
  · exact id
  · exact h.elim

namespace Value

/-- Operands of the wrong kind are the fault of the script. -/
theorem isOrdinary_of_add {a b : Value} {e : ScriptError} (h : a.add b = .error e) :
    e.IsOrdinary := by
  unfold add at h
  split at h <;> cases h
  trivial

/-- So they are for any other operation with numbers. -/
theorem isOrdinary_of_arith {c : Char} {a b : Value} {e : ScriptError}
    (hc : c ∈ ['-', '*', '/']) (h : a.arith c b = .error e) : e.IsOrdinary := by
  unfold arith at h
  split at h
  · split at h
    · cases h
    · cases h
    · split at h <;> cases h
      trivial
    · simp_all
  · cases h
    trivial

theorem isOrdinary_of_compare {a b : Value} {e : ScriptError} (h : a.compare b = .error e) :
    e.IsOrdinary := by
  unfold compare at h
  split at h
  · unfold compareNumbers at h
    split at h
    · cases h
    · split at h
      · cases h
      · split at h <;> cases h
        trivial
  · cases h
  · cases h
    trivial

end Value

end Script

namespace Machine

open Script

variable {ν σ : Type}

/-! ## Verified machines -/

/-- A script function that has passed the check. -/
def Callable.IsVerified (c : Callable ν) : Prop :=
  ∀ f, c = .script f → ∃ table, Verified f table

/-- Only such functions can be called. -/
def Setting.IsVerified (x : Setting ν) : Prop :=
  ∀ name c, x.functions.get? name = some c → c.IsVerified

/-! ## The form of the stacks -/

/-- The setups `V` are the setups `U` and above them one for each height in the list, counted from
`first`. -/
inductive Opened (first : Nat) (U : Array (CallSetup ν)) :
    List Nat → Array (CallSetup ν) → Prop
  | nil : Opened first U [] U
  | cons {heights : List Nat} {V : Array (CallSetup ν)} {setup : CallSetup ν} {height : Nat} :
      Opened first U heights V → setup.base = first + height → setup.callee.IsVerified →
      Opened first U (height :: heights) (V.push setup)

/-- Frames and setups of an execution that wait for a callee whose operands begin at the given
height. `o` are the stacks as they were before the execution. -/
inductive Suspended (o : Stack ν) : Array (CallSetup ν) → Array Frame → Nat → Prop
  | origin : Suspended o o.setups o.frames o.slots.size
  | call {U V : Array (CallSetup ν)} {F : Array Frame} {f : Function} {ip base : Nat}
      {table : List Shape} {t : Shape} :
      -- the caller stands at the instruction that takes the result
      Suspended o U F base → Verified f table → table[ip]? = some (t.grown 1) →
      Opened (base + f.paramCount) U t.waiting V →
      Suspended o V (F.push ⟨f, ip, base⟩) (base + f.paramCount + t.height)

/-- The operands, the setups and the frames below of an activation in shape `s`. -/
structure Active (x : Setting ν) (o : Stack ν) (f : Function) (base : Nat) (s : Shape)
    (S : Array Value) (U : Array (CallSetup ν)) (F : Array Frame) : Prop where
  waiting : ∃ V, Suspended o V F base ∧ Opened (base + f.paramCount) V s.waiting U
  size : S.size = base + f.paramCount + s.height
  kept : ∃ own, S = o.slots ++ own
  -- there may have been more operands before than the capacity allows
  room : S.size ≤ x.capacity ∨ S.size ≤ o.slots.size

/-- The stacks in the middle of an execution. -/
def Running (x : Setting ν) (o : Stack ν) (S : Array Value) (U : Array (CallSetup ν))
    (F : Array Frame) : Prop :=
  ∃ f ip base table s G, Verified f table ∧ table[ip]? = some s ∧
    Active x o f base s S U G ∧ F = G.push ⟨f, ip, base⟩

/-- The stacks still begin with what was there before the execution. -/
structure Kept (o : Stack ν) (s : Stack ν) : Prop where
  slots : ∃ own, s.slots = o.slots ++ own
  setups : ∃ own, s.setups = o.setups ++ own
  frames : ∃ own, s.frames = o.frames ++ own

/-! ## What lies below stays -/

/-- Setups are pushed on top of those that were there. -/
theorem Opened.kept {first : Nat} {U V : Array (CallSetup ν)} {heights : List Nat}
    (h : Opened first U heights V) : ∃ own, V = U ++ own := by
  induction h with
  | nil => exact ⟨#[], by simp⟩
  | @cons _ V setup _ _ _ _ ih =>
      rcases ih with ⟨own, hown⟩
      exact ⟨own.push setup, by rw [hown, Array.push_append]⟩

theorem Suspended.kept {o : Stack ν} {U : Array (CallSetup ν)} {F : Array Frame} {base : Nat}
    (h : Suspended o U F base) :
    (∃ own, U = o.setups ++ own) ∧ (∃ own, F = o.frames ++ own) ∧ o.slots.size ≤ base := by
  induction h with
  | origin => exact ⟨⟨#[], by simp⟩, ⟨#[], by simp⟩, Nat.le_refl _⟩
  | @call _ V F f ip base _ _ _ _ _ hopened ih =>
      rcases ih with ⟨⟨own, hown⟩, ⟨frames, hframes⟩, hle⟩
      rcases hopened.kept with ⟨more, hmore⟩
      refine ⟨⟨own ++ more, ?_⟩, ⟨frames.push ⟨f, ip, base⟩, ?_⟩, by omega⟩
      · rw [hmore, hown, Array.append_assoc]
      · rw [hframes, Array.push_append]

section Active

variable {x : Setting ν} {o : Stack ν} {f : Function} {base : Nat} {s t : Shape}
variable {S : Array Value} {U : Array (CallSetup ν)} {F : Array Frame}

/-- A frame begins above what was there. -/
theorem Active.origin_le (h : Active x o f base s S U F) : o.slots.size ≤ base := by
  rcases h.waiting with ⟨V, hsuspended, _⟩
  exact hsuspended.kept.2.2

/-- What was there before is still there. -/
theorem Active.keptStacks (h : Active x o f base s S U F) {fr : Frame} :
    Kept o ⟨S, U, F.push fr, x.capacity⟩ := by
  rcases h.waiting with ⟨V, hsuspended, hopened⟩
  rcases hsuspended.kept with ⟨⟨setups, hsetups⟩, ⟨frames, hframes⟩, _⟩
  rcases hopened.kept with ⟨more, hmore⟩
  refine ⟨h.kept, ⟨setups ++ more, ?_⟩, ⟨frames.push fr, ?_⟩⟩
  · rw [hmore, hsetups, Array.append_assoc]
  · rw [hframes, Array.push_append]

/-- One value more, if there is room. -/
theorem Active.push (h : Active x o f base s S U F) (hroom : S.size < x.capacity) (v : Value) :
    Active x o f base (s.grown 1) (S.push v) U F := by
  rcases h.kept with ⟨own, hown⟩
  refine ⟨h.waiting, ?_, ⟨own.push v, by rw [hown, Array.push_append]⟩, .inl ?_⟩
  · rw [Array.size_push, h.size, Shape.height_grown, Nat.add_assoc]
  · rw [Array.size_push]
    exact hroom

/-- The operands from a height up that the execution owns may be cut off. -/
theorem Active.cut (h : Active x o f base s S U F) {n : Nat} (hn : base ≤ n) :
    ∃ own, S.take n = o.slots ++ own := by
  rcases h.kept with ⟨own, hown⟩
  have hle := h.origin_le
  -- only operands of the execution are cut off
  refine ⟨own.take (n - o.slots.size), ?_⟩
  rw [hown, Array.take_eq_extract, Array.extract_append, Nat.zero_sub,
    Array.extract_eq_self_of_le (by omega), ← Array.take_eq_extract]

/-- The topmost operand above the locals can be taken off. -/
theorem Active.pop (h : Active x o f base (t.grown 1) S U F) :
    ∃ S' v, S = S'.push v ∧ Active x o f base t S' U F := by
  have hsize := h.size
  rw [Shape.height_grown] at hsize
  have hpos : 0 < S.size := by omega
  rcases Array.exists_push_of_size_pos hpos with ⟨S', v, rfl⟩
  rw [Array.size_push] at hsize
  have hle := h.origin_le
  -- the execution owns the operand, for it lies above the base
  have htake : (S'.push v).take S'.size = S' := by
    rw [Array.take_eq_extract, Array.extract_eq_pop (by simp), Array.pop_push]
  refine ⟨S', v, rfl, h.waiting, by omega, ?_, ?_⟩
  · rw [← htake]
    exact h.cut (by omega)
  · have hroom := h.room
    rw [Array.size_push] at hroom
    omega

/-- The operands of the innermost waiting callee, and the rest without them. -/
theorem Active.close {argc : Nat} (h : Active x o f base (t.opened.grown argc) S U F) :
    ∃ U' setup, U = U'.push setup ∧ setup.callee.IsVerified ∧ S.size = setup.base + argc ∧
      setup.base = base + f.paramCount + t.height ∧
      Active x o f base t (S.take setup.base) U' F := by
  rcases h.waiting with ⟨V, hsuspended, hopened⟩
  cases hopened with
  | @cons _ U' setup _ hopened hbase hcallee =>
      have hsize := h.size
      rw [Shape.height_grown, Shape.height_opened] at hsize
      have htaken : (S.take setup.base).size = setup.base := by
        rw [Array.take_eq_extract, Array.size_extract]
        omega
      refine ⟨U', setup, rfl, hcallee, by omega, hbase, ⟨V, hsuspended, hopened⟩, by omega,
        h.cut (by omega), ?_⟩
      -- Cutting the arguments off leaves no more than before.
      rcases h.room with hroom | hroom
      · exact .inl (by omega)
      · exact .inr (by omega)

end Active

/-! ## One step -/

/-- A binary operator fails only by its operands. -/
theorem isOrdinary_of_binaryValue {op : BinaryOp} {a b : Value} {e : ScriptError}
    (h : Step.binaryValue op a b = .error e) : e.IsOrdinary := by
  have hcompare {t : Ordering → Value} (h : (a.compare b).map t = .error e) : e.IsOrdinary := by
    cases hab : a.compare b with
    | error e' =>
        rw [hab] at h
        cases h
        exact Value.isOrdinary_of_compare hab
    | ok o =>
        rw [hab] at h
        cases h
  cases op with
  | eq => cases h
  | ne => cases h
  | add => exact Value.isOrdinary_of_add h
  | sub => exact Value.isOrdinary_of_arith (c := '-') (by decide) h
  | mul => exact Value.isOrdinary_of_arith (c := '*') (by decide) h
  | div => exact Value.isOrdinary_of_arith (c := '/') (by decide) h
  | lt => exact hcompare h
  | le => exact hcompare h
  | gt => exact hcompare h
  | ge => exact hcompare h

theorem isOrdinary_of_prefixValue {op : PrefixOp} {v : Value} {e : ScriptError}
    (h : Step.prefixValue op v = .error e) : e.IsOrdinary := by
  unfold Step.prefixValue at h
  split at h <;> cases h
  trivial

/-- The innermost callee is native, and called with the operands above it, it raises the error. -/
def RaisedByNative (natives : Natives ν σ) (m : Hosted ν σ) (e : ScriptError) (host : σ) : Prop :=
  ∃ setup native, m.vm.stack.setups.back? = some setup ∧ setup.callee = .native native ∧
    natives native (m.vm.stack.slots.drop setup.base).toList m.host = (.error e, host)

/-- How a step from `m` in an execution on top of `o` may end. -/
inductive Outcome (natives : Natives ν σ) (x : Setting ν) (o : Stack ν) (m : Hosted ν σ) :
    Except ScriptError Unit × Hosted ν σ → Prop
  | goes {S U F g k h} : Running x o S U F →
      Outcome natives x o m (.ok (), x.machine S U F g k h)
  | returns {v g k h} :
      Outcome natives x o m (.ok (), x.machine (o.slots.push v) o.setups o.frames g k h)
  | fails {e S U F g k h} : Kept o ⟨S, U, F, x.capacity⟩ →
      e.IsOrdinary ∨ RaisedByNative natives m e h →
      Outcome natives x o m (.error e, x.machine S U F g k h)

section Step

variable {natives : Natives ν σ} {x : Setting ν} {o : Stack ν} {f : Function}
variable {ip base : Nat} {table : List Shape} {s t : Shape}
variable {S : Array Value} {U : Array (CallSetup ν)} {F G : Array Frame}
variable {fn : Function} {n : Nat}
variable {g : Store.Table Value} {k : Nat} {h : σ} {m : Hosted ν σ}

/-- A frame at an instruction of its table. -/
theorem Active.running (hactive : Active x o f base s S U G) (hverified : Verified f table)
    (hs : table[ip]? = some s) : Running x o S U (G.push ⟨f, ip, base⟩) :=
  ⟨f, ip, base, table, s, G, hverified, hs, hactive, rfl⟩

/-- A value is pushed, or the stack is full. -/
theorem Active.push_outcome (hactive : Active x o f base s S U G)
    (hverified : Verified f table) (hnext : table[ip]? = some (s.grown 1)) {v : Value} :
    Outcome natives x o m (Step.push v (x.machine S U (G.push ⟨f, ip, base⟩) g k h)) := by
  by_cases room : S.size < x.capacity
  · rw [push_of_room room]
    exact .goes ((hactive.push room v).running hverified hnext)
  · rw [push_of_full (Nat.not_lt.1 room)]
    exact .fails hactive.keptStacks (.inl trivial)

theorem Active.local_lt (hactive : Active x o f base s S U G) {slot : Nat}
    (hslot : slot < f.paramCount) : base + slot < S.size := by
  have hsize := hactive.size
  omega

theorem Active.getElem?_local (hactive : Active x o f base s S U G) {slot : Nat}
    (hslot : slot < f.paramCount) : ∃ v, S[base + slot]? = some v :=
  have hlt := hactive.local_lt hslot
  ⟨S[base + slot], Array.getElem?_eq_getElem hlt⟩

/-- A callee that is resolved now waits above the operands that are there. -/
theorem Active.open (hactive : Active x o f base s S U G) {y : String} {callee : Callable ν}
    (hcallee : callee.IsVerified) :
    Active x o f base s.opened S (U.push ⟨y, callee, S.size⟩) G := by
  rcases hactive.waiting with ⟨V, hsuspended, hopened⟩
  exact ⟨⟨V, hsuspended, .cons hopened hactive.size hcallee⟩, hactive.size, hactive.kept,
    hactive.room⟩

/-- A local is at or above the base of its activation, and so writing it leaves the rest alone. -/
theorem Active.store (hactive : Active x o f base s S U G) (slot : Nat) (v : Value) :
    Active x o f base s (S.setIfInBounds (base + slot) v) U G := by
  rcases hactive.kept with ⟨own, hown⟩
  have hle := hactive.origin_le
  refine ⟨hactive.waiting, ?_, ?_, ?_⟩
  · rw [Array.size_setIfInBounds, hactive.size]
  · refine ⟨own.setIfInBounds (base + slot - o.slots.size) v, ?_⟩
    rw [hown, Array.setIfInBounds_append_right (by omega)]
  · rw [Array.size_setIfInBounds]
    exact hactive.room

/-- A native function gives a value or an error of its own. -/
theorem Active.call_native_outcome (hactive : Active x o f base t (S.take n) U G)
    (hverified : Verified f table) (hnext : table[ip]? = some (t.grown 1)) {y : String}
    {native : ν} {F : Array Frame} {j : Nat} :
    Outcome natives x o (x.machine S (U.push ⟨y, .native native, n⟩) F g j h)
      (Step.call natives
        (x.machine S (U.push ⟨y, .native native, n⟩) (G.push ⟨f, ip, base⟩) g k h)) := by
  rw [call_native]
  rcases hcall : natives native (S.drop n).toList h with ⟨r, h'⟩
  cases r with
  | ok v => exact hactive.push_outcome hverified hnext
  | error e =>
      exact .fails hactive.keptStacks (.inr ⟨_, native, Array.back?_push, rfl, hcall⟩)

/-- The callee begins where the operands of the caller end, with nothing above its parameters. -/
theorem Suspended.enter (hsuspended : Suspended o U F n) (hle : n ≤ S.size)
    (hkept : ∃ own, S = o.slots ++ own) (hroom : S.size ≤ x.capacity ∨ S.size ≤ o.slots.size)
    (hcalled : n + fn.paramCount ≤ S.size ∨ n + fn.paramCount ≤ x.capacity) :
    Active x o fn n Shape.empty (adjusted S n fn.paramCount) U F := by
  have horigin := hsuspended.kept.2.2
  have htotal := size_adjusted S n fn.paramCount
  refine ⟨⟨U, hsuspended, .nil⟩, htotal, ?_, by omega⟩
  rcases hkept with ⟨own, hown⟩
  -- dropped or padded, arguments lie above all that was there before
  refine ⟨own.take (n + fn.paramCount - o.slots.size) ++
    Array.replicate (n + fn.paramCount - S.size) .null, ?_⟩
  rw [adjusted, ← Array.append_assoc]
  congr 1
  rw [hown, Array.take_eq_extract, Array.extract_append, Nat.zero_sub,
    Array.extract_eq_self_of_le (by omega), ← Array.take_eq_extract]

/-- A script function gets a frame, or there are too many calls. -/
theorem Suspended.call_script_outcome (hsuspended : Suspended o U F n) (hle : n ≤ S.size)
    (hkept : ∃ own, S = o.slots ++ own) (hroom : S.size ≤ x.capacity ∨ S.size ≤ o.slots.size)
    (hfn : ∃ entry, Verified fn entry) {y : String} :
    Outcome natives x o m
      (Step.call natives (x.machine S (U.push ⟨y, .script fn, n⟩) F g k h)) := by
  rcases hsuspended.kept with ⟨hsetups, hframes, _⟩
  rcases call_script natives y fn (x := x) (U := U) (F := F) (g := g) (k := k) (h := h) hle with
    ⟨_, hdeep⟩ | ⟨more, hfull⟩ | ⟨hcalled, hsize⟩
  · rw [hdeep]
    exact .fails ⟨hkept, hsetups, hframes⟩ (.inl trivial)
  · rw [hfull]
    rcases hkept with ⟨own, hown⟩
    refine .fails ⟨⟨own ++ more, ?_⟩, hsetups, hframes⟩ (.inl trivial)
    rw [hown, Array.append_assoc]
  · rw [hcalled]
    rcases hfn with ⟨entry, hentry⟩
    exact .goes ((hsuspended.enter hle hkept hroom hsize).running hentry hentry.start)

/-- A caller whose operands are as when it resolved the callee waits for its result. -/
theorem Active.suspend (hactive : Active x o f base t (S.take n) U G) (hle : n ≤ S.size)
    (hverified : Verified f table) (hnext : table[ip]? = some (t.grown 1)) :
    Suspended o U (G.push ⟨f, ip, base⟩) n := by
  rcases hactive.waiting with ⟨V, hsuspended, hopened⟩
  have hsize := hactive.size
  rw [Array.take_eq_extract, Array.size_extract] at hsize
  have hn : n = base + f.paramCount + t.height := by omega
  exact hn ▸ .call hsuspended hverified hnext hopened

/-- What is left of an activation goes, and its caller goes on with one operand more. There is
always room for it, for the activation has just given up as much. -/
theorem Active.ret_outcome (hactive : Active x o f base (Shape.empty.grown 1) (S.push v) U G)
    {i : Nat} :
    Outcome natives x o m
      (Step.execute natives f .ret (x.machine (S.push v) U (G.push ⟨f, i, base⟩) g k h)) ∧
    (Step.execute natives f .ret (x.machine (S.push v) U (G.push ⟨f, i, base⟩) g k h)).1 =
      .ok () := by
  rcases hactive.waiting with ⟨V, hsuspended, hopened⟩
  have hsize := hactive.size
  have hroom := hactive.room
  have horigin := hactive.origin_le
  have hheight : (Shape.empty.grown 1).height = 1 := rfl
  rw [Array.size_push, hheight] at hsize
  rw [Array.size_push] at hroom
  have htaken : (S.take base).size = base := by
    rw [Array.take_eq_extract, Array.size_extract]
    omega
  have hcut : (S.push v).take base = S.take base := by
    rw [Array.take_eq_extract, Array.extract_push_of_le (by omega), Array.take_eq_extract]
  rcases hactive.cut (Nat.le_refl base) with ⟨own, hown⟩
  rw [hcut] at hown
  -- the result itself was an operand, so there is room to push it again
  have hless : (S.take base).size < x.capacity := by omega
  rw [execute_ret, push_of_room hless]
  refine ⟨?_, rfl⟩
  cases hopened
  cases hsuspended with
  | origin =>
      -- the outermost frame: nothing of the execution is left below the result
      have hnone : own = #[] := by
        have hlength := congrArg Array.size hown
        rw [Array.size_append, htaken] at hlength
        exact Array.size_eq_zero_iff.1 (by omega)
      rw [hown, hnone, Array.append_empty]
      exact .returns
  | @call _ _ F caller ip base' _ t hcaller hverified hnext hopened =>
      -- a frame below: it goes on in the shape that its callee was called in
      have hback : Active x o caller base' t (S.take (base' + caller.paramCount + t.height)) U F :=
        ⟨⟨_, hcaller, hopened⟩, htaken, ⟨own, hown⟩, .inl (Nat.le_of_lt hless)⟩
      exact .goes ((hback.push hless v).running hverified hnext)

/-! ## Every instruction -/

/-- Every instruction leaves the stacks as its table says, or fails in an ordinary way. -/
theorem execute_outcome (hx : x.IsVerified) (hactive : Active x o f base s S U G)
    (hverified : Verified f table) {i : Nat} {op : Opcode} (hop : Fits f table i s op)
    {F : Array Frame} {j : Nat} :
    Outcome natives x o (x.machine S U F g j h)
      (Step.execute natives f op (x.machine S U (G.push ⟨f, i + 1, base⟩) g k h)) := by
  -- a failure is for want of room, for a value of the wrong kind or for an unknown name
  cases op with
  | const c =>
      rcases hop with ⟨⟨v, hv⟩, hnext⟩
      rw [execute_const hv]
      exact hactive.push_outcome hverified hnext
  | loadGlobal n =>
      rcases hop with ⟨⟨y, hy⟩, hnext⟩
      rw [execute_loadGlobal hy]
      exact hactive.push_outcome hverified hnext
  | storeGlobal n =>
      rcases hop with ⟨⟨y, hy⟩, t, rfl, hnext⟩
      rcases hactive.pop with ⟨S, v, rfl, hpopped⟩
      rw [execute_storeGlobal hy]
      exact .goes (hpopped.running hverified hnext)
  | loadLocal slot =>
      rcases hop with ⟨hslot, hnext⟩
      rcases hactive.getElem?_local hslot with ⟨v, hv⟩
      rw [execute_loadLocal hslot hv]
      exact hactive.push_outcome hverified hnext
  | storeLocal slot =>
      rcases hop with ⟨hslot, t, rfl, hnext⟩
      rcases hactive.pop with ⟨S, v, rfl, hpopped⟩
      rw [execute_storeLocal hslot (hpopped.local_lt hslot)]
      exact .goes ((hpopped.store slot v).running hverified hnext)
  | binary op =>
      rcases hop with ⟨t, rfl, hnext⟩
      rcases Active.pop (t := t.grown 1) (by simpa using hactive) with ⟨S, b, rfl, hleft⟩
      rcases hleft.pop with ⟨S, a, rfl, hpopped⟩
      rw [execute_binary]
      cases hvalue : Step.binaryValue op a b with
      | ok v => exact hpopped.push_outcome hverified hnext
      | error e =>
          exact .fails hpopped.keptStacks (.inl (isOrdinary_of_binaryValue hvalue))
  | prefixed op =>
      rcases hop with ⟨t, rfl, hnext⟩
      rcases hactive.pop with ⟨S, v, rfl, hpopped⟩
      rw [execute_prefixed]
      cases hvalue : Step.prefixValue op v with
      | ok w => exact hpopped.push_outcome hverified hnext
      | error e =>
          exact .fails hpopped.keptStacks (.inl (isOrdinary_of_prefixValue hvalue))
  | jump target =>
      rw [execute_jump]
      exact .goes (hactive.running hverified hop)
  | jumpIfFalse target =>
      rcases hop with ⟨t, rfl, hnext, htarget⟩
      rcases hactive.pop with ⟨S, v, rfl, hpopped⟩
      rw [execute_jumpIfFalse]
      refine .goes (hpopped.running hverified ?_)
      cases v.isTruthy with
      | true => exact hnext
      | false => exact htarget
  | loadFunc n =>
      rcases hop with ⟨⟨y, hy⟩, hnext⟩
      cases hcallee : x.functions.get? (normalizeName y) with
      | none =>
          rw [execute_loadFunc_of_none hy hcallee]
          exact .fails hactive.keptStacks (.inl trivial)
      | some callee =>
          rw [execute_loadFunc_of_some hy hcallee]
          exact .goes ((hactive.open (hx _ _ hcallee)).running hverified hnext)
  | call argc =>
      rcases hop with ⟨t, rfl, hnext⟩
      rcases hactive.close with ⟨U, ⟨y, callee, n⟩, rfl, hcallee, hsize, hn, hclosed⟩
      rw [execute_call]
      cases callee with
      | native native => exact hclosed.call_native_outcome hverified hnext
      | script fn =>
          have hle : n ≤ S.size := by
            rw [hsize]
            exact Nat.le_add_right _ _
          exact (hclosed.suspend hle hverified hnext).call_script_outcome hle hactive.kept
            hactive.room (hcallee fn rfl)
  | pop =>
      rcases hop with ⟨t, rfl, hnext⟩
      rcases hactive.pop with ⟨S, v, rfl, hpopped⟩
      rw [execute_pop]
      exact .goes (hpopped.running hverified hnext)
  | ret =>
      rcases hop with rfl
      rcases hactive.pop with ⟨S, v, rfl, -⟩
      exact hactive.ret_outcome.1

/-- The instruction at which the innermost frame stands. -/
def Hosted.instruction? (m : Hosted ν σ) : Option Opcode :=
  m.vm.stack.frames.back?.bind fun frame => frame.function.code[frame.ip]?

theorem instruction?_push (f : Function) (ip base : Nat) :
    (x.machine S U (G.push ⟨f, ip, base⟩) g k h).instruction? = f.code[ip]? := by
  simp [Hosted.instruction?]

theorem step_outcome (hx : x.IsVerified) (hrunning : Running x o S U F) :
    Outcome natives x o (x.machine S U F g k h) (step natives (x.machine S U F g k h)) := by
  rcases hrunning with ⟨f, ip, base, table, s, G, hverified, hs, hactive, rfl⟩
  rcases hverified.fits hs with ⟨op, hop, hfits⟩
  rw [step_fetch hop]
  exact execute_outcome hx hactive hverified hfits

theorem step_ret (hrunning : Running x o S U F)
    (hret : (x.machine S U F g k h).instruction? = some .ret) :
    (step natives (x.machine S U F g k h)).1 = .ok () := by
  rcases hrunning with ⟨f, ip, base, table, s, G, hverified, hs, hactive, rfl⟩
  rcases hverified.fits hs with ⟨op, hop, hfits⟩
  rw [instruction?_push] at hret
  obtain rfl : op = .ret := Option.some.inj (hop.symm.trans hret)
  rcases hfits with rfl
  rcases hactive.pop with ⟨S, v, rfl, -⟩
  rw [step_fetch hop]
  exact (hactive.ret_outcome (m := x.machine S U G g k h)).2

/-- The count in a call instruction is the number of operands that the call takes. -/
theorem call_count {n : Nat} (hrunning : Running x o S U F)
    (hcall : (x.machine S U F g k h).instruction? = some (.call n)) :
    ∃ setup, U.back? = some setup ∧ S.size = setup.base + n := by
  rcases hrunning with ⟨f, ip, base, table, s, G, hverified, hs, hactive, rfl⟩
  rcases hverified.fits hs with ⟨op, hop, hfits⟩
  rw [instruction?_push] at hcall
  obtain rfl : op = .call n := Option.some.inj (hop.symm.trans hcall)
  rcases hfits with ⟨t, rfl, hnext⟩
  rcases hactive.close with ⟨U, setup, rfl, -, hsize, -⟩
  exact ⟨setup, Array.back?_push, hsize⟩

end Step

end Machine
end ScriptHost
