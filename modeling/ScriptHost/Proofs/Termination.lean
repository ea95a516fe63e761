import Mathlib.Data.DFinsupp.WellFounded
import ScriptHost.Proofs.FrameMoves
import ScriptHost.Proofs.Jumps
import ScriptHost.Proofs.Runs

/-!
# Code without loops terminates

Without loops every jump goes forward, so an activation can only come closer to the end of its
code; a call starts another activation from the beginning, but there is room for so many only. Read
from the outermost frame inwards, what is left of the activations therefore decreases in
lexicographic order, and every run is over after finitely many steps, however its functions call
each other.
-/

namespace ScriptHost

namespace Script

/-- On the way through an activation the index grows, except at the end of a loop. -/
theorem lt_of_leadsTo {f : Function} {ends : List Nat} {op : Opcode} {ip ip' : Nat}
    (hf : f.JumpsForward ends) (hop : f.code[ip]? = some op) (h : Machine.leadsTo op ip ip') :
    ip < ip' ∨ ip ∈ ends := by
  have hnext (h : ip' = ip + 1) : ip < ip' ∨ ip ∈ ends := .inl (by omega)
  cases op with
  | jump target =>
      obtain rfl : ip' = target := h
      exact hf ip _ _ hop rfl
  | jumpIfFalse target =>
      rcases h with h | rfl
      · exact hnext h
      · exact hf ip _ _ hop rfl
  | loadFunc i => exact h.elim
  | call argc => exact h.elim
  | ret => exact h.elim
  | _ => exact hnext h

theorem Function.IsLoopFree.isCompiled {f : Function} (h : f.IsLoopFree) : f.IsCompiled := by
  rcases h with ⟨limit, source, block, d, hparse, hd, _, rfl⟩
  have hcompile : compile limit source = .ok (compileBlock block) := by
    rw [compile, hparse]
    rfl
  refine ⟨limit, source, _, hcompile, ?_⟩
  rcases hd with rfl | hd
  · exact .inl rfl
  · exact .inr (List.mem_map_of_mem hd)

end Script

namespace Machine

open Script

variable {ν σ : Type}

/-! ## What is left of the activations -/

/-- How many instructions are left to an activation, counted so that none is left only where there
is no activation. -/
def Frame.left (fr : Frame) : Nat :=
  fr.function.code.size - fr.ip + 1

/-- What is left at each of the first `n` places for frames, the outermost first. -/
def left (n : Nat) (F : Array Frame) : Fin n → Nat :=
  fun i => (F[i.val]?.map Frame.left).getD 0

/-- Less is left if less is left at the first place where anything is different. -/
def Less {n : Nat} (a b : Fin n → Nat) : Prop :=
  Pi.Lex (· < ·) (· < ·) a b

/-- With a bound on the frames the order is well-founded. -/
theorem wellFounded_less (n : Nat) : WellFounded (Less (n := n)) :=
  Pi.Lex.wellFounded (· < ·) fun _ => Nat.lt_wfRel.wf

section Left

variable {n : Nat} {G F : Array Frame} {fr : Frame}

/-- Only the innermost frame has changed, and it has less left. -/
theorem less_of_top (hroom : G.size < n) (hsame : ∀ i < G.size, F[i]? = G[i]?)
    (hless : (F[G.size]?.map Frame.left).getD 0 < fr.left) :
    Less (left n F) (left n (G.push fr)) := by
  refine ⟨⟨G.size, hroom⟩, fun i hi => ?_, ?_⟩
  · have hlt : i.val < G.size := hi
    simp only [left]
    rw [hsame i.val hlt, Array.getElem?_push, if_neg (Nat.ne_of_lt hlt)]
  · simpa [left] using hless

theorem getElem?_push_below {i : Nat} (hi : i < G.size) (fr : Frame) :
    (G.push fr)[i]? = G[i]? := by
  rw [Array.getElem?_push, if_neg (Nat.ne_of_lt hi)]

/-- Further on in the code there is less left. -/
theorem left_lt {f : Function} {op : Opcode} {ip ip' base : Nat} (hop : f.code[ip]? = some op)
    (hlt : ip < ip') : Frame.left ⟨f, ip', base⟩ < Frame.left ⟨f, ip, base⟩ := by
  have hsize := (Array.getElem?_eq_some_iff.1 hop).1
  simp only [Frame.left]
  omega

/-- Every successful step leaves less, if the instruction does not lead back. -/
theorem Moves.less {x : Setting ν} {op : Opcode} {f : Function} {ip base : Nat}
    {U U' : Array (CallSetup ν)} {F' : Array Frame} (hop : f.code[ip]? = some op)
    (hf : f.JumpsForward []) (hroom : G.size < n)
    (h : Moves x op f ip base U G (.ok ()) U' F') :
    Less (left n F') (left n (G.push ⟨f, ip, base⟩)) := by
  have hadvances {ip' : Nat} (hlt : ip < ip') :
      Less (left n (G.push ⟨f, ip', base⟩)) (left n (G.push ⟨f, ip, base⟩)) := by
    refine less_of_top hroom (fun i hi => getElem?_push_below hi _) ?_
    simpa using left_lt hop hlt
  cases h with
  | goes hleads =>
      rcases lt_of_leadsTo hf hop hleads with hlt | hnone
      · exact hadvances hlt
      · cases hnone
  | opens _ _ => exact hadvances (Nat.lt_succ_self ip)
  | calls _ hcalled =>
      cases hcalled with
      | answers _ _ => exact hadvances (Nat.lt_succ_self ip)
      | @enters _ setup fn _ _ _ =>
          -- the new activation lies behind the place where the caller has moved on
          refine less_of_top hroom (fun i hi => ?_) ?_
          · rw [getElem?_push_below (by rw [Array.size_push]; omega), getElem?_push_below hi]
          · rw [getElem?_push_below (by simp)]
            simpa using left_lt hop (Nat.lt_succ_self ip)
  | leaves _ =>
      refine less_of_top hroom (fun _ _ => rfl) ?_
      rw [Array.getElem?_eq_none (Nat.le_refl _)]
      exact Nat.succ_pos _

end Left

/-! ## Runs -/

section Runs

variable {natives : Natives ν σ} {o : Stack ν} {m m' : Hosted ν σ}

/-- An execution on top of `o` that is under way, in functions without loops, with no more frames
than calls may nest. -/
structure Winds (o : Stack ν) (m : Hosted ν σ) : Prop where
  form : Ongoing o m ∨ Finished o m
  owned : Owned Function.IsLoopFree o m
  depth : o.frames.size < m.vm.stack.frames.size →
    m.vm.stack.frames.size ≤ m.vm.limits.callDepth

/-- One step goes on in this way and leaves less. -/
theorem Winds.step (h : Winds o m) (hmore : o.frames.size < m.vm.stack.frames.size)
    (hstep : Machine.step natives m = (.ok (), m')) :
    Winds o m' ∧ m'.vm.limits = m.vm.limits ∧
      Less (left m.vm.limits.callDepth m'.vm.stack.frames)
        (left m.vm.limits.callDepth m.vm.stack.frames) := by
  have hongoing := ongoing_of_lt h.form hmore
  have hdepth := h.depth hmore
  rcases hongoing.step_moves natives with ⟨op, f, ip, base, G, hop, hframes, hends⟩
  rw [hstep] at hends
  rw [hframes, Array.size_push] at hdepth
  rw [hframes, Array.size_push] at hmore
  -- The frame on top is one of those the run has opened, so its function has no loops.
  have htop : m.vm.stack.frames[G.size]? = some ⟨f, ip, base⟩ := by
    rw [hframes]
    simp
  have hf : f.IsLoopFree := h.owned.frames (Nat.le_of_lt_succ hmore) htop
  have hlimits := (limits_eq_of_setting hends.setting).1
  refine ⟨⟨hongoing.step_ok hstep, h.owned.step hongoing hstep, fun _ => ?_⟩, hlimits, ?_⟩
  · rw [hlimits]
    exact hends.outcome.frames_le.elim (fun hle => Nat.le_trans hle hdepth) id
  · rw [hframes]
    exact hends.outcome.less hop hf.jumpsForward hdepth

/-- By induction on what is left: every such execution is over after finitely many steps. -/
theorem Winds.ends (natives : Natives ν σ) (h : Winds o m) :
    ∃ n r, runUntil natives o.frames.size n m = some r := by
  obtain ⟨limit, hlimit⟩ : ∃ limit, m.vm.limits.callDepth = limit := ⟨_, rfl⟩
  induction hleft : left limit m.vm.stack.frames using (wellFounded_less limit).induction
    generalizing m with
  | h a ih =>
      subst hleft
      by_cases hmore : o.frames.size < m.vm.stack.frames.size
      · rcases hstep : Machine.step natives m with ⟨e | _, m₁⟩
        · exact ⟨1, _, runUntil_of_error hmore hstep 0⟩
        · rcases h.step hmore hstep with ⟨hnext, hlimits, hless⟩
          rw [hlimit] at hless
          rcases ih _ hless hnext (hlimits ▸ hlimit) rfl with ⟨n, r, hrun⟩
          exact ⟨n + 1, r, by rw [runUntil_of_step hmore hstep, hrun]⟩
      · exact ⟨0, _, runUntil_of_le (Nat.not_lt.1 hmore) 0⟩

/-! ### Units and calls from outside -/

/-- Functions without loops are compiled like others. -/
theorem isCompiled_of_loopFree (hm : m.vm.KnowsOnly Function.IsLoopFree) : m.vm.IsCompiled :=
  fun name f hf => (hm name f hf).isCompiled

/-- A source without loops begins to wind. -/
theorem winds_of_beginSource {source : String} {mark : Mark}
    (hm : m.vm.KnowsOnly Function.IsLoopFree)
    (hfree : ∀ block, parse m.vm.limits.nestingDepth source = .ok block →
      Stmt.areLoopFree block = true)
    (h : beginSource source m = (.ok mark, m')) : mark = m.vm.mark ∧ Winds m.vm.stack m' := by
  rcases beginSource_ok (isCompiled_of_loopFree hm) h with ⟨hmark, hongoing⟩
  have howned := owned_of_beginSource hm
    (fun compiled hcompile => Function.IsLoopFree.of_compile hcompile hfree) h
  refine ⟨hmark, .inl hongoing, howned, fun _ => ?_⟩
  rcases beginSource_eq_ok h with ⟨compiled, _, hroom, _, rfl⟩
  rw [machine_frames, Array.size_push]
  exact hroom

theorem winds_of_beginCall {name : String} {vm : Vm ν} {args : List String}
    (hm : m.vm.KnowsOnly Function.IsLoopFree) (hvm : m.vm.loadFunction name = some vm)
    (h : beginCall natives args { m with vm := vm } = (.ok (), m')) : Winds m.vm.stack m' := by
  have hform := (Begins.invoke hvm h).ok (isCompiled_of_loopFree hm)
  rw [beginCall, pushTexts_eq_pushAll] at h
  rcases outside_call_ends natives hvm (args.map .text) with ⟨setup, _, hends⟩
  rw [h] at hends
  refine ⟨hform, owned_of_outside_call hm hvm h, fun hmore => ?_⟩
  rw [(limits_eq_of_setting hends.setting).1]
  have houtcome := hends.outcome
  generalize m'.vm.stack.setups = U' at houtcome
  generalize m'.vm.stack.frames = F' at houtcome hmore ⊢
  cases houtcome with
  | answers _ _ => exact absurd hmore (Nat.lt_irrefl _)
  | enters _ _ hroom =>
      rw [Array.size_push]
      exact hroom

/-- A source ends if its run does. -/
theorem runSource_of_runUntil {source : String} {mark : Mark} {n : Nat}
    {ended : Except ScriptError Unit × Hosted ν σ} (hbegin : beginSource source m = (.ok mark, m'))
    (hrun : runUntil natives mark.frames n m' = some ended) :
    ∃ r, runSource natives n source m = some r := by
  rw [runSource, hbegin]
  simp only [hrun]
  rcases ended with ⟨e | _, m₂⟩ <;> exact ⟨_, rfl⟩

/-- By well-founded induction on what is left. -/
theorem runSource_ends (natives : Natives ν σ) {source : String}
    (hm : m.vm.KnowsOnly Function.IsLoopFree)
    (hfree : ∀ block, parse m.vm.limits.nestingDepth source = .ok block →
      Stmt.areLoopFree block = true) : ∃ n r, runSource natives n source m = some r := by
  rcases hbegin : beginSource source m with ⟨e | mark, m₁⟩
  · exact ⟨0, (.error e, m₁), by rw [runSource, hbegin]⟩
  · rcases winds_of_beginSource hm hfree hbegin with ⟨hmark, hwinds⟩
    rcases hwinds.ends natives with ⟨n, ended, hrun⟩
    have hframes : mark.frames = m.vm.stack.frames.size := congrArg Mark.frames hmark
    rw [← hframes] at hrun
    exact ⟨n, runSource_of_runUntil hbegin hrun⟩

/-- A call ends if its run does. -/
theorem invoke_of_completeCall {name : String} {vm : Vm ν} {args : List String} {n : Nat}
    {ended : Except ScriptError Unit × Hosted ν σ} (hname : name ≠ "")
    (hvm : m.vm.loadFunction name = some vm)
    (h : completeCall natives n m.vm.mark.frames args { m with vm := vm } = some ended) :
    ∃ r, invoke natives n name args m = some r := by
  rw [invoke, if_neg hname, hvm]
  simp only [h]
  rcases ended with ⟨e | _, m₂⟩ <;> exact ⟨_, rfl⟩

theorem invoke_ends (natives : Natives ν σ) (hm : m.vm.KnowsOnly Function.IsLoopFree)
    (name : String) (args : List String) : ∃ n r, invoke natives n name args m = some r := by
  by_cases hname : name = ""
  · exact ⟨0, _, by rw [invoke, if_pos hname]⟩
  · cases hvm : m.vm.loadFunction name with
    | none => exact ⟨0, (.unknown, m), by rw [invoke, if_neg hname, hvm]⟩
    | some vm =>
        -- Only a call that has begun takes steps.
        rcases hbegin : beginCall natives args { m with vm := vm } with ⟨e | _, m₁⟩
        · have hcomplete : completeCall natives 0 m.vm.mark.frames args { m with vm := vm } =
              some (.error e, m₁) := by
            rw [completeCall, hbegin]
          exact ⟨0, invoke_of_completeCall hname hvm hcomplete⟩
        · rcases (winds_of_beginCall hm hvm hbegin).ends natives with ⟨n, ended, hrun⟩
          have hcomplete : completeCall natives n m.vm.mark.frames args { m with vm := vm } =
              some ended := by
            rw [completeCall, hbegin]
            exact hrun
          exact ⟨n, invoke_of_completeCall hname hvm hcomplete⟩

end Runs

/-! ## Steps back -/

/-- The index is that of the jump which ends a loop in the tree that the function is the code of. -/
def EndsLoop (f : Function) (ip : Nat) : Prop :=
  (∃ d : FuncDecl, f = d.compile) ∧
    ∀ d : FuncDecl, f = d.compile → ip ∈ Stmt.loopEndsAll 0 d.body

section Back

variable {natives : Natives ν σ} {o : Stack ν} {m m' : Hosted ν σ}

/-- Compiled code comes from a declaration. -/
theorem Function.IsCompiled.exists_decl {f : Function} (h : f.IsCompiled) :
    ∃ d : FuncDecl, f = d.compile := by
  rcases h with ⟨limit, source, compiled, hcompile, hmem⟩
  rcases compile_eq_ok hcompile with ⟨block, _, rfl⟩
  rcases hmem with rfl | hmem
  · exact ⟨mainDecl block, rfl⟩
  · rcases List.mem_map.1 hmem with ⟨d, _, rfl⟩
    exact ⟨d, rfl⟩

/-- Of the activations that are there before and after a step, only the innermost one has moved,
and only as its instruction leads. -/
theorem Moves.back {x : Setting ν} {op : Opcode} {f : Function} {ip base : Nat}
    {U U' : Array (CallSetup ν)} {G F' : Array Frame} {i : Nat} {fr fr' : Frame}
    (h : Moves x op f ip base U G (.ok ()) U' F') (hfr : (G.push ⟨f, ip, base⟩)[i]? = some fr)
    (hfr' : F'[i]? = some fr') (hback : fr'.ip < fr.ip) :
    fr = ⟨f, ip, base⟩ ∧ leadsTo op ip fr'.ip := by
  have hsame (hbelow : i < G.size) (hfr' : G[i]? = some fr') : False := by
    rw [getElem?_push_below hbelow, hfr'] at hfr
    cases hfr
    exact Nat.lt_irrefl _ hback
  have hmoved {ip' : Nat} (hfr' : (G.push ⟨f, ip', base⟩)[i]? = some fr') :
      fr = ⟨f, ip, base⟩ ∧ fr'.ip = ip' := by
    rcases getElem?_push_cases hfr' with ⟨rfl, rfl⟩ | hbelow
    · refine ⟨?_, rfl⟩
      simpa using hfr.symm
    · exact (hsame (Array.getElem?_eq_some_iff.1 hbelow).1 hbelow).elim
  -- where the frame only moves on by one, nothing goes back
  have hon (hfr' : (G.push ⟨f, ip + 1, base⟩)[i]? = some fr') :
      fr = ⟨f, ip, base⟩ ∧ leadsTo op ip fr'.ip := by
    rcases hmoved hfr' with ⟨rfl, hip⟩
    have hless : fr'.ip < ip := hback
    omega
  cases h with
  | goes hleads =>
      rcases hmoved hfr' with ⟨hframe, hip⟩
      exact ⟨hframe, hip ▸ hleads⟩
  | opens _ _ => exact hon hfr'
  | calls _ hcalled =>
      cases hcalled with
      | answers _ _ => exact hon hfr'
      | enters _ _ _ =>
          rcases getElem?_push_cases hfr' with ⟨rfl, rfl⟩ | hfr'
          · -- the new activation was not there before
            rw [Array.getElem?_eq_none (by simp)] at hfr
            cases hfr
          · exact hon hfr'
  | leaves _ => exact (hsame (Array.getElem?_eq_some_iff.1 hfr').1 hfr').elim

/-- Only the last jump of a loop goes back. -/
theorem endsLoop_of_back (hongoing : Ongoing o m) (howned : Owned Function.IsCompiled o m)
    (hstep : step natives m = (.ok (), m')) {i : Nat} {fr fr' : Frame}
    (hfr : m.vm.stack.frames[i]? = some fr) (hfr' : m'.vm.stack.frames[i]? = some fr')
    (hback : fr'.ip < fr.ip) : EndsLoop fr.function fr.ip := by
  have hlt := hongoing.frames_lt
  rcases hongoing.step_moves natives with ⟨op, f, ip, base, G, hop, hframes, hends⟩
  rw [hstep] at hends
  have htop : m.vm.stack.frames[G.size]? = some ⟨f, ip, base⟩ := by
    rw [hframes]
    simp
  rw [hframes] at hfr hlt
  rw [Array.size_push] at hlt
  have hf : f.IsCompiled := howned.frames (Nat.le_of_lt_succ hlt) htop
  -- Only a jump of the frame on top can lead back, and the compiler puts such jumps at the ends of
  -- loops.
  rcases hends.outcome.back hfr hfr' hback with ⟨rfl, hleads⟩
  refine ⟨Function.IsCompiled.exists_decl hf, fun d hd => ?_⟩
  have hforward : f.JumpsForward (Stmt.loopEndsAll 0 d.body) := by
    rw [show f = d.compile from hd]
    exact Function.jumpsForward_compile d
  rcases lt_of_leadsTo hforward hop hleads with hlt | hend
  · exact absurd hback (Nat.lt_asymm hlt)
  · exact hend

end Back

/-! ## Main results -/

/-- On a machine whose functions have no loops every source without loops and every call from
outside is over after finitely many steps, whatever the limits, the stacks, the native functions
and the recursion are; and the outcome is the same for every larger number of steps. Behind this is
that compiled code of any kind goes back, within an activation, only at the end of a loop. -/
theorem loop_free_code_terminates (natives : Natives ν σ) (m : Hosted ν σ) :
    (m.vm.KnowsOnly Function.IsLoopFree →
      (∀ source, (∀ block, parse m.vm.limits.nestingDepth source = .ok block →
          Stmt.areLoopFree block = true) →
        ∃ n r, ∀ budget, n ≤ budget → runSource natives budget source m = some r) ∧
      ∀ name args, ∃ n r, ∀ budget, n ≤ budget → invoke natives budget name args m = some r) ∧
    (m.vm.IsCompiled → ∀ m' m'', Execution natives m m' →
      m.vm.stack.frames.size < m'.vm.stack.frames.size → step natives m' = (.ok (), m'') →
      ∀ (i : Nat) (fr fr' : Frame), m'.vm.stack.frames[i]? = some fr →
        m''.vm.stack.frames[i]? = some fr' → fr'.ip < fr.ip → EndsLoop fr.function fr.ip) := by
  refine ⟨fun hm => ⟨fun source hfree => ?_, fun name args => ?_⟩, ?_⟩
  · rcases runSource_ends natives hm hfree with ⟨n, r, hrun⟩
    exact ⟨n, r, fun budget hle => runSource_mono hrun hle⟩
  · rcases invoke_ends natives hm name args with ⟨n, r, hrun⟩
    exact ⟨n, r, fun budget hle => invoke_mono hrun hle⟩
  · intro hm m' m'' hexecution hmore hstep i fr fr' hfr hfr' hback
    have howned : Owned Function.IsCompiled m.vm.stack m' :=
      hexecution.owned hm hm fun source compiled hcompile =>
        ⟨⟨_, source, compiled, hcompile, .inl rfl⟩,
          fun f hf => ⟨_, source, compiled, hcompile, .inr hf⟩⟩
    exact endsLoop_of_back (hexecution.ongoing hm hmore) howned hstep hfr hfr' hback

/-- A function that does nothing but call itself is over, by the limit on calls; and the step that
goes back in an empty loop goes back from the end of the loop. -/
theorem endless_recursion_is_over :
    ∃ (natives : Natives Unit Unit) (m m' m'' : Hosted Unit Unit) (fr fr' : Frame),
      (∃ n r, ∀ budget, n ≤ budget →
        runSource natives budget "func f() \x7b return f() \x7d f()" m = some r) ∧
      Execution natives m m' ∧ step natives m' = (.ok (), m'') ∧
      m'.vm.stack.frames[0]? = some fr ∧ m''.vm.stack.frames[0]? = some fr' ∧
      fr'.ip < fr.ip ∧ EndsLoop fr.function fr.ip := by
  let natives : Natives Unit Unit := fun _ _ => pure .null
  let m : Hosted Unit Unit := ⟨Vm.new ⟨8, 4, 3⟩, ()⟩
  have hm : m.vm.KnowsOnly Function.IsLoopFree := nofun
  have hcompiled : m.vm.IsCompiled := nofun
  have hfree : ∀ block, parse m.vm.limits.nestingDepth "func f() \x7b return f() \x7d f()" =
      .ok block → Stmt.areLoopFree block = true := by
    intro block hparse
    have hchecked : (parse m.vm.limits.nestingDepth "func f() \x7b return f() \x7d f()").map
        Stmt.areLoopFree = .ok true := by
      decide +kernel
    rw [hparse] at hchecked
    exact Except.ok.inj hchecked
  let m₁ := (beginSource "while true \x7b \x7d" m).2
  let m₂ := (step natives m₁).2
  let m' := (step natives m₂).2
  let m'' := (step natives m').2
  obtain ⟨mark, hbegin⟩ : ∃ mark, beginSource "while true \x7b \x7d" m = (.ok mark, m₁) :=
    exists_of_isOk (by decide +kernel)
  obtain ⟨_, hfirst⟩ : ∃ u, step natives m₁ = (.ok u, m₂) := exists_of_isOk (by decide +kernel)
  obtain ⟨_, hsecond⟩ : ∃ u, step natives m₂ = (.ok u, m') := exists_of_isOk (by decide +kernel)
  obtain ⟨_, hthird⟩ : ∃ u, step natives m' = (.ok u, m'') := exists_of_isOk (by decide +kernel)
  have hexecution : Execution natives m m' :=
    ((Execution.begun (.source hbegin)).next (by decide +kernel) hfirst).next (by decide +kernel)
      hsecond
  -- the jump back leads from index two to index zero
  have hbefore : m'.vm.stack.frames[0]?.map Frame.ip = some 2 := by decide +kernel
  have hafter : m''.vm.stack.frames[0]?.map Frame.ip = some 0 := by decide +kernel
  obtain ⟨fr, hfr, hip⟩ := Option.map_eq_some_iff.1 hbefore
  obtain ⟨fr', hfr', hip'⟩ := Option.map_eq_some_iff.1 hafter
  have hback : fr'.ip < fr.ip := by
    rw [hip, hip']
    decide
  exact ⟨natives, m, m', m'', fr, fr', ((loop_free_code_terminates natives m).1 hm).1 _ hfree,
    hexecution, hthird, hfr, hfr', hback,
    (loop_free_code_terminates natives m).2 hcompiled m' m'' hexecution (by decide +kernel) hthird
      0 fr fr' hfr hfr' hback⟩

end Machine
end ScriptHost
