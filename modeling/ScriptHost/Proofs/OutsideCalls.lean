import ScriptHost.Host.Session
import ScriptHost.Proofs.CallText
import ScriptHost.Proofs.LowerForms
import ScriptHost.Proofs.Units

/-!
# Calls from outside and calls in sources

A call from outside and a source that consists of the same call evaluate the same function with the
same arguments. The machines differ, since the source runs in a frame of its own and resolves its
callee by an instruction; but both follow one evaluation, and so they end alike in the same world or
one of them runs out of room.
-/

namespace ScriptHost

/-! ## Tables by their entries -/

namespace Store.Table

variable {α β : Type}

/-- Other values under the same names. -/
def map (g : α → β) (t : Table α) : Table β :=
  ⟨t.entries.map fun e => (e.1, g e.2), by simpa [Function.comp_def] using t.distinct⟩

/-- A name is found in both tables or in neither. -/
theorem get?_map (g : α → β) (t : Table α) (name : String) :
    (t.map g).get? name = (t.get? name).map g := by
  show lookup name (t.entries.map fun e => (e.1, g e.2)) = (lookup name t.entries).map g
  induction t.entries with
  | nil => rfl
  | cons e rest ih =>
      by_cases h : e.1 = name
      · simp [lookup, h]
      · simp [lookup, h, ih]

end Store.Table

namespace Machine

open Script Evaluation

variable {ν σ : Type}

/-! ## Definitions behind a function table -/

/-- Compiled code comes from a declaration. -/
theorem exists_decl {f : Function} (hf : f.IsCompiled) :
    ∃ d : FuncDecl, d.IsPlain ∧ d.compile = f := by
  rcases hf with ⟨limit, source, compiled, hcompile, hmem⟩
  rcases compile_eq_ok hcompile with ⟨block, hparse, rfl⟩
  have hplain := arePlain_parse hparse
  rcases hmem with rfl | hmem
  · exact ⟨⟨mainName, [], block⟩, hplain, rfl⟩
  · rcases List.mem_map.1 hmem with ⟨d, hd, rfl⟩
    exact ⟨d, isPlain_of_mem_declaredIn block hplain hd, rfl⟩

instance : Nonempty FuncDecl :=
  ⟨⟨mainName, [], []⟩⟩

/-- A definition that compiles to the entry of a function table, if there is one. -/
noncomputable def definitionOf : Callable ν → Definition ν
  | .native native => .native native
  | .script f => .declared (Classical.epsilon fun d => d.IsPlain ∧ d.compile = f)

/-- A machine with compiled functions is ready to be compared with evaluation, however it has come
about. -/
theorem Vm.IsCompiled.exists_ready {vm : Vm ν} (h : vm.IsCompiled) :
    ∃ defs, vm.IsReady vm.limits defs := by
  -- Some declaration that compiles to the function is chosen; they all do the same.
  refine ⟨vm.functions.map definitionOf, ⟨?_, ?_⟩, h, rfl⟩
  · intro name
    rw [Store.Table.get?_map]
    cases hc : vm.functions.get? name with
    | none => rfl
    | some c =>
        cases c with
        | native native => rfl
        | script f =>
            have hspec := Classical.epsilon_spec (exists_decl (h name f hc))
            simp only [Option.map_some, definitionOf, callableOf, hspec.2]
  · intro name d hd
    rw [Store.Table.get?_map] at hd
    rcases Option.map_eq_some_iff.1 hd with ⟨c, hc, hdefinition⟩
    cases c with
    | native native => cases hdefinition
    | script f =>
        cases hdefinition
        exact (Classical.epsilon_spec (exists_decl (h name f hc))).1

/-! ## Calls from outside follow the evaluation of the callee -/

section Calls

variable {natives : Natives ν σ} {limits : Limits} {defs : Definitions ν} {m : Hosted ν σ}
variable {definition : Definition ν} {args : List Value}

/-- The callee is gone again and has left something in the given world. -/
def Returned (depth : Nat) (_ : Value) (w : World σ) (m : Hosted ν σ) : Prop :=
  m.vm.stack.frames.size ≤ depth ∧ m.world = w

/-- A call that has just begun follows an evaluation. It may be over at once. -/
def Opens (natives : Natives ν σ) (depth n : Nat)
    (out : Option (Except ScriptError Value × World σ)) :
    Except ScriptError Unit × Hosted ν σ → Prop
  | (.ok (), m) => Follows natives depth n m (Returned depth) out
  | (.error e, m) => IsLimit e ∨ out = some (.error e, m.world)

/-- A call on the machine follows the evaluation of its function. -/
theorem call_opens (hready : m.vm.IsReady limits defs)
    (hplain : ∀ d, definition = .declared d → d.IsPlain) (y : String) (n : Nat) :
    Opens natives m.vm.stack.frames.size n (callAt natives defs (n + 1) definition args m.world)
      (Step.call natives (m.setting.machine (m.vm.stack.slots ++ args.toArray)
        (m.vm.stack.setups.push ⟨y, callableOf definition, m.vm.stack.slots.size⟩)
        m.vm.stack.frames m.vm.globals m.vm.steps m.host)) := by
  cases definition with
  -- A native has no frame of its own: it is over with the call, and only the push of its value may
  -- find no room.
  | native native =>
      rw [callableOf, call_native_append]
      simp only [callAt, callNative, Hosted.world]
      rcases natives native args m.host with ⟨e | v, host⟩
      · exact .inr rfl
      · show Opens natives _ n (some (.ok v, ⟨m.vm.globals, host⟩))
          (Step.push v (m.setting.machine m.vm.stack.slots m.vm.stack.setups m.vm.stack.frames
            m.vm.globals m.vm.steps host))
        by_cases room : m.vm.stack.slots.size < m.vm.stack.capacity
        · rw [push_of_room (x := m.setting) room]
          exact follows_done (n := n) ⟨Nat.le_refl _, rfl⟩
        · rw [push_of_full (x := m.setting) (Nat.not_lt.1 room)]
          exact .inl trivial
  | declared d =>
      -- Either the frames are at their limit, or the body starts on a frame of its own and is
      -- followed from there.
      rcases call_declared natives y d with ⟨e, m', hlimit, hfull⟩ | hok
      · rw [callableOf, hfull]
        exact .inl hlimit
      · rw [callableOf, hok]
        let callee : Activation := ⟨d.compile, m.vm.stack.slots, m.vm.stack.frames⟩
        have hcorresponds : Corresponds natives m.setting m.vm.stack.frames.size n defs
            (callAt natives defs n) :=
          ⟨hready.knows.functions, hready.knows.plain,
            callsFollow hready.knows.functions hready.knows.plain n⟩
        have hstart : callee.At m.setting 0 (bindArguments d.params args) #[] m.vm.stack.setups
            m.world (m.setting.machine (m.vm.stack.slots ++ valuesOf (bindArguments d.params args))
              m.vm.stack.setups (m.vm.stack.frames.push ⟨d.compile, 0, m.vm.stack.slots.size⟩)
              m.vm.globals m.vm.steps m.host) :=
          ⟨m.vm.steps, by rw [Activation.machine, Array.append_empty]; rfl⟩
        refine (follows_body hcorresponds (Nat.le_refl _) rfl (hplain d rfl)
          (names_bindArguments d.params args) hstart).then_goes ?_
        rintro v w m' ⟨k, rfl⟩
        exact ⟨0, _, .refl, Nat.le_refl _, rfl⟩

/-- Pushing the arguments takes room as well. -/
theorem beginCall_opens (natives : Natives ν σ) {name : String} (texts : List String) {vm : Vm ν}
    (hready : m.vm.IsReady limits defs) (hvm : m.vm.loadFunction name = some vm)
    (hdefinition : defs.get? (normalizeName name) = some definition) (n : Nat) :
    Opens natives m.vm.stack.frames.size n
      (callAt natives defs (n + 1) definition (texts.map .text) m.world)
      (beginCall natives texts { m with vm := vm }) := by
  rcases loadFunction_eq_some hvm with ⟨callee, hcallee, hloaded⟩
  have hcallee' : callee = callableOf definition := by
    rw [hready.knows.functions, hdefinition] at hcallee
    exact (Option.some.inj hcallee).symm
  subst hcallee'
  rw [hloaded, beginCall, pushTexts_eq_pushAll]
  rcases pushAll_machine (texts.map .text) m.vm.stack.slots with ⟨hok, _⟩ | ⟨own, hfull⟩
  · rw [Attempt.bind_of_ok hok]
    refine call_opens hready ?_ _ n
    rintro d rfl
    exact hready.knows.plain _ d hdefinition
  · rw [Attempt.bind_of_error hfull]
    exact .inl trivial

/-! ## The ends of a call from outside -/

/-- The machine had no more room for the call. -/
def Invocation.IsOverflow : Invocation → Prop
  | .failed e => IsLimit e
  | _ => False

/-- A run that overflows is told as such. -/
theorem isOverflow_ofResult {r : Except ScriptError Unit} (h : IsOverflow r) :
    (Invocation.ofResult r).IsOverflow := by
  rcases r with e | _
  · exact h
  · exact h.elim

/-- What a call makes of the value of its callee. -/
def Invocation.ofValue (r : Except ScriptError Value) : Invocation :=
  .ofResult (r.map fun _ => ())

variable {name : String} {texts : List String} {budget : Nat}

/-- A call from outside restores the stacks whatever comes of it. -/
theorem invoke_of_opened {vm : Vm ν} (hname : name ≠ "")
    (hvm : m.vm.loadFunction name = some vm) :
    invoke natives budget name texts m =
      (restoring m.vm.mark (completeCall natives budget m.vm.stack.frames.size texts
        { m with vm := vm })).map fun (r, m) => (.ofResult r, m) := by
  rw [invoke, if_neg hname]
  simp only [hvm]
  rfl

/-- What comes of a call from outside comes of its evaluation. -/
theorem evaluates_of_invoke {vm : Vm ν} {outcome : Invocation} {m' : Hosted ν σ}
    (hready : m.vm.IsReady limits defs) (hname : name ≠ "")
    (hvm : m.vm.loadFunction name = some vm)
    (hdefinition : defs.get? (normalizeName name) = some definition)
    (h : invoke natives budget name texts m = some (outcome, m')) :
    outcome.IsOverflow ∨ ∃ fuel r, outcome = .ofValue r ∧
      callAt natives defs fuel definition (texts.map .text) m.world = some (r, m'.world) := by
  have hopens := beginCall_opens natives texts hready hvm hdefinition (budget + 1)
  rw [invoke_of_opened hname hvm, completeCall] at h
  -- The call may fail before it has a frame; then nothing is run.
  rcases hbegin : beginCall natives texts { m with vm := vm } with ⟨e | _, m₁⟩
  · rw [hbegin] at hopens h
    cases h
    exact hopens.imp_right fun heval => ⟨_, _, rfl, heval⟩
  · rw [hbegin] at hopens h
    simp only at h
    rcases hrun : runUntil natives m.vm.stack.frames.size budget m₁ with _ | ended
    · rw [hrun] at h
      cases h
    · rw [hrun] at h
      cases h
      rcases Follows.ended hopens (fun _ _ _ h => h.1) hrun (Nat.lt_succ_self budget) with
        hoverflow | ⟨final, heval, harrives⟩
      · exact .inl (isOverflow_ofResult hoverflow)
      · right
        rcases final with ⟨e | v, w⟩ <;> rcases ended with ⟨e' | _, m₂⟩
        · rcases harrives with ⟨rfl, hworld⟩
          exact ⟨_, _, rfl, by rw [heval, ← hworld]; rfl⟩
        · exact harrives.elim
        · exact harrives.elim
        · exact ⟨_, _, rfl, by rw [heval, ← harrives.2]; rfl⟩

/-- And an evaluation that ends is followed by a call that ends. -/
theorem invoke_of_evaluates {vm : Vm ν} {fuel : Nat} {r : Except ScriptError Value} {w : World σ}
    (hready : m.vm.IsReady limits defs) (hname : name ≠ "")
    (hvm : m.vm.loadFunction name = some vm)
    (hdefinition : defs.get? (normalizeName name) = some definition)
    (h : callAt natives defs fuel definition (texts.map .text) m.world = some (r, w)) :
    ∃ budget outcome m', invoke natives budget name texts m = some (outcome, m') := by
  have hopens := beginCall_opens natives texts hready hvm hdefinition fuel
  rw [within_callAt (Nat.le_succ fuel) definition _ _ _ h] at hopens
  rcases hbegin : beginCall natives texts { m with vm := vm } with ⟨e | _, m₁⟩
  · refine ⟨0, .failed e, { m₁ with vm := m₁.vm.restore m.vm.mark }, ?_⟩
    rw [invoke_of_opened hname hvm, completeCall, hbegin]
    rfl
  · rw [hbegin] at hopens
    rcases Follows.ends hopens fun _ _ _ h => h.1 with ⟨budget, ended, hrun, _⟩
    refine ⟨budget, .ofResult ended.1, { ended.2 with vm := ended.2.vm.restore m.vm.mark }, ?_⟩
    rw [invoke_of_opened hname hvm, completeCall, hbegin]
    simp only [hrun]
    rfl

end Calls

/-! ## The source of a call follows the same evaluation -/

section Sources

variable {natives : Natives ν σ} {defs : Definitions ν} {name : String} {args : List String}

/-- Strings evaluate to themselves. -/
theorem evalExprs_texts (apply : Definition ν → List Value → Evaluation σ Value)
    (locals : Locals) (args : List String) :
    evalExprs defs apply locals (args.map fun s => .literal (.text s)) =
      pure (args.map .text) := by
  induction args with
  | nil => rfl
  | cons s args ih =>
      rw [List.map_cons, evalExprs, ih]
      rfl

/-- A source that calls nothing fails. -/
theorem evalUnit_call_of_none (hnone : defs.get? (normalizeName name) = none) (fuel : Nat)
    (w : World σ) :
    evalUnit natives defs fuel (callBlock name args) w =
      some (.error (.unknownFunction (normalizeName name)), w) := by
  have hresolve : (resolve defs (normalizeName name) : Evaluation σ (Definition ν)) =
      Evaluation.ofExcept (.error (.unknownFunction (normalizeName name))) := by
    rw [resolve, normalizeName_normalizeName, hnone]
  rw [evalUnit, callBlock, execBlock, execStmt, evalExpr, hresolve]
  rfl

theorem evalUnit_call_of_some {definition : Definition ν}
    (hdefinition : defs.get? (normalizeName name) = some definition) (fuel : Nat) (w : World σ) :
    evalUnit natives defs fuel (callBlock name args) w =
      (callAt natives defs fuel definition (args.map .text) w).map fun (r, w) =>
        (r.map fun _ => .null, w) := by
  have hresolve : (resolve defs (normalizeName name) : Evaluation σ (Definition ν)) =
      pure definition := by
    rw [resolve, normalizeName_normalizeName, hdefinition]
  rw [evalUnit, callBlock, execBlock, execStmt, evalExpr, hresolve, evalExprs_texts]
  rcases hcall : callAt natives defs fuel definition (args.map .text) w with _ | ⟨_ | v, w'⟩ <;>
    simp [bind, andThen, pure, done, hcall, Evaluation.followedBy, execBlock, Flow.value,
      Except.map]

end Sources

end Machine

/-! ## What a session tells of a call -/

namespace Host

open Machine

/-- One notice after the other. -/
def Bridge.noteAll (ns : List Notice) (b : Bridge) : Bridge :=
  ns.foldl (fun b n => b.note n) b

/-- An unknown name leaves a trace in the journal and an error a warning. -/
def noticesOf (name : String) : Invocation → List Notice
  | .unknown => [.targetMissing name]
  | .failed e => [.callFailed name e]
  | .ignored | .completed => []

/-- What a session tells of a call changes the journal alone. -/
theorem noteInvocation_eq (name : String) (outcome : Invocation) (s : Session) :
    Session.noteInvocation name outcome s =
      some ((), { s with bridge := s.bridge.noteAll (noticesOf name outcome) }) := by
  cases outcome <;> rfl

/-- A session calls its machine and gives no error to its own caller. -/
theorem session_invoke_eq_some {s s' : Session} {vm : Vm Builtin} {budget : Nat} {name : String}
    {args : List String} (hvm : s.machine = some vm)
    (h : s.invoke budget name args = some ((), s')) :
    ∃ outcome m, invoke Builtin.run budget name args ⟨vm, s.bridge⟩ = some (outcome, m) ∧
      s' = { s with machine := some m.vm, bridge := m.host.noteAll (noticesOf name outcome) } := by
  have hcalls : Session.onMachine (Machine.invoke Builtin.run budget name args) s =
      (Machine.invoke Builtin.run budget name args ⟨vm, s.bridge⟩).map fun (outcome, m) =>
        (some outcome, { s with machine := some m.vm, bridge := m.host }) := by
    rw [Session.onMachine, hvm]
  rw [Session.invoke] at h
  rcases hinvoke : Machine.invoke Builtin.run budget name args ⟨vm, s.bridge⟩ with
    _ | ⟨outcome, m⟩
  · rw [hinvoke] at hcalls
    simp [bind, StateT.bind, hcalls] at h
  · rw [hinvoke] at hcalls
    simp only [bind, StateT.bind, hcalls, Option.map_some, Option.bind_some,
      noteInvocation_eq] at h
    cases h
    exact ⟨outcome, m, rfl, rfl⟩

end Host

/-! ## Both ways to call -/

namespace Machine

open Script Evaluation

variable {ν σ : Type}

/-- A call from outside and the same call in a source have met the same end: both are complete, or
both have failed with one error, or the name was unknown to both. -/
def Invocation.Matches (name : String) : Invocation → Except ScriptError Value → Prop
  | .completed, .ok v => v = .null
  | .failed e, .error e' => e' = e
  | .unknown, .error e => e = .unknownFunction (normalizeName name)
  | _, _ => False

/-- A call and a source with the same evaluation match. -/
theorem matches_ofValue (name : String) (r : Except ScriptError Value) :
    (Invocation.ofValue r).Matches name (r.map fun _ => .null) := by
  rcases r with e | v <;> rfl

/-- An unknown function leaves everything as it was. -/
theorem invoke_of_unknown {natives : Natives ν σ} {m : Hosted ν σ} {name : String}
    {args : List String} (hname : name ≠ "") (hvm : m.vm.loadFunction name = none)
    (budget : Nat) : invoke natives budget name args m = some (.unknown, m) := by
  rw [invoke, if_neg hname, hvm]

section Agreement

variable {natives : Natives ν σ} {limits : Limits} {defs : Definitions ν} {m m₁ m₂ : Hosted ν σ}
variable {name : String} {args : List String} {budget budget' : Nat}

/-- What an ended call from outside tells about the source of the same call. -/
theorem source_of_invoke {outcome : Invocation} (hready : m.vm.IsReady limits defs)
    (hname : IsIdentifier name)
    (h : invoke natives budget name args m = some (outcome, m₁)) :
    outcome.IsOverflow ∨ ∃ r, outcome.Matches name r ∧ (outcome = .unknown → m₁ = m) ∧
      Evaluates natives defs (callBlock name args) m.world r m₁.world := by
  cases hdefinition : defs.get? (normalizeName name) with
  | none =>
      have hvm : m.vm.loadFunction name = none := by
        rw [Vm.loadFunction, hready.knows.functions, hdefinition]
        rfl
      rw [invoke_of_unknown hname.ne_empty hvm] at h
      cases h
      exact .inr ⟨.error (.unknownFunction (normalizeName name)), rfl, fun _ => rfl, 0,
        evalUnit_call_of_none hdefinition 0 m.world⟩
  | some definition =>
      obtain ⟨vm, hvm⟩ : ∃ vm, m.vm.loadFunction name = some vm := by
        rw [Vm.loadFunction, hready.knows.functions, hdefinition]
        exact ⟨_, rfl⟩
      refine (evaluates_of_invoke hready hname.ne_empty hvm hdefinition h).imp_right ?_
      rintro ⟨fuel, r, rfl, heval⟩
      refine ⟨_, matches_ofValue name r, ?_, fuel, ?_⟩
      · intro hunknown
        rcases r with e | v <;> cases hunknown
      · rw [evalUnit_call_of_some hdefinition, heval]
        rfl

/-- And the other way round. -/
theorem invoke_of_source {r : Except ScriptError Value} {w : World σ}
    (hready : m.vm.IsReady limits defs) (hname : IsIdentifier name)
    (h : Evaluates natives defs (callBlock name args) m.world r w) :
    ∃ budget outcome m₁, invoke natives budget name args m = some (outcome, m₁) := by
  rcases h with ⟨fuel, heval⟩
  cases hdefinition : defs.get? (normalizeName name) with
  | none =>
      have hvm : m.vm.loadFunction name = none := by
        rw [Vm.loadFunction, hready.knows.functions, hdefinition]
        rfl
      exact ⟨0, _, _, invoke_of_unknown hname.ne_empty hvm 0⟩
  | some definition =>
      obtain ⟨vm, hvm⟩ : ∃ vm, m.vm.loadFunction name = some vm := by
        rw [Vm.loadFunction, hready.knows.functions, hdefinition]
        exact ⟨_, rfl⟩
      rw [evalUnit_call_of_some hdefinition] at heval
      rcases Option.map_eq_some_iff.1 heval with ⟨⟨r', w'⟩, hcall, _⟩
      exact invoke_of_evaluates hready hname.ne_empty hvm hdefinition hcall

end Agreement

/-- Take any machine whose functions are compiled and that allows two levels of nesting, a name that
is read as an identifier, and any strings. The call from outside and the source of the same call
meet the same end, in the same globals and the same host after the same native calls, or one of them
runs out of room; and if one of them ends and not for want of room, so does the other. A session
gives no error of the call to its own caller, but tells its journal. -/
theorem outside_calls_are_calls_in_sources (natives : Natives ν σ)
    {m : Hosted ν (σ × List (ν × List Value))} (hcompiled : m.vm.IsCompiled)
    (hnesting : 2 ≤ m.vm.limits.nestingDepth) {name : String}
    (hname : tokenize name = .ok [⟨.ident name, 1⟩]) (args : List String) :
    (∀ budget budget' outcome m₁ r m₂,
      invoke (logged natives) budget name args m = some (outcome, m₁) →
      runSource (logged natives) budget' (callText name args) m = some (r, m₂) →
      outcome.IsOverflow ∨ IsOverflow r ∨
        outcome.Matches name r ∧ m₁.world = m₂.world ∧ (outcome = .unknown → m₁ = m)) ∧
    (∀ budget outcome m₁, invoke (logged natives) budget name args m = some (outcome, m₁) →
      outcome.IsOverflow ∨
        ∃ budget' r m₂, runSource (logged natives) budget' (callText name args) m = some (r, m₂)) ∧
    (∀ budget r m₂, runSource (logged natives) budget (callText name args) m = some (r, m₂) →
      IsOverflow r ∨
        ∃ budget' outcome m₁, invoke (logged natives) budget' name args m = some (outcome, m₁)) ∧
    ∀ (s s' : Host.Session) vm budget, s.machine = some vm →
      s.invoke budget name args = some ((), s') →
      ∃ outcome m₁, invoke Host.Builtin.run budget name args ⟨vm, s.bridge⟩ = some (outcome, m₁) ∧
        s' = { s with
          machine := some m₁.vm
          bridge := m₁.host.noteAll (Host.noticesOf name outcome) } := by
  have hidentifier := isIdentifier_of_tokenize hname
  have hparse := parse_callText hidentifier args hnesting
  rcases hcompiled.exists_ready with ⟨defs, hready⟩
  refine ⟨?_, ?_, ?_, fun s s' vm budget hvm h => Host.session_invoke_eq_some hvm h⟩
  · -- Both sides are compared with the evaluator, which gives one result.
    intro budget budget' outcome m₁ r m₂ hinvoke hrun
    rcases source_of_invoke hready hidentifier hinvoke with hfull | ⟨r', hmatches, hunknown, heval⟩
    · exact .inl hfull
    · rcases evaluates_of_runSource hready hparse hrun with hfull | heval'
      · exact .inr (.inl hfull)
      · rcases heval.unique heval' with ⟨rfl, hworld⟩
        exact .inr (.inr ⟨hmatches, hworld, hunknown⟩)
  · intro budget outcome m₁ hinvoke
    refine (source_of_invoke hready hidentifier hinvoke).imp_right ?_
    rintro ⟨r, _, _, heval⟩
    rcases runSource_of_evaluates hready hparse heval with ⟨budget', r', m₂, hrun, _⟩
    exact ⟨budget', r', m₂, hrun⟩
  · intro budget r m₂ hrun
    refine (evaluates_of_runSource hready hparse hrun).imp_right ?_
    exact invoke_of_source hready hidentifier

instance : DecidablePred IsLimit
  | .stackOverflow | .callDepthExceeded _ => .isTrue trivial
  | .compile _ | .stackUnderflow | .unknownFunction _ | .type _ | .runtime _ => .isFalse id

instance {α : Type} : DecidablePred (IsOverflow : Except ScriptError α → Prop)
  | .ok _ => .isFalse id
  | .error e => inferInstanceAs (Decidable (IsLimit e))

/-- A call with a quote, a backslash and a line feed in its arguments, of a function that calls a
native one and fails after that. -/
theorem failing_call_agrees_with_its_source :
    ∃ (m m₁ m₂ : Hosted Unit (Unit × List (Unit × List Value))) (outcome : Invocation)
      (r : Except ScriptError Value),
      invoke (logged fun _ _ => pure .null) 20 "Greet" ["a\"b", "c\\d\n"] m =
        some (outcome, m₁) ∧
      runSource (logged fun _ _ => pure .null) 20 "Greet(\"a\\\"b\", \"c\\\\d\n\")" m =
        some (r, m₂) ∧
      outcome = .failed (.unknownFunction "missing") ∧ outcome.Matches "Greet" r ∧
      m₁.world = m₂.world ∧ m₂.host.2 = [((), [.text "a\"b", .text "c\\d\n"])] := by
  let natives : Natives Unit Unit := fun _ _ => pure .null
  let m : Hosted Unit (Unit × List (Unit × List Value)) :=
    ⟨(Vm.load "func Greet(x, z) \x7b say(x, z) y = z missing(y) \x7d"
      ((Vm.new {}).registerNative "say" ())).2, ((), [])⟩
  let outside := invoke (logged natives) 20 "Greet" ["a\"b", "c\\d\n"] m
  let m₁ := (outside.map Prod.snd).getD m
  let inside := runSource (logged natives) 20 "Greet(\"a\\\"b\", \"c\\\\d\n\")" m
  let m₂ := (inside.map Prod.snd).getD m
  obtain ⟨outcome, houtside⟩ : ∃ outcome, outside = some (outcome, m₁) :=
    exists_of_isSome (by decide +kernel)
  obtain ⟨r, hinside⟩ : ∃ r, inside = some (r, m₂) := exists_of_isSome (by decide +kernel)
  have htext : callText "Greet" ["a\"b", "c\\d\n"] = "Greet(\"a\\\"b\", \"c\\\\d\n\")" := by
    decide +kernel
  have hcompiled : m.vm.IsCompiled := ((Vm.IsCompiled.new {}).registerNative "say" ()).load _
  have hname : tokenize "Greet" = .ok [⟨.ident "Greet", 1⟩] := by decide +kernel
  have hagree := (outside_calls_are_calls_in_sources natives hcompiled (by decide +kernel) hname
    ["a\"b", "c\\d\n"]).1 20 20 outcome m₁ r m₂ houtside (htext ▸ hinside)
  have hlog : m₂.host.2 = [((), [.text "a\"b", .text "c\\d\n"])] := by decide +kernel
  let failure : Invocation → Option ScriptError
    | .failed e => some e
    | _ => none
  have hfailed : outside.map (fun ended => failure ended.1) =
      some (some (.unknownFunction "missing")) := by
    decide +kernel
  rw [houtside] at hfailed
  -- A value has no decidable equality, so no more of the outcome is computed than its error.
  cases outcome with
  | failed e =>
      cases hfailed
      have hroom : inside.map (fun ended => decide (IsOverflow ended.1)) = some false := by
        decide +kernel
      rw [hinside] at hroom
      rcases hagree with hfull | hfull | ⟨hmatches, hworld, _⟩
      · exact hfull.elim
      · exact absurd hfull (by simpa using hroom)
      · exact ⟨m, m₁, m₂, _, r, houtside, hinside, rfl, hmatches, hworld, hlog⟩
  | _ => cases hfailed

end Machine
end ScriptHost
