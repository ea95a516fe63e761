import ScriptHost.Proofs.Execution
import ScriptHost.Proofs.Simulation

/-!
# Units follow their evaluation

A new machine with native functions runs one source after another. What the names of functions
stand for at any time is known from the sources alone, so a unit that compiles can be evaluated
without its code; the machine returns what the evaluation gives, and globals and host are afterwards
what the evaluation has made of them. Only a machine that runs out of room does something else.
-/

namespace ScriptHost

/-! ## Definitions -/

namespace Evaluation

open Script

variable {ν : Type}

/-- What the names of native functions stand for. The last one of a name counts. -/
def nativeDefinitions (registered : List (String × ν)) : Definitions ν :=
  registered.foldl (fun defs entry => defs.insert (normalizeName entry.1) (.native entry.2)) .empty

/-- The definitions after a source. One that does not compile defines nothing. -/
def definitionsAfter (limit : Nat) (defs : Definitions ν) (source : String) : Definitions ν :=
  match parse limit source with
  | .ok block => declare block defs
  | .error _ => defs

end Evaluation

namespace Machine

open Script Evaluation

variable {ν σ : Type}

/-! ## What a machine knows -/

/-- The functions that a machine knows are the definitions of an evaluation. -/
structure Vm.Knows (vm : Vm ν) (defs : Definitions ν) : Prop where
  functions : ∀ name, vm.functions.get? name = (defs.get? name).map callableOf
  plain : ∀ name d, defs.get? name = some (.declared d) → d.IsPlain

namespace Vm.Knows

variable {vm : Vm ν} {defs : Definitions ν}

/-- A new machine knows nothing. -/
theorem new (limits : Limits) : (Vm.new limits : Vm ν).Knows .empty := by
  constructor
  · intro name
    rfl
  · intro name d h
    cases h

theorem define (h : vm.Knows defs) (name : String) (definition : Definition ν)
    (hplain : ∀ d, definition = .declared d → d.IsPlain) :
    (vm.define name (callableOf definition)).Knows
      (defs.insert (normalizeName name) definition) := by
  constructor
  · intro key
    rw [Vm.define, Store.Table.get?_insert, Store.Table.get?_insert]
    split
    · rfl
    · exact h.functions key
  · intro key d hd
    rw [Store.Table.get?_insert] at hd
    split at hd
    · exact hplain d (Option.some.inj hd)
    · exact h.plain key d hd

/-- One native function more. -/
theorem registerNative (h : vm.Knows defs) (name : String) (native : ν) :
    (vm.registerNative name native).Knows (defs.insert (normalizeName name) (.native native)) := by
  refine h.define name (.native native) ?_
  intro d hd
  cases hd

theorem defineFunctions {ds : List FuncDecl} (h : vm.Knows defs) (hds : ∀ d ∈ ds, d.IsPlain) :
    (vm.defineFunctions (ds.map FuncDecl.compile)).Knows
      (ds.foldl (fun defs d => defs.insert (normalizeName d.name) (.declared d)) defs) := by
  induction ds generalizing vm defs with
  | nil => exact h
  | cons d rest ih =>
      refine ih ?_ fun d hd => hds d (List.mem_cons_of_mem _ hd)
      have hname : d.compile.name = d.name := Function.name_ofBody _ _ _
      show (vm.define d.compile.name (.script d.compile)).Knows _
      rw [hname]
      refine h.define d.name (.declared d) ?_
      intro d' hd'
      cases hd'
      exact hds d List.mem_cons_self

/-- A source that is loaded is known by its declarations. -/
theorem load (h : vm.Knows defs) (source : String) :
    (Vm.load source vm).2.Knows (definitionsAfter vm.limits.nestingDepth defs source) := by
  rw [Vm.load, compile, definitionsAfter]
  cases hparse : parse vm.limits.nestingDepth source with
  | error e => exact h
  | ok block =>
      refine h.defineFunctions fun d hd => ?_
      exact isPlain_of_mem_declaredIn block (arePlain_parse hparse) hd

end Vm.Knows

/-! ## What a unit leaves alone -/

section Setting

variable {natives : Natives ν σ} {x : Setting ν} {o : Stack ν} {m m' : Hosted ν σ} {budget : Nat}

/-- No step changes the setting. -/
theorem Outcome.setting {ended : Except ScriptError Unit × Hosted ν σ}
    (h : Outcome natives x o m ended) : ended.2.setting = x := by
  cases h with
  | goes _ => rfl
  | returns => rfl
  | fails _ _ => rfl

theorem Ongoing.runUntil_setting {r : Except ScriptError Unit} (h : Ongoing o m)
    (hrun : runUntil natives o.frames.size budget m = some (r, m')) :
    m'.setting = m.setting := by
  -- a step never leaves the setting, and so neither does any number of them
  have hsetting {m₁ m₂ : Hosted ν σ} {out : Except ScriptError Unit} (hm₁ : Ongoing o m₁)
      (hstep : step natives m₁ = (out, m₂)) : m₂.setting = m₁.setting :=
    (hstep ▸ hm₁.step_outcome natives).setting
  have hends := runUntil_ends
    (P := fun m₁ => (Ongoing o m₁ ∨ Finished o m₁) ∧ m₁.setting = m.setting) ?_
    ⟨.inl h, rfl⟩ hrun
  · rcases hends with ⟨_, ⟨_, hend⟩, _⟩ | ⟨e, m₁, _, ⟨hform, hm₁⟩, hmore, hfails⟩
    · exact hend
    · exact (hsetting (ongoing_of_lt hform hmore) hfails).trans hm₁
  · rintro m₁ m₂ ⟨hform, hm₁⟩ hmore hstep
    have hgoes := ongoing_of_lt hform hmore
    exact ⟨hgoes.step_ok hstep, (hsetting hgoes hstep).trans hm₁⟩

/-- Only loading defines functions. -/
theorem beginSource_setting (source : String) :
    (beginSource source m).2.vm.functions = (Vm.load source m.vm).2.functions ∧
      (beginSource source m).2.vm.limits = m.vm.limits := by
  rw [Vm.load]
  cases hcompile : compile m.vm.limits.nestingDepth source with
  | error e =>
      rw [beginSource_of_error hcompile]
      exact ⟨rfl, rfl⟩
  | ok compiled =>
      by_cases full : m.vm.limits.callDepth ≤ m.vm.stack.frames.size
      · rw [beginSource_of_full hcompile full]
        exact ⟨rfl, rfl⟩
      · rw [beginSource_of_room hcompile (Nat.not_le.1 full)]
        exact ⟨rfl, rfl⟩

/-- A unit changes the functions of the machine by what it declares and the limits not at all. -/
theorem runSource_setting {source : String} {r : Except ScriptError Value}
    (hm : m.vm.IsCompiled) (h : runSource natives budget source m = some (r, m')) :
    m'.vm.functions = (Vm.load source m.vm).2.functions ∧ m'.vm.limits = m.vm.limits := by
  have hbegin := beginSource_setting (m := m) source
  rcases runSource_eq_some h with ⟨e, hrefused, _⟩ | ⟨mark, m₁, r₂, m₂, hbegun, hrun, hends⟩
  · rwa [hrefused] at hbegin
  · rw [hbegun] at hbegin
    rcases beginSource_ok hm hbegun with ⟨rfl, hongoing⟩
    have hsetting : m₂.setting = m₁.setting := hongoing.runUntil_setting hrun
    -- neither taking the result nor cutting back changes what is known to the machine
    have hsame : m'.setting.functions = m₂.setting.functions ∧
        m'.setting.limits = m₂.setting.limits := by
      rcases hends with ⟨e, _, _, rfl⟩ | ⟨_, m₃, hpop, rfl⟩
      · exact ⟨rfl, rfl⟩
      · have hm₃ : m₃ = (Step.pop m₂).2 := by rw [hpop]
        subst hm₃
        exact ⟨rfl, rfl⟩
    rw [hsetting] at hsame
    exact ⟨hsame.1.trans hbegin.1, hsame.2.trans hbegin.2⟩

end Setting

/-! ## Sequences of units -/

/-- What is known of a machine between two units. -/
structure Vm.IsReady (vm : Vm ν) (limits : Limits) (defs : Definitions ν) : Prop where
  knows : vm.Knows defs
  compiled : vm.IsCompiled
  limits : vm.limits = limits

/-- A new machine with native functions. -/
def Vm.withNatives (limits : Limits) (registered : List (String × ν)) : Vm ν :=
  registered.foldl (fun vm entry => vm.registerNative entry.1 entry.2) (.new limits)

/-- A machine with native functions is ready. -/
theorem isReady_withNatives (limits : Limits) (registered : List (String × ν)) :
    (Vm.withNatives limits registered).IsReady limits (nativeDefinitions registered) := by
  -- said of any machine, since the fold goes on from one that is not new any more
  have hfold (vm : Vm ν) (defs : Definitions ν) (h : vm.IsReady limits defs) :
      (registered.foldl (fun vm entry => vm.registerNative entry.1 entry.2) vm).IsReady limits
        (registered.foldl (fun defs entry => defs.insert (normalizeName entry.1)
          (.native entry.2)) defs) := by
    induction registered generalizing vm defs with
    | nil => exact h
    | cons entry rest ih =>
        exact ih _ _ ⟨h.knows.registerNative entry.1 entry.2,
          h.compiled.registerNative entry.1 entry.2, h.limits⟩
  exact hfold _ _ ⟨.new limits, .new limits, rfl⟩

/-- The machines that a sequence of sources may lead to, however each of them ends. -/
inductive Ran (natives : Natives ν σ) (start : Hosted ν σ) : List String → Hosted ν σ → Prop
  | nil : Ran natives start [] start
  | unit {sources m source budget r m'} : Ran natives start sources m →
      runSource natives budget source m = some (r, m') →
      Ran natives start (sources ++ [source]) m'

theorem Ran.isReady {natives : Natives ν σ} {start m : Hosted ν σ} {sources : List String}
    {limits : Limits} {defs : Definitions ν} (h : Ran natives start sources m)
    (hstart : start.vm.IsReady limits defs) :
    m.vm.IsReady limits (sources.foldl (definitionsAfter limits.nestingDepth) defs) := by
  -- Whatever a source does, the functions afterwards are those that loading it gives.
  induction h with
  | nil => exact hstart
  | @unit sources m source budget r m' _ hrun ih =>
      rcases runSource_setting ih.compiled hrun with ⟨hfunctions, hlimits⟩
      have hknows := ih.knows.load source
      rw [ih.limits] at hknows
      have hcompiled := ih.compiled.load source
      rw [List.foldl_append]
      refine ⟨⟨?_, hknows.plain⟩, ?_, hlimits.trans ih.limits⟩
      · intro name
        rw [hfunctions]
        exact hknows.functions name
      · intro name f hf
        exact hcompiled name f (hfunctions ▸ hf)

/-! ## Units and their evaluation -/

section Agreement

variable {natives : Natives ν σ} {limits : Limits} {defs : Definitions ν} {m m₁ : Hosted ν σ}
variable {source : String} {block : Block} {budget : Nat}

/-- The result of a unit lies above the operands that were there before. -/
def Leaves (o : Stack ν) (v : Value) (w : World σ) (m : Hosted ν σ) : Prop :=
  m.vm.stack = { o with slots := o.slots.push v } ∧ m.world = w

/-- A unit leaves no frame behind. -/
theorem Leaves.frames_le {o : Stack ν} (v : Value) (w : World σ) (m : Hosted ν σ)
    (h : Leaves o v w m) : m.vm.stack.frames.size ≤ o.frames.size :=
  Nat.le_of_eq (by rw [h.1])

theorem Vm.IsReady.compile_eq_ok (hready : m.vm.IsReady limits defs)
    (hparse : parse limits.nestingDepth source = .ok block) :
    compile m.vm.limits.nestingDepth source = .ok (compileBlock block) := by
  rw [compile, hready.limits, hparse]
  rfl

/-- A unit that has begun follows its evaluation. -/
theorem follows_unit (hready : m.vm.IsReady limits defs)
    (hparse : parse limits.nestingDepth source = .ok block)
    (hroom : m.vm.stack.frames.size < m.vm.limits.callDepth) :
    ∃ m₁, beginSource source m = (.ok m.vm.mark, m₁) ∧
      ∀ n, Follows natives m.vm.stack.frames.size n m₁ (Leaves m.vm.stack)
        (evalUnit natives (declare block defs) n block m.world) := by
  refine ⟨_, beginSource_of_room (hready.compile_eq_ok hparse) hroom, ?_⟩
  intro n
  let x := (m.loaded (compileBlock block)).setting
  -- top-level code is an activation without parameters, above all that was there
  let main : Activation := ⟨(compileBlock block).main, m.vm.stack.slots, m.vm.stack.frames⟩
  have hplain := arePlain_parse hparse
  have hknows : (m.vm.defineFunctions (compileBlock block).functions).Knows (declare block defs) :=
    hready.knows.defineFunctions fun d hd => isPlain_of_mem_declaredIn block hplain hd
  have hcorresponds : Corresponds natives x m.vm.stack.frames.size n (declare block defs)
      (callAt natives (declare block defs) n) :=
    ⟨hknows.functions, hknows.plain, callsFollow hknows.functions hknows.plain n⟩
  have hstart : main.At x 0 [] #[] m.vm.stack.setups m.world
      (x.machine m.vm.stack.slots m.vm.stack.setups
        (m.vm.stack.frames.push ⟨main.function, 0, m.vm.stack.slots.size⟩) m.vm.globals
        m.vm.steps m.host) := by
    refine ⟨m.vm.steps, ?_⟩
    simp [Activation.machine, valuesOf, main, Hosted.world]
  refine (follows_body hcorresponds (Nat.le_refl _) rfl hplain rfl hstart).then_goes ?_
  rintro v w m' ⟨k, rfl⟩
  exact ⟨0, _, .refl, rfl, rfl⟩

/-- A source that has begun is run, and then its value is taken. -/
theorem runSource_of_begin (hbegin : beginSource source m = (.ok m.vm.mark, m₁)) :
    runSource natives budget source m =
      restoring m.vm.mark
        (followedBy (runUntil natives m.vm.stack.frames.size budget m₁) Step.pop) := by
  rw [runSource, hbegin]
  rfl

/-- A unit that arrives where its evaluation ends gives the result of the evaluation. -/
theorem runSource_of_arrives {final : Except ScriptError Value × World σ}
    {ended : Except ScriptError Unit × Hosted ν σ}
    (hbegin : beginSource source m = (.ok m.vm.mark, m₁))
    (hrun : runUntil natives m.vm.stack.frames.size budget m₁ = some ended)
    (harrives : Arrives (Leaves m.vm.stack) final ended) :
    ∃ m', runSource natives budget source m = some (final.1, m') ∧ m'.world = final.2 := by
  rw [runSource_of_begin hbegin, hrun]
  -- An evaluation that fails arrives at an error, and one that gives a value at a return.
  rcases final with ⟨e | v, w⟩
  · rcases ended with ⟨e' | _, m₂⟩
    · rcases harrives with ⟨rfl, hworld⟩
      exact ⟨_, rfl, hworld⟩
    · exact harrives.elim
  · rcases ended with ⟨e' | _, m₂⟩
    · exact harrives.elim
    · rcases harrives with ⟨hstack, hworld⟩
      have hpop : Step.pop m₂ = (.ok v, { m₂ with vm.stack := m.vm.stack }) := by
        simp [Step.pop, Exec.onStack, Stack.pop, hstack]
      rw [followedBy, hpop]
      refine ⟨_, rfl, ?_⟩
      exact hworld

/-- A run that overflows is told as such. -/
theorem runSource_of_overflow {ended : Except ScriptError Unit × Hosted ν σ}
    (hbegin : beginSource source m = (.ok m.vm.mark, m₁))
    (hrun : runUntil natives m.vm.stack.frames.size budget m₁ = some ended)
    (hoverflow : IsOverflow ended.1) :
    ∃ r m', runSource natives budget source m = some (r, m') ∧ IsOverflow r := by
  rw [runSource_of_begin hbegin, hrun]
  rcases ended with ⟨e | _, m₂⟩
  · exact ⟨_, _, rfl, hoverflow⟩
  · exact hoverflow.elim

theorem runSource_of_noRoom (budget : Nat) (hready : m.vm.IsReady limits defs)
    (hparse : parse limits.nestingDepth source = .ok block)
    (hfull : m.vm.limits.callDepth ≤ m.vm.stack.frames.size) :
    ∃ r m', runSource natives budget source m = some (r, m') ∧ IsOverflow r := by
  rw [runSource, beginSource_of_full (hready.compile_eq_ok hparse) hfull]
  exact ⟨_, _, rfl, trivial⟩

/-- A unit that is over has given what its evaluation gives, or the machine had no more room. -/
theorem evaluates_of_runSource {r : Except ScriptError Value} {m' : Hosted ν σ}
    (hready : m.vm.IsReady limits defs) (hparse : parse limits.nestingDepth source = .ok block)
    (h : runSource natives budget source m = some (r, m')) :
    IsOverflow r ∨ Evaluates natives (declare block defs) block m.world r m'.world := by
  have hsame {r' : Except ScriptError Value} {m'' : Hosted ν σ}
      (h' : runSource natives budget source m = some (r', m'')) : r = r' ∧ m' = m'' := by
    rw [h] at h'
    cases h'
    exact ⟨rfl, rfl⟩
  by_cases hfull : m.vm.limits.callDepth ≤ m.vm.stack.frames.size
  · rcases runSource_of_noRoom budget hready hparse hfull with ⟨r', m'', h', hoverflow⟩
    exact .inl ((hsame h').1 ▸ hoverflow)
  · rcases follows_unit hready hparse (Nat.not_le.1 hfull) with ⟨m₁, hbegin, hfollows⟩
    obtain ⟨ended, hrun⟩ : ∃ ended,
        runUntil natives m.vm.stack.frames.size budget m₁ = some ended := by
      rcases runSource_eq_some h with ⟨e, hrefused, _⟩ | ⟨mark, m₁', r₂, m₂, hbegun, hrun, _⟩
      · rw [hbegin] at hrefused
        cases hrefused
      · rw [hbegin] at hbegun
        cases hbegun
        exact ⟨_, hrun⟩
    -- with more fuel than the run has steps, an evaluation that is not over cannot be
    rcases (hfollows (budget + 1)).ended Leaves.frames_le hrun (Nat.lt_succ_self budget) with
      hoverflow | ⟨final, heval, harrives⟩
    · rcases runSource_of_overflow hbegin hrun hoverflow with ⟨r', m'', h', hoverflow⟩
      exact .inl ((hsame h').1 ▸ hoverflow)
    · rcases runSource_of_arrives hbegin hrun harrives with ⟨m'', h', hworld⟩
      rcases hsame h' with ⟨rfl, rfl⟩
      exact .inr ⟨budget + 1, by rw [heval, hworld]⟩

/-- The run of a unit that can be evaluated is over at some time. -/
theorem runSource_of_evaluates {r : Except ScriptError Value} {w : World σ}
    (hready : m.vm.IsReady limits defs) (hparse : parse limits.nestingDepth source = .ok block)
    (h : Evaluates natives (declare block defs) block m.world r w) :
    ∃ budget r' m', runSource natives budget source m = some (r', m') ∧
      (IsOverflow r' ∨ r' = r ∧ m'.world = w) := by
  -- Without room for the first frame the run is over before it begins, and that counts as an
  -- overflow.
  by_cases hfull : m.vm.limits.callDepth ≤ m.vm.stack.frames.size
  · rcases runSource_of_noRoom 0 hready hparse hfull with ⟨r', m', h', hoverflow⟩
    exact ⟨0, r', m', h', .inl hoverflow⟩
  · rcases follows_unit hready hparse (Nat.not_le.1 hfull) with ⟨m₁, hbegin, hfollows⟩
    rcases h with ⟨fuel, heval⟩
    have hends := hfollows fuel
    rw [heval] at hends
    rcases hends.ends Leaves.frames_le with ⟨budget, ended, hrun, hoverflow | harrives⟩
    · rcases runSource_of_overflow hbegin hrun hoverflow with ⟨r', m', h', hoverflow⟩
      exact ⟨budget, r', m', h', .inl hoverflow⟩
    · rcases runSource_of_arrives hbegin hrun harrives with ⟨m', h', hworld⟩
      exact ⟨budget, r, m', h', .inr ⟨rfl, hworld⟩⟩

end Agreement

/-- Native functions that keep a log of their calls, in order and with the arguments. -/
def logged (natives : Natives ν σ) : Natives ν (σ × List (ν × List Value)) :=
  fun native args (host, log) =>
    let (r, host) := natives native args host
    (r, (host, log ++ [(native, args)]))

/-- Any machine that has come from a new one by running sources agrees with evaluation on the next
source: if the run of the unit is over, the unit evaluates to the same result, globals, host and
log, or the machine had no more room; and if the unit evaluates to anything, the run is over at
some time, with just that or for want of room. -/
theorem units_agree_with_evaluation (natives : Natives ν σ) (limits : Limits)
    (registered : List (String × ν)) (host : σ) {sources : List String}
    {m : Hosted ν (σ × List (ν × List Value))}
    (hran : Ran (logged natives) ⟨.withNatives limits registered, (host, [])⟩ sources m)
    {source : String} {compiled : CompiledUnit}
    (hcompile : compile limits.nestingDepth source = .ok compiled) :
    ∃ block, parse limits.nestingDepth source = .ok block ∧
      let before := sources.foldl (definitionsAfter limits.nestingDepth)
        (nativeDefinitions registered)
      (∀ budget r m', runSource (logged natives) budget source m = some (r, m') →
        IsOverflow r ∨
          Evaluates (logged natives) (declare block before) block m.world r m'.world) ∧
      ∀ r w, Evaluates (logged natives) (declare block before) block m.world r w →
        ∃ budget r' m', runSource (logged natives) budget source m = some (r', m') ∧
          (IsOverflow r' ∨ r' = r ∧ m'.world = w) := by
  rcases compile_eq_ok hcompile with ⟨block, hparse, _⟩
  have hready := hran.isReady (isReady_withNatives limits registered)
  refine ⟨block, hparse, ?_, ?_⟩
  · intro budget r m' h
    exact evaluates_of_runSource hready hparse h
  · intro r w h
    exact runSource_of_evaluates hready hparse h

theorem exists_of_isSome {α β : Type} {o : Option (α × β)} {b : β} (h : o.isSome = true) :
    ∃ a, o = some (a, (o.map Prod.snd).getD b) := by
  rcases Option.isSome_iff_exists.1 h with ⟨⟨a, _⟩, rfl⟩
  exact ⟨a, rfl⟩

/-- A unit that calls a function of an earlier one, which calls a native function twice. -/
theorem call_of_earlier_function_agrees :
    ∃ (m m' : Hosted Unit (Unit × List (Unit × List Value))) (block : Block),
      Ran (logged fun _ _ => pure .null) ⟨.withNatives {} [("say", ())], ((), [])⟩
        ["func Twice(x) \x7b say(x) say(x, x) return x + y \x7d"] m ∧
      parse 256 "y = \"b\"; return twice(\"a\")" = .ok block ∧
      Evaluates (logged fun _ _ => pure .null)
        (declare block (definitionsAfter 256 (nativeDefinitions [("say", ())])
          "func Twice(x) \x7b say(x) say(x, x) return x + y \x7d"))
        block m.world (.ok (.text "ab")) m'.world ∧
      m'.host.2 = [((), [.text "a"]), ((), [.text "a", .text "a"])] := by
  let natives : Natives Unit Unit := fun _ _ => pure .null
  let start : Hosted Unit (Unit × List (Unit × List Value)) :=
    ⟨.withNatives {} [("say", ())], ((), [])⟩
  let first :=
    runSource (logged natives) 2 "func Twice(x) \x7b say(x) say(x, x) return x + y \x7d" start
  let m := (first.map Prod.snd).getD start
  let second := runSource (logged natives) 30 "y = \"b\"; return twice(\"a\")" m
  let m' := (second.map Prod.snd).getD start
  obtain ⟨_, hfirst⟩ : ∃ r, first = some (r, m) := exists_of_isSome (by decide +kernel)
  obtain ⟨r, hsecond⟩ : ∃ r, second = some (r, m') := exists_of_isSome (by decide +kernel)
  have hvalue : second.map (fun ended => ended.1.toOption) = some (some (.text "ab")) := by
    decide +kernel
  have hlog : m'.host.2 = [((), [.text "a"]), ((), [.text "a", .text "a"])] := by decide +kernel
  have hran : Ran (logged natives) start
      ["func Twice(x) \x7b say(x) say(x, x) return x + y \x7d"] m := .unit .nil hfirst
  have hok : (compile 256 "y = \"b\"; return twice(\"a\")").isOk = true := by decide +kernel
  rw [hsecond] at hvalue
  -- The block is not written out: the theorem gives it, once the source is known to compile.
  cases hcompile : compile 256 "y = \"b\"; return twice(\"a\")" with
  | error e =>
      rw [hcompile] at hok
      cases hok
  | ok compiled =>
      rcases units_agree_with_evaluation natives {} [("say", ())] () hran hcompile with
        ⟨block, hparse, hagrees, _⟩
      refine ⟨m, m', block, hran, hparse, ?_, hlog⟩
      cases r with
      | error e => cases hvalue
      | ok v =>
          cases hvalue
          exact (hagrees 30 _ m' hsecond).resolve_left id

end Machine
end ScriptHost
