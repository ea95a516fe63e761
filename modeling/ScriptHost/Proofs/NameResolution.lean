import ScriptHost.Host.Session
import ScriptHost.Proofs.LowerForms

/-!
# Resolution of names

A function is found under every name that has the lower-case form of its own. A binding keeps that
form of the name of its target, and a call puts it into lower case once more; since that changes
nothing, a foreign call reaches the function that was registered last under a name of the same
form, and what is registered under names of other forms makes no difference to it.
-/

namespace ScriptHost

open Script

namespace Machine

variable {ν σ : Type}

/-! ## Registered functions -/

/-- What may be put into a function table: a compiled function under its own name, or a native one
under a name that comes with it. -/
inductive Registration (ν : Type)
  | script (f : Function)
  | native (name : String) (native : ν)

namespace Registration

def name : Registration ν → String
  | .script f => f.name
  | .native name _ => name

def callable : Registration ν → Callable ν
  | .script f => .script f
  | .native _ f => .native f

end Registration

namespace Vm

/-- The table of functions is the same for both kinds. -/
def register (r : Registration ν) (vm : Vm ν) : Vm ν :=
  match r with
  | .script f => vm.defineFunction f
  | .native name native => vm.registerNative name native

def registerAll (rs : List (Registration ν)) (vm : Vm ν) : Vm ν :=
  rs.foldl (fun vm r => vm.register r) vm

/-- The entry of the function table for which a call by that name opens its setup: its key and the
function. -/
def resolved (name : String) (vm : Vm ν) : Option (String × Callable ν) :=
  (vm.loadFunction name).bind fun opened =>
    opened.stack.setups.back?.map fun setup => (setup.name, setup.callee)

/-- A registration concerns one name alone. -/
theorem get?_register (r : Registration ν) (vm : Vm ν) (key : String) :
    (vm.register r).functions.get? key =
      if normalizeName r.name = key then some r.callable else vm.functions.get? key := by
  cases r with
  | script f => exact Store.Table.get?_insert vm.functions (normalizeName f.name) key _
  | native name native => exact Store.Table.get?_insert vm.functions (normalizeName name) key _

/-- Registrations under other names leave an entry as it is. -/
theorem get?_registerAll_of_ne {rs : List (Registration ν)} {key : String}
    (h : ∀ r ∈ rs, normalizeName r.name ≠ key) (vm : Vm ν) :
    (vm.registerAll rs).functions.get? key = vm.functions.get? key := by
  induction rs generalizing vm with
  | nil => rfl
  | cons r rest ih =>
      have hrest := ih (fun q hq => h q (List.mem_cons_of_mem r hq)) (vm.register r)
      rw [get?_register, if_neg (h r List.mem_cons_self)] at hrest
      exact hrest

/-- Of what is in the table before, only the entry of a name matters to that name. -/
theorem get?_registerAll_congr {vm vm' : Vm ν} {key : String}
    (h : vm.functions.get? key = vm'.functions.get? key) (rs : List (Registration ν)) :
    (vm.registerAll rs).functions.get? key = (vm'.registerAll rs).functions.get? key := by
  induction rs generalizing vm vm' with
  | nil => exact h
  | cons r rest ih =>
      refine ih ?_
      rw [get?_register, get?_register, h]

/-- Loading puts what the name stands for on top of the stack of setups. -/
theorem loadFunction_eq (name : String) (vm : Vm ν) :
    vm.loadFunction name = (vm.functions.get? (normalizeName name)).map fun callee =>
      { vm with stack := vm.stack.pushSetup (normalizeName name) callee } :=
  rfl

/-- A name is looked up in its normal form. -/
theorem resolved_eq (name : String) (vm : Vm ν) :
    vm.resolved name =
      (vm.functions.get? (normalizeName name)).map fun callee => (normalizeName name, callee) := by
  rw [resolved, loadFunction_eq]
  cases vm.functions.get? (normalizeName name) with
  | none => rfl
  | some callee => simp [Stack.pushSetup]

section Registered

variable {before vm : Vm ν} {r : Registration ν} {later : List (Registration ν)}

/-- The last function registered under a normal form is the one that is found under it. -/
theorem resolved_registered
    (hlater : ∀ q ∈ later, normalizeName q.name ≠ normalizeName r.name)
    (hvm : vm.functions = ((before.register r).registerAll later).functions) (name : String) :
    vm.resolved name = some (normalizeName r.name, r.callable) ↔
      normalizeName name = normalizeName r.name := by
  rw [resolved_eq, hvm]
  constructor
  · intro h
    rcases Option.map_eq_some_iff.1 h with ⟨callee, _, hentry⟩
    exact (Prod.mk.inj hentry).1
  · intro hsame
    rw [hsame, get?_registerAll_of_ne hlater, get?_register, if_pos rfl]
    rfl

/-- What is registered under another name makes no difference. -/
theorem resolved_of_ne {name : String} (hother : normalizeName name ≠ normalizeName r.name)
    (hvm : vm.functions = ((before.register r).registerAll later).functions) :
    vm.resolved name = (before.registerAll later).resolved name := by
  have hentry : (before.register r).functions.get? (normalizeName name) =
      before.functions.get? (normalizeName name) := by
    rw [get?_register, if_neg (Ne.symm hother)]
  rw [resolved_eq, resolved_eq, hvm, get?_registerAll_congr hentry later]

end Registered

end Vm

/-! ## Calls whose callee has been found -/

/-- Opens a call setup for a function and calls it with strings, as a call from outside does. -/
def callFound (natives : Natives ν σ) (budget : Nat) (key : String) (callee : Callable ν)
    (args : List String) (m : Hosted ν σ) : Option (Invocation × Hosted ν σ) :=
  let mark := m.vm.mark
  let opened := { m with vm := { m.vm with stack := m.vm.stack.pushSetup key callee } }
  (restoring mark (completeCall natives budget mark.frames args opened)).map fun (r, m) =>
    (.ofResult r, m)

/-- A call looks its name up, and everything else depends on what is found. -/
theorem invoke_eq (natives : Natives ν σ) (budget : Nat) {name : String} (hname : name ≠ "")
    (args : List String) (m : Hosted ν σ) :
    invoke natives budget name args m =
      match m.vm.resolved name with
      | none => some (.unknown, m)
      | some (key, callee) => callFound natives budget key callee args m := by
  rw [invoke, if_neg hname, Vm.resolved_eq, Vm.loadFunction_eq]
  cases m.vm.functions.get? (normalizeName name) with
  | none => rfl
  | some callee => rfl

end Machine

/-! ## Foreign calls -/

namespace Host

open Machine

namespace Session

/-- Calls a function that has been found under a key, and gives up what it returns. -/
def callFound (budget : Nat) (key : String) (callee : Callable Builtin) (args : List String) :
    Activity Unit := do
  match ← onMachine (Machine.callFound Builtin.run budget key callee args) with
  | some outcome => noteInvocation key outcome
  | none => pure ()

variable {s : Session} {vm : Vm Builtin}

/-- Only what is done with the machine that is there matters. -/
theorem onMachine_congr (hvm : s.machine = some vm) {α : Type}
    {run run' : Hosted Builtin Bridge → Option (α × Hosted Builtin Bridge)}
    (h : run ⟨vm, s.bridge⟩ = run' ⟨vm, s.bridge⟩) : onMachine run s = onMachine run' s := by
  rw [onMachine, onMachine, hvm]
  exact congrArg (Option.map _) h

theorem invoke_of_live (hvm : s.machine = some vm) {name : String} (hname : name ≠ "")
    (hform : normalizeName name = name) (budget : Nat) (args : List String) :
    invoke budget name args s =
      match vm.resolved name with
      | none => note (.targetMissing name) s
      | some (key, callee) => callFound budget key callee args s := by
  have hcall := invoke_eq Builtin.run budget hname args ⟨vm, s.bridge⟩
  unfold invoke
  rw [Vm.resolved_eq, hform] at hcall ⊢
  -- `invoke` reports an unknown name through the outcome and `resolved` through `none`.
  cases hget : vm.functions.get? name with
  | none =>
      rw [hget] at hcall
      have hunknown : onMachine (Machine.invoke Builtin.run budget name args) s =
          some (some .unknown, s) := by
        rcases s with ⟨machine, bridge, spawned⟩
        cases hvm
        show Option.map _ (Machine.invoke Builtin.run budget name args ⟨vm, bridge⟩) = _
        rw [hcall]
        rfl
      show (onMachine (Machine.invoke Builtin.run budget name args) s).bind _ = _
      rw [hunknown]
      rfl
  | some callee =>
      rw [hget] at hcall
      have hfound : onMachine (Machine.invoke Builtin.run budget name args) s =
          onMachine (Machine.callFound Builtin.run budget name callee args) s :=
        onMachine_congr hvm hcall
      show (onMachine (Machine.invoke Builtin.run budget name args) s).bind _ = _
      rw [hfound]
      rfl

/-- A foreign call with all its arguments is a call of the target of its binding. -/
theorem foreignCall_of_live (hvm : s.machine = some vm) {x : Binding} (hx : x.target ≠ "")
    (budget : Nat) (id payload : String) :
    foreignCall budget (some x) (some id) (some payload) s =
      invoke budget x.target [id, payload] s := by
  have hlive : s.isLive = true := by
    rw [isLive, hvm]
    rfl
  simp [foreignCall, hx, hlive, bind, StateT.bind, get, getThe, MonadStateOf.get, StateT.get, pure]

end Session

/-- Take a function registered as `Y`, and nothing registered later under a name of the same
lower-case form. A foreign call through a binding for `X` opens its setup for that entry of the
function table exactly if `X` and `Y` have the same lower-case form, although the form of `X` is
taken twice; otherwise the call goes where it would go without the entry. -/
theorem bindings_and_functions_agree_on_names {X Y : String} (hX : X ≠ "") (bridge : Bridge) :
    (∀ name, normalizeName (normalizeName name) = normalizeName name) ∧
    (∀ {ν : Type} (before : Vm ν) (r : Registration ν) (later : List (Registration ν)) (vm : Vm ν),
      r.name = Y → (∀ q ∈ later, normalizeName q.name ≠ normalizeName Y) →
      vm.functions = ((before.register r).registerAll later).functions →
      (vm.resolved (bridge.newBinding X).1.target = some (normalizeName Y, r.callable) ↔
        normalizeName X = normalizeName Y) ∧
      (normalizeName X ≠ normalizeName Y →
        vm.resolved (bridge.newBinding X).1.target =
          (before.registerAll later).resolved (bridge.newBinding X).1.target)) ∧
    (∀ {ν σ : Type} (natives : Natives ν σ) budget args (m : Hosted ν σ),
      Machine.invoke natives budget (bridge.newBinding X).1.target args m =
        match m.vm.resolved (bridge.newBinding X).1.target with
        | none => some (.unknown, m)
        | some (key, callee) => callFound natives budget key callee args m) ∧
    ∀ (s : Session) (vm : Vm Builtin) budget id payload, s.machine = some vm →
      Session.foreignCall budget (some (bridge.newBinding X).1) (some id) (some payload) s =
        match vm.resolved (bridge.newBinding X).1.target with
        | none => Session.note (.targetMissing (normalizeName X)) s
        | some (key, callee) => Session.callFound budget key callee [id, payload] s := by
  have hne : (bridge.newBinding X).1.target ≠ "" := Text.lowercase_ne_empty hX
  -- A binding keeps the normalized name, and looking it up normalizes again; that this changes
  -- nothing is the first part.
  have htarget : (bridge.newBinding X).1.target = normalizeName X := rfl
  refine ⟨normalizeName_normalizeName, ?_, ?_, ?_⟩
  · rintro ν before r later vm rfl hlater hvm
    have hiff := Vm.resolved_registered hlater hvm (normalizeName X)
    rw [normalizeName_normalizeName] at hiff
    rw [htarget]
    refine ⟨hiff, fun hother => Vm.resolved_of_ne ?_ hvm⟩
    rwa [normalizeName_normalizeName]
  · intro ν σ natives budget args m
    exact invoke_eq natives budget hne args m
  · intro s vm budget id payload hvm
    rw [Session.foreignCall_of_live hvm hne]
    exact Session.invoke_of_live hvm hne (normalizeName_normalizeName X) budget _

/-- A capital sigma at the end of a word has the form of a final one, not that of a small sigma that
stands there. -/
theorem final_sigma_is_resolved :
    let bridge : Bridge := { native := .refusing .notFound }
    let vm : Vm Nat := ((Vm.new {}).register (.native "Οδός" 1)).registerAll [.native "ΟΔΌσ" 2]
    "ΟΔΌΣ" ≠ "" ∧ normalizeName "ΟΔΌΣ" = normalizeName "Οδός" ∧
      normalizeName "ΟΔΌσ" ≠ normalizeName "Οδός" ∧
      vm.resolved (bridge.newBinding "ΟΔΌΣ").1.target =
        some (normalizeName "Οδός", .native 1) := by
  intro bridge vm
  have hX : "ΟΔΌΣ" ≠ "" := by decide
  have hsame : normalizeName "ΟΔΌΣ" = normalizeName "Οδός" := by decide +kernel
  have hother : normalizeName "ΟΔΌσ" ≠ normalizeName "Οδός" := by decide +kernel
  have hlater : ∀ q ∈ [Registration.native "ΟΔΌσ" 2],
      normalizeName q.name ≠ normalizeName "Οδός" := by
    intro q hq
    rw [List.mem_singleton.1 hq]
    exact hother
  have hagree := (bindings_and_functions_agree_on_names (Y := "Οδός") hX bridge).2.1
    (Vm.new {}) (.native "Οδός" 1) _ vm rfl hlater rfl
  exact ⟨hX, hsame, hother, hagree.1.2 hsame⟩

end Host
end ScriptHost
