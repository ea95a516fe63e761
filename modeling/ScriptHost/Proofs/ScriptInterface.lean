import ScriptHost.Proofs.Refusals

/-!
# Scripts use the operations of the window

A call of one of the functions through which a script drives its window either has wrong arguments,
and then it raises an error and touches nothing, or it is one of the operations that callers of the
window have at their hands, with the same arguments. It does to the bridge what the operation does,
and the number that the machine is given in return tells how the operation has ended.
-/

namespace ScriptHost
namespace Host

open Script Machine

/-! ## The operations of callers -/

/-- The call of a window as its users make it, outside of any script. -/
def WindowCall.operation : WindowCall → Activity (Except HostError Unit)
  | .schedule source => Session.dispatch source
  | c => Session.onBridge c.request

/-- As long as there is a machine, an operation is a request. -/
theorem WindowCall.operation_of_live (c : WindowCall) {s : Session} (hlive : s.isLive = true) :
    c.operation s = some ((c.request s.bridge).1, { s with bridge := (c.request s.bridge).2 }) := by
  cases c with
  | schedule source =>
      show Session.dispatch source s = _
      rw [Session.dispatch_eq, if_pos hlive]
      rfl
  | _ => rfl

/-- How an operation has ended, by the number that scripts get for it. -/
inductive Tells : Int → Except HostError Unit → Prop
  | success : Tells 0 (.ok ())
  | failure (e : NativeError) : Tells e.code (.error (.native e))

/-- An operation that leaves the machine alone fails with errors of the native side only. -/
theorem WindowCall.tells (c : WindowCall) (b : Bridge) :
    Tells (ApiFunction.outcomeCode (c.request b).1) (c.request b).1 := by
  rw [c.request_fst b]
  rcases c.asked Native.side b.front with e | _
  · exact .failure e
  · exact .success

namespace ApiFunction

/-! ## Arguments -/

/-- The functions that stand for an operation of the window; the other ones are constants. -/
def IsOperation : ApiFunction → Prop
  | .version | .errorCode _ => False
  | _ => True

/-- The kinds of the arguments. -/
def signature : ApiFunction → List Kind
  | .bind => [.string, .string]
  | .unbind | .dispatch | .on _ => [.string]
  | .deliver => [.string, .number, .string]
  | .terminate | .version | .errorCode _ => []

/-- The operation that a call with right arguments asks for. -/
inductive Asks : ApiFunction → List Value → WindowCall → Prop
  | bind (name function : String) : Asks .bind [.text name, .text function] (.bind name function)
  | unbind (name : String) : Asks .unbind [.text name] (.unbind name)
  | dispatch (source : String) : Asks .dispatch [.text source] (.schedule source)
  | deliver (id : String) (status : Float) (payload : String) :
      Asks .deliver [.text id, .number status, .text payload]
        (.returnValue id (Number.toInt32 status) payload)
  | terminate : Asks .terminate [] .terminate
  | on (slot : HandlerSlot) (function : String) :
      Asks (.on slot) [.text function] (.setHandler slot function)

/-- What is wrong with arguments: their number, or else the first one of another kind. -/
inductive Fault (f : ApiFunction) (args : List Value) : TypeFault → Prop
  | count : args.length ≠ f.signature.length →
      Fault f args (.arity f.name f.signature.length args.length)
  | kind {before v after expected rest} : args.length = f.signature.length →
      args = before ++ v :: after → f.signature = before.map Value.kind ++ expected :: rest →
      v.kind ≠ expected →
      Fault f args (.argument f.name (before.length + 1) expected v.kind)

variable {f : ApiFunction} {args : List Value} {c : WindowCall} {v : Value}

/-- Arguments of the right kinds make a request. -/
theorem action_of_asks (h : f.Asks args c) : f.action args = .ok (.request c.request) := by
  cases h <;> rfl

/-- A value of the kind of strings is one. -/
theorem exists_text (h : v.kind = .string) : ∃ s, v = .text s := by
  cases v with
  | text s => exact ⟨s, rfl⟩
  | _ => cases h

theorem exists_number (h : v.kind = .number) : ∃ x, v = .number x := by
  cases v with
  | number x => exact ⟨x, rfl⟩
  | _ => cases h

/-- Any other one is of the wrong kind. -/
theorem textArg_of_ne (position : Nat) (h : v.kind ≠ .string) :
    f.textArg position v = .error (.type (.argument f.name position .string v.kind)) := by
  cases v with
  | text s => exact absurd rfl h
  | _ => rfl

theorem numberArg_of_ne (position : Nat) (h : v.kind ≠ .number) :
    f.numberArg position v = .error (.type (.argument f.name position .number v.kind)) := by
  cases v with
  | number x => exact absurd rfl h
  | _ => rfl

/-- A request has arguments as its signature says. -/
theorem kinds_of_asks (h : f.Asks args c) : args.map Value.kind = f.signature := by
  cases h <;> rfl

/-- The call raises an error that tells what is wrong with its arguments. -/
def Raises (f : ApiFunction) (args : List Value) : Prop :=
  ∃ fault, f.Fault args fault ∧ f.action args = .error (.type fault)

/-- A wrong number of arguments. -/
theorem raises_of_length {n : Nat} (hn : f.signature.length = n) (hlength : args.length ≠ n)
    (haction : f.action args = .error (f.wrongCount n args)) : f.Raises args := by
  subst hn
  exact ⟨_, .count hlength, haction⟩

/-- An argument of the wrong kind, with those before it of the right ones. -/
theorem raises_of_kind {after : List Value} {expected : Kind} (before : List Value)
    (rest : List Kind) (hlength : (before ++ v :: after).length = f.signature.length)
    (hsignature : f.signature = before.map Value.kind ++ expected :: rest) (hv : v.kind ≠ expected)
    (haction : f.action (before ++ v :: after) =
      .error (.type (.argument f.name (before.length + 1) expected v.kind))) :
    f.Raises (before ++ v :: after) :=
  ⟨_, .kind hlength rfl hsignature hv, haction⟩

/-- How the functions of one text read their arguments; they differ in what they ask for. -/
def oneText (f : ApiFunction) (call : String → WindowCall) :
    List Value → Except ScriptError Action
  | [a] => (f.textArg 1 a).bind fun s => .ok (.request (call s).request)
  | args => .error (f.wrongCount 1 args)

/-- Functions of a single string. -/
theorem text_asks_or_raises {call : String → WindowCall} (hsignature : f.signature = [.string])
    (hasks : ∀ s, f.Asks [.text s] (call s)) (haction : f.action args = f.oneText call args) :
    (∃ c, f.Asks args c) ∨ f.Raises args := by
  -- The number of arguments is checked first, then the kind of each in order.
  by_cases hlength : args.length = 1
  · rcases List.length_eq_one_iff.1 hlength with ⟨a, rfl⟩
    by_cases ha : a.kind = .string
    · rcases exists_text ha with ⟨s, rfl⟩
      exact .inl ⟨call s, hasks s⟩
    · refine .inr (raises_of_kind [] [] ?_ hsignature ha (haction.trans ?_))
      · rw [hsignature]
        rfl
      · show (f.textArg 1 a).bind _ = _
        rw [textArg_of_ne 1 ha]
        rfl
  · refine .inr (raises_of_length ?_ hlength (haction.trans ?_))
    · rw [hsignature]
      rfl
    · match args, hlength with
      | [], _ | _ :: _ :: _, _ => rfl

/-- Both arguments are strings, which are checked one after the other. -/
theorem bind_asks_or_raises (args : List Value) :
    (∃ c, Asks .bind args c) ∨ ApiFunction.bind.Raises args := by
  by_cases hlength : args.length = 2
  · rcases List.length_eq_two.1 hlength with ⟨a, b, rfl⟩
    by_cases ha : a.kind = .string
    · rcases exists_text ha with ⟨name, rfl⟩
      by_cases hb : b.kind = .string
      · rcases exists_text hb with ⟨function, rfl⟩
        exact .inl ⟨_, .bind name function⟩
      · refine .inr (raises_of_kind [.text name] [] rfl rfl hb ?_)
        show (ApiFunction.bind.textArg 2 b).bind _ = _
        rw [textArg_of_ne 2 hb]
        rfl
    · refine .inr (raises_of_kind [] [.string] rfl rfl ha ?_)
      show (ApiFunction.bind.textArg 1 a).bind _ = _
      rw [textArg_of_ne 1 ha]
      rfl
  · refine .inr (raises_of_length rfl hlength ?_)
    match args, hlength with
    | [], _ | [_], _ | _ :: _ :: _ :: _, _ => rfl

/-- The second argument is a number. -/
theorem deliver_asks_or_raises (args : List Value) :
    (∃ c, Asks .deliver args c) ∨ ApiFunction.deliver.Raises args := by
  -- The first argument of a wrong kind is the one that is named, so each case keeps those before
  -- it.
  by_cases hlength : args.length = 3
  · rcases List.length_eq_three.1 hlength with ⟨a, b, c, rfl⟩
    by_cases ha : a.kind = .string
    · rcases exists_text ha with ⟨id, rfl⟩
      by_cases hb : b.kind = .number
      · rcases exists_number hb with ⟨status, rfl⟩
        by_cases hc : c.kind = .string
        · rcases exists_text hc with ⟨payload, rfl⟩
          exact .inl ⟨_, .deliver id status payload⟩
        · refine .inr (raises_of_kind [.text id, .number status] [] rfl rfl hc ?_)
          show (ApiFunction.deliver.textArg 3 c).bind _ = _
          rw [textArg_of_ne 3 hc]
          rfl
      · refine .inr (raises_of_kind [.text id] [.string] rfl rfl hb ?_)
        show (ApiFunction.deliver.numberArg 2 b).bind _ = _
        rw [numberArg_of_ne 2 hb]
        rfl
    · refine .inr (raises_of_kind [] [.number, .string] rfl rfl ha ?_)
      show (ApiFunction.deliver.textArg 1 a).bind _ = _
      rw [textArg_of_ne 1 ha]
      rfl
  · refine .inr (raises_of_length rfl hlength ?_)
    match args, hlength with
    | [], _ | [_], _ | [_, _], _ | _ :: _ :: _ :: _ :: _, _ => rfl

/-- Whatever the arguments, there is a request or an error. -/
theorem asks_or_raises (hf : f.IsOperation) (args : List Value) :
    (∃ c, f.Asks args c) ∨ f.Raises args := by
  cases f with
  | bind => exact bind_asks_or_raises args
  | unbind =>
      refine text_asks_or_raises rfl .unbind ?_
      match args with
      | [] | [_] | _ :: _ :: _ => rfl
  | dispatch =>
      refine text_asks_or_raises rfl .dispatch ?_
      match args with
      | [] | [_] | _ :: _ :: _ => rfl
  | deliver => exact deliver_asks_or_raises args
  | terminate =>
      match args with
      | [] => exact .inl ⟨_, .terminate⟩
      | a :: rest => exact .inr (raises_of_length (n := 0) rfl (by simp) rfl)
  | on slot =>
      refine text_asks_or_raises rfl (.on slot) ?_
      match args with
      | [] | [_] | _ :: _ :: _ => rfl
  | version => exact absurd hf id
  | errorCode e => exact absurd hf id

/-- Arguments of the right kinds ask for something. -/
theorem exists_asks (hf : f.IsOperation) (hkinds : args.map Value.kind = f.signature) :
    ∃ c, f.Asks args c := by
  rcases asks_or_raises hf args with hasks | ⟨fault, hfault, _⟩
  · exact hasks
  · -- with the kinds of the signature nothing can be wrong
    cases hfault with
    | count hlength => exact absurd (by simpa using congrArg List.length hkinds) hlength
    | kind _ hargs hsignature hv =>
        rw [hargs, hsignature, List.map_append] at hkinds
        have hrest := List.append_cancel_left hkinds
        exact absurd (List.cons.inj hrest).1 hv

/-- Any other arguments are an error. -/
theorem raises_of_kinds (hf : f.IsOperation) (hkinds : args.map Value.kind ≠ f.signature) :
    f.Raises args := by
  rcases asks_or_raises hf args with ⟨c, hasks⟩ | hraises
  · exact absurd (kinds_of_asks hasks) hkinds
  · exact hraises

/-! ## Arguments by position -/

/-- A reading that looks arguments up by position; it gives nothing if it looks for one that is not
there. -/
abbrev Lookup (α : Type) :=
  ExceptT ScriptError Option α

/-- The number of arguments is checked first. -/
def expectCount (f : ApiFunction) (args : List Value) (n : Nat) : Lookup Unit :=
  if args.length = n then pure () else throw (f.wrongCount n args)

/-- An argument by its position, which may be too large. -/
def textAt (f : ApiFunction) (args : List Value) (i : Nat) : Lookup String :=
  ExceptT.mk (args[i]?.map (f.textArg (i + 1)))

def numberAt (f : ApiFunction) (args : List Value) (i : Nat) : Lookup Float :=
  ExceptT.mk (args[i]?.map (f.numberArg (i + 1)))

/-- What a call asks for, with the arguments looked up one by one after they have been counted. -/
def lookedUp (f : ApiFunction) (args : List Value) : Lookup Action :=
  match f with
  | .bind => do
      f.expectCount args 2
      let name ← f.textAt args 0
      let function ← f.textAt args 1
      return .request (Request.bind name function)
  | .unbind => do
      f.expectCount args 1
      return .request (Request.unbind (← f.textAt args 0))
  | .dispatch => do
      f.expectCount args 1
      return .request (Request.schedule (← f.textAt args 0))
  | .deliver => do
      f.expectCount args 3
      let id ← f.textAt args 0
      let status ← f.numberAt args 1
      let payload ← f.textAt args 2
      return .request (Request.returnValue id (Number.toInt32 status) payload)
  | .terminate => do
      f.expectCount args 0
      return .request Request.terminate
  | .on slot => do
      f.expectCount args 1
      return .request (Request.setHandler slot (← f.textAt args 0))
  | .version => do
      f.expectCount args 0
      return .value (.text versionText)
  | .errorCode none => return .value (codeValue NativeError.okCode)
  | .errorCode (some e) => return .value (codeValue e.code)

section Lookups

variable {α β : Type} {x : Lookup α} {g : α → Lookup β} {r : Except ScriptError α}

/-- One lookup after the other. -/
theorem run_then {k : α → Except ScriptError β} (hx : x.run = some r)
    (hg : ∀ a, (g a).run = some (k a)) : (x >>= g).run = some (r.bind k) := by
  rw [ExceptT.run_bind, hx]
  cases r with
  | error e => rfl
  | ok a => exact hg a

/-- With a wrong number of arguments none of them is looked up. -/
theorem run_of_miscount {n : Nat} (h : args.length ≠ n) {g : Unit → Lookup β} :
    (f.expectCount args n >>= g).run = some (.error (f.wrongCount n args)) := by
  unfold expectCount
  rw [if_neg h]
  rfl

end Lookups

/-- Nothing is looked for past the last argument. -/
theorem lookedUp_eq (f : ApiFunction) (args : List Value) :
    (f.lookedUp args).run = some (f.action args) := by
  -- Arguments are looked up by position here and matched as a list there; once their number is
  -- known both are the same.
  cases f with
  | bind =>
      match args with
      | [a, b] => exact run_then rfl fun _ => run_then rfl fun _ => run_then rfl fun _ => rfl
      | [] | [_] | _ :: _ :: _ :: _ => exact run_of_miscount (by simp)
  | unbind | dispatch | on slot =>
      match args with
      | [a] => exact run_then rfl fun _ => run_then rfl fun _ => rfl
      | [] | _ :: _ :: _ => exact run_of_miscount (by simp)
  | deliver =>
      match args with
      | [a, b, c] =>
          exact run_then rfl fun _ => run_then rfl fun _ => run_then rfl fun _ =>
            run_then rfl fun _ => rfl
      | [] | [_] | [_, _] | _ :: _ :: _ :: _ :: _ => exact run_of_miscount (by simp)
  | terminate | version =>
      match args with
      | [] => rfl
      | _ :: _ => exact run_of_miscount (by simp)
  | errorCode e =>
      cases e with
      | none => rfl
      | some e => rfl

/-! ## Calls on a bridge -/

variable {b : Bridge}

/-- An error leaves the bridge as it was. -/
theorem run_of_raises (h : f.Raises args) (b : Bridge) :
    ∃ fault, f.Fault args fault ∧ f.run args b = (.error (.type fault), b) := by
  rcases h with ⟨fault, hfault, haction⟩
  refine ⟨fault, hfault, ?_⟩
  -- an action that has not been read is not carried out
  unfold run
  rw [haction]
  rfl

/-- Nothing more is noted of an operation than the operation has noted itself. -/
theorem run_of_asks (h : f.Asks args c) (b : Bridge) :
    f.run args b = (.ok (codeValue (outcomeCode (c.request b).1)), (c.request b).2) := by
  have hnoted : afterOutcome (c.request b).1 (c.request b).2 = (c.request b).2 := by
    rw [c.request_fst b]
    rcases c.asked Native.side b.front with e | _ <;> rfl
  unfold run
  rw [action_of_asks h]
  show (Except.ok (codeValue (outcomeCode (c.request b).1)),
    afterOutcome (c.request b).1 (c.request b).2) = _
  rw [hnoted]

end ApiFunction

/-! ## Installing the interface -/

namespace ApiFunction

/-- The list has all functions. -/
theorem mem_all (f : ApiFunction) : f ∈ all := by
  rcases f with _ | _ | _ | _ | _ | slot | _ | (_ | e)
  case on => cases slot <;> decide
  case errorCode.some => cases e <;> decide
  all_goals decide

/-- No two of them have the same name. -/
theorem nodup_names : (all.map fun f => normalizeName f.name).Nodup := by
  decide +kernel

variable {vm : Vm Builtin} {fs : List ApiFunction}

/-- Once a function is registered, registering others does not take it away. -/
theorem get?_register (f : ApiFunction)
    (hnames : ∀ g ∈ fs, normalizeName g.name = normalizeName f.name → g = f)
    (hf : f ∈ fs ∨ vm.functions.get? (normalizeName f.name) = some (.native (.api f))) :
    (fs.foldl (fun vm g => vm.registerNative g.name (.api g)) vm).functions.get?
      (normalizeName f.name) = some (.native (.api f)) := by
  -- what is registered so far grows by one function with every step
  induction fs generalizing vm with
  | nil => exact hf.resolve_left List.not_mem_nil
  | cons g rest ih =>
      apply ih fun x hx => hnames x (List.mem_cons_of_mem g hx)
      have hget : (vm.registerNative g.name (.api g)).functions.get? (normalizeName f.name) =
          if normalizeName g.name = normalizeName f.name then some (.native (.api g))
          else vm.functions.get? (normalizeName f.name) :=
        Store.Table.get?_insert _ _ _ _
      rw [hget]
      by_cases hname : normalizeName g.name = normalizeName f.name
      · rw [if_pos hname, hnames g List.mem_cons_self hname]
        exact .inr rfl
      · rw [if_neg hname]
        refine hf.imp_left fun hmem => ?_
        rcases List.mem_cons.1 hmem with rfl | hmem
        · exact absurd rfl hname
        · exact hmem

/-- Each name stands for its own function. -/
theorem get?_withApi (vm : Vm Builtin) (f : ApiFunction) :
    (withApi vm).functions.get? (normalizeName f.name) = some (.native (.api f)) :=
  get?_register f (fun g _ hname => List.inj_on_of_nodup_map nodup_names g.mem_all f.mem_all hname)
    (.inl f.mem_all)

end ApiFunction

/-- A name keeps its function unless a script declares it. -/
theorem get?_defineFunctions (fs : List Function) (vm : Vm Builtin) (name : String) :
    (vm.defineFunctions fs).functions.get? name = vm.functions.get? name ∨
      ∃ f, (vm.defineFunctions fs).functions.get? name = some (.script f) := by
  induction fs generalizing vm with
  | nil => exact .inl rfl
  | cons f rest ih =>
      rcases ih (vm.defineFunction f) with hsame | hscript
      · have hget : (vm.defineFunction f).functions.get? name =
            if normalizeName f.name = name then some (.script f) else vm.functions.get? name :=
          Store.Table.get?_insert _ _ _ _
        have hall : (vm.defineFunctions (f :: rest)).functions.get? name = _ := hsame.trans hget
        rw [hall]
        split
        · exact .inr ⟨f, rfl⟩
        · exact .inl rfl
      · exact .inr hscript

/-- Only a function of a script takes the place of another function. -/
theorem get?_load (source : String) (vm : Vm Builtin) (name : String) :
    (Vm.load source vm).2.functions.get? name = vm.functions.get? name ∨
      ∃ f, (Vm.load source vm).2.functions.get? name = some (.script f) := by
  unfold Vm.load
  cases compile vm.limits.nestingDepth source with
  | error e => exact .inl rfl
  | ok compiled => exact get?_defineFunctions compiled.functions vm name

/-! ## Calls on a machine -/

/-- The machine once the innermost call setup and the arguments above it have been taken off. -/
def withoutCall (setup : CallSetup Builtin) (m : Hosted Builtin Bridge) : Hosted Builtin Bridge :=
  { m with vm.stack := { m.vm.stack with
      setups := m.vm.stack.setups.pop, slots := m.vm.stack.slots.take setup.base } }

/-- A call of a native function takes its arguments and pushes its value. -/
theorem call_native_eq {m : Hosted Builtin Bridge} {setup : CallSetup Builtin} {f : Builtin}
    (hsetup : m.vm.stack.setups.back? = some setup) (hcallee : setup.callee = .native f) :
    Step.call Builtin.run m =
      match f.run (argumentsFrom setup.base m) m.host with
      | (.ok v, b) => Step.push v { withoutCall setup m with host := b }
      | (.error e, b) => (.error e, { withoutCall setup m with host := b }) := by
  have hpop : (Exec.onStack Stack.popSetup : Exec Builtin Bridge _) m =
      (.ok setup, { m with vm.stack := { m.vm.stack with setups := m.vm.stack.setups.pop } }) := by
    simp only [Exec.onStack, Stack.popSetup, hsetup]
  unfold Step.call
  rw [Attempt.bind_apply, hpop]
  -- the arguments are read off the slots before these are cut back
  simp only [hcallee]
  show (Exec.onHost (f.run (argumentsFrom setup.base m)) >>= Step.push) (withoutCall setup m) = _
  rw [Attempt.bind_apply]
  unfold Exec.onHost
  dsimp only
  have hhost : (withoutCall setup m).host = m.host := rfl
  rw [hhost]
  rcases f.run (argumentsFrom setup.base m) m.host with ⟨e | v, b⟩ <;> rfl

/-! ## The law -/

/-- What the innermost call of a machine does if its callee is one of these functions: the machine
takes the arguments off, and unless they are wrong it goes on like after the operation that they
ask for, with the number for its outcome in their place. -/
structure ApiFunction.ActsFor (f : ApiFunction) (setup : CallSetup Builtin)
    (m : Hosted Builtin Bridge) : Prop where
  wrong : (argumentsFrom setup.base m).map Value.kind ≠ f.signature →
    ∃ fault, f.Fault (argumentsFrom setup.base m) fault ∧
      Step.call Builtin.run m = (.error (.type fault), withoutCall setup m)
  right : (argumentsFrom setup.base m).map Value.kind = f.signature →
    ∃ c outcome code b, f.Asks (argumentsFrom setup.base m) c ∧
      (∀ spawned, c.operation ⟨some m.vm, m.host, spawned⟩ =
        some (outcome, ⟨some m.vm, b, spawned⟩)) ∧
      outcome = (c.asked Native.side m.host.front).mapError HostError.native ∧
      Tells code outcome ∧
      Step.call Builtin.run m =
        Step.push (ApiFunction.codeValue code) { withoutCall setup m with host := b }

/-- So every function acts for the script that calls it. -/
theorem ApiFunction.actsFor {f : ApiFunction} {setup : CallSetup Builtin}
    {m : Hosted Builtin Bridge} (hf : f.IsOperation)
    (hsetup : m.vm.stack.setups.back? = some setup) (hcallee : setup.callee = .native (.api f)) :
    f.ActsFor setup m := by
  have hcall := call_native_eq hsetup hcallee
  constructor
  · intro hkinds
    rcases run_of_raises (raises_of_kinds hf hkinds) m.host with ⟨fault, hfault, hrun⟩
    refine ⟨fault, hfault, hcall.trans ?_⟩
    show (match f.run _ m.host with | (.ok v, b) => _ | (.error e, b) => _) = _
    rw [hrun]
    rfl
  · -- The request is the operation of the window itself; only its outcome is told as a number.
    intro hkinds
    rcases exists_asks hf hkinds with ⟨c, hasks⟩
    refine ⟨c, (c.request m.host).1, outcomeCode (c.request m.host).1, (c.request m.host).2, hasks,
      fun spawned => c.operation_of_live rfl, c.request_fst _, c.tells _, hcall.trans ?_⟩
    show (match f.run _ m.host with | (.ok v, b) => _ | (.error e, b) => _) = _
    rw [run_of_asks hasks]

/-- A machine with the script interface knows each of its functions by name, and only a function
that a script declares can take its place. In whatever state a machine and its bridge are, also
within handlers and fragments: a call of such a function with arguments of the wrong number or kind
raises an error and leaves the bridge alone; any other call is the operation of the window with
these arguments and hands its number to the script. No argument is looked for that is not there. -/
theorem script_calls_are_window_operations :
    (∀ (vm : Vm Builtin) (f : ApiFunction),
      (withApi vm).functions.get? (normalizeName f.name) = some (.native (.api f))) ∧
    (∀ (source : String) (vm : Vm Builtin) (name : String),
      (Vm.load source vm).2.functions.get? name = vm.functions.get? name ∨
        ∃ f, (Vm.load source vm).2.functions.get? name = some (.script f)) ∧
    (∀ (f : ApiFunction) (args : List Value), (f.lookedUp args).run = some (f.action args)) ∧
    ∀ (f : ApiFunction) (setup : CallSetup Builtin) (m : Hosted Builtin Bridge), f.IsOperation →
      m.vm.stack.setups.back? = some setup → setup.callee = .native (.api f) →
        f.ActsFor setup m :=
  ⟨ApiFunction.get?_withApi, get?_load, ApiFunction.lookedUp_eq,
    fun _ _ _ hf hsetup hcallee => ApiFunction.actsFor hf hsetup hcallee⟩

/-- A name that is taken, bound once more by a script. -/
theorem taken_name_is_told_to_the_script :
    ∃ (m m' : Hosted Builtin Bridge) (setup : CallSetup Builtin),
      m.vm.stack.setups.back? = some setup ∧ setup.callee = .native (.api .bind) ∧
      argumentsFrom setup.base m = [.text "greet", .text "Other"] ∧
      (WindowCall.bind "greet" "Other").operation ⟨some m.vm, m.host, false⟩ =
        some (.error (.native .duplicate), ⟨some m.vm, m'.host, false⟩) ∧
      Step.call Builtin.run m = (.ok (), m') ∧
      m'.vm.stack.slots = #[ApiFunction.codeValue 1] := by
  let b : Bridge := (Request.bind "greet" "OnGreet" { native := .headless (.new 1) }).2
  let setup : CallSetup Builtin := ⟨"webview_bind", .native (.api .bind), 0⟩
  let stack : Stack Builtin := ⟨#[.text "greet", .text "Other"], #[setup], #[], 2⟩
  let m : Hosted Builtin Bridge := ⟨{ withApi (Vm.new {}) with stack := stack }, b⟩
  have hcall := script_calls_are_window_operations.2.2.2 .bind setup m trivial rfl rfl
  -- The law gives an outcome; which one it is follows from the operation of the window.
  rcases hcall.right rfl with ⟨c, outcome, code, b', hasks, hoperation, _, htells, hpush⟩
  have hargs : argumentsFrom setup.base m = [.text "greet", .text "Other"] := rfl
  rw [hargs] at hasks
  cases hasks
  have houtcome : (Request.bind "greet" "Other" b).1 = outcome :=
    congrArg Prod.fst (Option.some.inj (hoperation false))
  have hduplicate : (Request.bind "greet" "Other" b).1 = .error (.native .duplicate) := by
    decide +kernel
  rw [← houtcome, hduplicate] at htells hoperation
  cases htells with
  | failure e => exact ⟨m, _, setup, rfl, rfl, rfl, hoperation false, hpush, rfl⟩

end Host
end ScriptHost
