import ScriptHost.Proofs.NativeSides

/-!
# A refused operation changes nothing

The headless loop and the system that refuses are native sides of the general kind, and the requests
to a bridge are the calls of a window on them. So a request that is refused has changed nothing, at
any moment of any session, whether a caller or a script has made it.
-/

namespace ScriptHost
namespace Host

open Script Machine Store

/-! ## The native sides of a bridge -/

namespace Native

/-- What may be refused, and then leaves the state as it was. -/
def attemptOn {ε : Type} (op : Native → Except ε Native) : Attempt ε Native Unit := fun n =>
  match op n with
  | .error e => (.error e, n)
  | .ok n' => (.ok (), n')

/-- The native sides of a bridge are of the general kind. -/
def side : NativeSide Native where
  bind name x := attemptOn fun n => n.bind name x
  unbind name := attemptOn fun n => n.unbind name
  post f := attemptOn fun n => (n.post f).mapError fun e => ⟨e, f⟩
  resolve id result := attemptOn fun n => n.resolve id result
  terminate := terminate
  bindings := bindings
  boundTo? := boundTo?

variable {n : Native}

theorem attemptOn_of_error {ε : Type} {op : Native → Except ε Native} {e : ε}
    (h : op n = .error e) : attemptOn op n = (.error e, n) := by
  rw [attemptOn, h]

theorem attemptOn_of_ok {ε : Type} {op : Native → Except ε Native} {n' : Native}
    (h : op n = .ok n') : attemptOn op n = (.ok (), n') := by
  rw [attemptOn, h]

theorem side_bind (name : String) (x : Binding) :
    side.bind name x n = attemptOn (fun n => n.bind name x) n :=
  rfl

theorem side_unbind (name : String) : side.unbind name n = attemptOn (fun n => n.unbind name) n :=
  rfl

theorem side_post (f : Fragment) :
    side.post f n = attemptOn (fun n => (n.post f).mapError fun e => ⟨e, f⟩) n :=
  rfl

theorem side_resolve (id : String) (result : CallResult) :
    side.resolve id result n = attemptOn (fun n => n.resolve id result) n :=
  rfl

/-- A refusal leaves what was there. -/
theorem attemptOn_error {ε : Type} {op : Native → Except ε Native} {e : ε}
    (h : (attemptOn op n).1 = .error e) : op n = .error e ∧ (attemptOn op n).2 = n := by
  cases hop : op n with
  | error e' =>
      rw [attemptOn_of_error hop] at h ⊢
      cases h
      exact ⟨rfl, rfl⟩
  | ok n' =>
      rw [attemptOn_of_ok hop] at h
      cases h

/-- What is agreed to decides what is referred to. -/
theorem attemptOn_refers {ε : Type} {op : Native → Except ε Native} {xs : List Binding}
    (hsame : n.bindings ⊆ xs) (h : ∀ n', op n = .ok n' → n'.bindings ⊆ xs) :
    (attemptOn op n).2.bindings ⊆ xs := by
  cases hop : op n with
  | error e =>
      rw [attemptOn_of_error hop]
      exact hsame
  | ok n' =>
      rw [attemptOn_of_ok hop]
      exact h n' hop

theorem lawful_side : side.Lawful where
  bind_error _ _ _ _ h := (attemptOn_error h).2
  unbind_error _ _ _ h := (attemptOn_error h).2
  post_error f n r h := by
    rcases attemptOn_error h with ⟨hpost, hsame⟩
    refine ⟨hsame, ?_⟩
    cases hn : n.post f with
    | error e =>
        rw [hn] at hpost
        cases hpost
        rfl
    | ok n' =>
        rw [hn] at hpost
        cases hpost
  resolve_error _ _ _ _ h := (attemptOn_error h).2
  -- The clauses on references: an operation may refer to what it was given, and else to nothing
  -- new.
  bind_refers name x n := by
    refine attemptOn_refers (List.subset_cons_self _ _) fun n' h => ?_
    rcases Bridge.native_bind_eq_ok name h with ⟨l, rfl, _, rfl⟩
    exact values_insert_subset l.bindings name x
  unbind_refers name n := by
    refine attemptOn_refers (fun _ => id) fun n' h => ?_
    rcases Bridge.native_unbind_eq_ok name h with ⟨l, rfl, rfl⟩
    exact values_erase_subset l.bindings name
  post_refers f n := by
    refine attemptOn_refers (fun _ => id) fun n' h => ?_
    cases hn : n.post f with
    | error e =>
        rw [hn] at h
        cases h
    | ok n'' =>
        rw [hn] at h
        cases h
        rcases Bridge.native_post_eq_ok hn with ⟨l, rfl, rfl⟩
        exact fun _ => id
  resolve_refers name result n := by
    refine attemptOn_refers (fun _ => id) fun n' h => ?_
    cases n with
    | refusing e => cases h
    | headless l =>
        simp only [resolve, attempt, EventLoop.resolve] at h
        split at h
        · cases h
          exact fun _ => id
        · cases h
  terminate_refers n := by
    cases n <;> exact fun _ => id

end Native

/-! ## Requests as calls -/

namespace Bridge

/-- A bridge as a window on its native side. -/
def front (b : Bridge) : Front Native :=
  ⟨b.window, b.native, b.ledger, b.held.values ++ b.inProgress⟩

variable (b : Bridge)

@[simp]
theorem front_native : b.front.native = b.native :=
  rfl

@[simp]
theorem front_newBinding (function : String) :
    b.front.newBinding function =
      ((b.newBinding function).1, (b.newBinding function).2.front) :=
  rfl

@[simp]
theorem native_newBinding (function : String) : (b.newBinding function).2.native = b.native :=
  rfl

/-- A release is the same in both views. -/
theorem front_releaseAny (old : Option Binding) :
    (b.releaseAny old).front = b.front.releaseAny Native.side old := by
  cases old with
  | none => rfl
  | some x =>
      have hreferences : b.front.references Native.side = b.references :=
        (List.append_assoc _ _ _).symm
      show (b.release x).front = b.front.release Native.side x
      unfold release Front.release refersTo
      rw [hreferences]
      split <;> rfl

theorem front_enroll (name : String) (x : Binding) :
    (b.enroll name x).front = { b.front with
      window.registry := b.front.window.registry.insert name x }.releaseAny Native.side
        (b.front.window.registry.get? name) :=
  front_releaseAny _ _

theorem front_strike (name : String) :
    (b.strike name).front = { b.front with
      window.registry := b.front.window.registry.erase name }.releaseAny Native.side
        (b.front.window.registry.get? name) :=
  front_releaseAny _ _

end Bridge

/-- The requests to a bridge are the calls of a window on the native side of the bridge. -/
theorem WindowCall.perform_front (c : WindowCall) (b : Bridge) :
    c.perform Native.side b.front = ((c.request b).1, (c.request b).2.front) := by
  cases c with
  | bind name function =>
      simp only [perform, request, Request.bind, Bridge.bindNative, Native.side_bind,
        Bridge.front_newBinding, Bridge.front_native, Bridge.native_newBinding]
      cases hbind : b.native.bind name (b.newBinding function).1 with
      | error e =>
          rw [Native.attemptOn_of_error hbind]
          have hrelease := (b.newBinding function).2.front_releaseAny
            (some (b.newBinding function).1)
          exact congrArg (Prod.mk _) hrelease.symm
      | ok n =>
          rw [Native.attemptOn_of_ok hbind]
          let x := (b.newBinding function).1
          let bound := { (b.newBinding function).2 with native := n }.note (.bound name x.target)
          exact congrArg (Prod.mk _) (bound.front_enroll name x).symm
  -- two references go one after the other, that of the native side first
  | unbind name =>
      simp only [perform, request, Request.unbind, Bridge.unbindNative, Native.side_unbind,
        Bridge.front_native, Attempt.bind_apply, Request.ofNative]
      cases hunbind : b.native.unbind name with
      | error e =>
          rw [Native.attemptOn_of_error hunbind]
          rfl
      | ok n =>
          rw [Native.attemptOn_of_ok hunbind]
          let gone : Bridge := { b with native := n }
          have hgone := gone.front_releaseAny (b.native.boundTo? name)
          have hstrike := (gone.releaseAny (b.native.boundTo? name)).front_strike name
          rw [hgone] at hstrike
          exact congrArg (Prod.mk _) hstrike.symm
  | schedule source =>
      simp only [perform, request, Request.schedule, Bridge.postNative, Bridge.newFragment,
        Bridge.count, Front.count, Native.side_post, Bridge.front_native]
      cases hpost : b.native.post ⟨source⟩ with
      | error e =>
          have hrejected : (b.native.post ⟨source⟩).mapError (Rejected.mk · ⟨source⟩) =
              .error ⟨e, ⟨source⟩⟩ := by
            rw [hpost]
            rfl
          rw [Native.attemptOn_of_error hrejected]
          rfl
      | ok n =>
          have haccepted : (b.native.post ⟨source⟩).mapError (Rejected.mk · ⟨source⟩) = .ok n := by
            rw [hpost]
            rfl
          rw [Native.attemptOn_of_ok haccepted]
          rfl
  | returnValue id status payload =>
      simp only [perform, request, Request.returnValue, Bridge.resolveNative, Native.side_resolve,
        Request.ofNative, Bridge.front_native]
      cases hresolve : b.native.resolve id ⟨status, payload⟩ with
      | error e =>
          rw [Native.attemptOn_of_error hresolve]
          rfl
      | ok n =>
          rw [Native.attemptOn_of_ok hresolve]
          rfl
  | setHandler slot function => rfl
  | terminate => rfl

/-- A call of the interface is one of the general kind. -/
theorem ApiFunction.runsOn_front (f : ApiFunction) (args : List Value) (b : Bridge) :
    f.RunsOn Native.side args b.front (f.run args b).1 (f.run args b).2.front := by
  unfold run
  rcases haction : f.action args with e | x | v
  · exact .wrong haction
  · rcases exists_call haction with ⟨c, rfl⟩
    have hperform := c.perform_front b
    -- what is noted after a request stands in the journal alone
    have hfront : (afterOutcome (c.request b).1 (c.request b).2).front = (c.request b).2.front := by
      unfold afterOutcome
      split <;> rfl
    have hruns : f.RunsOn Native.side args b.front
        (.ok (codeValue (outcomeCode (c.perform Native.side b.front).1)))
        (c.perform Native.side b.front).2 :=
      .call haction
    rw [hperform] at hruns
    show f.RunsOn Native.side args b.front _ (afterOutcome (c.request b).1 (c.request b).2).front
    rw [hfront]
    exact hruns
  · exact .value haction

/-! ## Around a request -/

/-- What no request has anything to do with; the phase of the window is changed by one of them. -/
def Bridge.rest (b : Bridge) :=
  (b.held, b.drafts, b.inProgress, b.inHand, b.thread, b.waiting, b.calls)

/-- What surrounds the bindings is in the rest. -/
theorem Bridge.rest_of_surroundings {b b' : Bridge} (h : b'.surroundings = b.surroundings) :
    b'.rest = b.rest := by
  simp only [surroundings, business, Prod.mk.injEq] at h
  simp only [rest, h]

/-- A request leaves the rest alone. -/
theorem WindowCall.rest_request (c : WindowCall) (b : Bridge) :
    (c.request b).2.rest = b.rest := by
  cases c with
  | bind name function => exact Bridge.rest_of_surroundings (b.surroundings_bind name function)
  | unbind name => exact Bridge.rest_of_surroundings (b.surroundings_unbind name)
  | schedule source => exact Bridge.rest_of_surroundings (b.surroundings_schedule source)
  | returnValue id status payload =>
      exact Bridge.rest_of_surroundings (b.surroundings_returnValue id status payload)
  | setHandler slot function => rfl
  | terminate => rfl

theorem ApiFunction.rest_run (f : ApiFunction) (args : List Value) (b : Bridge) :
    (f.run args b).2.rest = b.rest := by
  unfold run
  rcases haction : f.action args with e | x | v
  · rfl
  · rcases exists_call haction with ⟨c, rfl⟩
    have hrest : (afterOutcome (c.request b).1 (c.request b).2).rest = (c.request b).2.rest := by
      unfold afterOutcome
      split <;> rfl
    exact hrest.trans (c.rest_request b)
  · rfl

/-! ## What a refusal leaves of a bridge -/

/-- Nothing has changed but what is written down, and by the ledger as many records of each kind are
there. -/
structure Bridge.Unchanged (b b' : Bridge) : Prop where
  same : b' = { b with ledger := b'.ledger, journal := b'.journal }
  liveBindings : b'.ledger.liveBindings = b.ledger.liveBindings
  liveDispatches : b'.ledger.liveDispatches = b.ledger.liveDispatches

section Refusals

variable {b b' b'' : Bridge}

theorem Bridge.Unchanged.refl (b : Bridge) : b.Unchanged b :=
  ⟨rfl, rfl, rfl⟩

/-- What is unchanged in both parts is unchanged. -/
theorem Bridge.Unchanged.of_front (h : b.front.Unchanged b'.front) (hrest : b'.rest = b.rest) :
    b.Unchanged b' := by
  refine ⟨?_, h.liveBindings, h.liveDispatches⟩
  have hwindow : b'.window = b.window := congrArg Front.window h.same
  have hnative : b'.native = b.native := congrArg Front.native h.same
  cases b
  cases b'
  simp only [Bridge.rest, Prod.mk.injEq] at hrest
  simp_all

/-- Books that are in order have numbered their bindings. -/
theorem Bridge.Balanced.isNumbered (hb : b.Balanced) : b.front.IsNumbered Native.side := by
  intro x hx
  have hreferences : b.front.references Native.side = b.references :=
    (List.append_assoc _ _ _).symm
  rw [hreferences] at hx
  exact hb.known x.id (Bridge.mem_alive_of_mem hx)

variable (hb : b.front.IsNumbered Native.side)
include hb

/-- A request that is refused changes nothing. -/
theorem WindowCall.unchanged_request {c : WindowCall} {e : HostError}
    (h : (c.request b).1 = .error e) : b.Unchanged (c.request b).2 := by
  have hperform := c.perform_front b
  have hfront := c.unchanged_perform (e := e) Native.lawful_side hb (by rw [hperform, h])
  rw [hperform] at hfront
  exact .of_front hfront (c.rest_request b)

/-- Neither does a call of the interface that does not succeed. -/
theorem ApiFunction.unchanged_run (f : ApiFunction) (args : List Value)
    (h : (f.run args b).1 ≠ ApiFunction.success) : b.Unchanged (f.run args b).2 :=
  .of_front ((f.runsOn_front args b).unchanged Native.lawful_side hb h) (f.rest_run args b)

end Refusals

/-! ## What a refusal leaves of a session -/

/-- The machine is as it was, and so is the bridge. -/
structure Session.Unchanged (s s' : Session) : Prop where
  around : s' = { s with bridge := s'.bridge }
  bridge : s.bridge.Unchanged s'.bridge

namespace Session

variable {s s' : Session}

theorem Unchanged.refl (s : Session) : s.Unchanged s :=
  ⟨rfl, .refl _⟩

theorem unchanged_onBridge (hs : s.bridge.front.IsNumbered Native.side) {c : WindowCall}
    {e : HostError} (h : onBridge c.request s = some (.error e, s')) : s.Unchanged s' := by
  simp only [onBridge, Option.some.injEq, Prod.mk.injEq] at h
  rcases h with ⟨hrefused, rfl⟩
  exact ⟨rfl, c.unchanged_request hs hrefused⟩

/-- Without a machine the native side is not even asked. -/
theorem dispatch_eq (source : String) (s : Session) :
    dispatch source s =
      if s.isLive then onBridge (WindowCall.schedule source).request s
      else some (.error .vmUnavailable, s) := by
  show (if s.isLive then onBridge (WindowCall.schedule source).request
    else pure (.error .vmUnavailable) : Activity _) s = _
  split <;> rfl

/-- A call from the foreign side fails only if the name is unknown, and then it has not begun. -/
theorem callBinding_eq_error {budget : Nat} {name id payload : String} {e : NativeError}
    (h : callBinding budget name id payload s = some (.error e, s')) :
    s.bridge.native.boundTo? name = none ∧ e = .notFound ∧ s' = s := by
  unfold callBinding at h
  rcases Activity.bind_eq_some h with ⟨_, _, hget, hcall⟩
  cases hget
  cases hbound : s.bridge.native.boundTo? name with
  | none =>
      rw [hbound] at hcall
      cases hcall
      exact ⟨rfl, rfl, rfl⟩
  | some x =>
      rw [hbound] at hcall
      -- once the name is found the call is made and its end is a success, whatever the script does
      rcases Activity.bind_eq_some hcall with ⟨_, _, _, hcalled⟩
      rcases Activity.bind_eq_some hcalled with ⟨_, _, _, hended⟩
      rcases Activity.bind_eq_some hended with ⟨_, _, _, hover⟩
      cases hover

end Session

/-! ## The law -/

/-- Whatever is requested of a bridge, by a caller or by a script, is refused for the reason that
the native side gives, and then it has changed nothing. -/
structure Bridge.RefusesCleanly (b : Bridge) : Prop where
  own (c : WindowCall) : (c.request b).1 = (c.asked Native.side b.front).mapError HostError.native
  requests {c : WindowCall} {e : HostError} : (c.request b).1 = .error e →
    b.Unchanged (c.request b).2
  scripts {f : ApiFunction} {args : List Value} : (f.run args b).1 ≠ ApiFunction.success →
    b.Unchanged (f.run args b).2 ∧ f.Refusal Native.side args b.front (f.run args b).1
  told {f : ApiFunction} {args : List Value} {c : WindowCall} {e : NativeError} :
    f.action args = .ok (.request c.request) → c.asked Native.side b.front = .error e →
      (f.run args b).1 = .ok (ApiFunction.codeValue e.code) ∧
      .ok (ApiFunction.codeValue e.code) ≠ ApiFunction.success
  machines {f : ApiFunction} (base : Nat) (m : Hosted Builtin Bridge) : m.host = b →
    (f.run (argumentsFrom base m) b).1 ≠ ApiFunction.success →
      b.Unchanged (Step.callNative Builtin.run (.api f) base m).2.host ∧
      (Step.callNative Builtin.run (.api f) base m).2.vm.globals = m.vm.globals ∧
      (Step.callNative Builtin.run (.api f) base m).2.vm.functions = m.vm.functions

/-- The same between the operations of a session, where a machine may be missing and the foreign
side may call. -/
structure Session.RefusesCleanly (s : Session) : Prop where
  bridge : s.bridge.RefusesCleanly
  requests {c : WindowCall} {e : HostError} {s' : Session} :
    Session.onBridge c.request s = some (.error e, s') → s.Unchanged s'
  dispatch {source : String} {e : HostError} {s' : Session} :
    Session.dispatch source s = some (.error e, s') → s.Unchanged s' ∧
      .error e = if s.isLive then
          ((WindowCall.schedule source).asked Native.side s.bridge.front).mapError HostError.native
        else .error .vmUnavailable
  foreignCalls {budget : Nat} {name id payload : String} {e : NativeError} {s' : Session} :
    Session.callBinding budget name id payload s = some (.error e, s') →
      s' = s ∧ e = .notFound ∧ s.bridge.native.boundTo? name = none

/-- What comes of a request is what the native side says. -/
theorem WindowCall.request_fst (c : WindowCall) (b : Bridge) :
    (c.request b).1 = (c.asked Native.side b.front).mapError HostError.native := by
  have howns := c.perform_fst Native.side b.front
  rwa [c.perform_front b] at howns

/-- A bridge refuses cleanly. -/
theorem Bridge.refusesCleanly {b : Bridge} (hb : b.front.IsNumbered Native.side) :
    b.RefusesCleanly where
  own c := c.request_fst b
  requests h := WindowCall.unchanged_request hb h
  scripts {f args} h := ⟨f.unchanged_run hb args h, (f.runsOn_front args b).refusal h⟩
  told {f args c e} haction hasked := by
    have howns := c.request_fst b
    rw [hasked] at howns
    have hanswer : ApiFunction.outcomeCode (c.request b).1 = e.code := by
      rw [howns]
      rfl
    refine ⟨?_, ApiFunction.failure_ne_success e⟩
    unfold ApiFunction.run
    rw [haction, ← hanswer]
    rfl
  machines {f} base m hm h := by
    rcases callNative_keeps Builtin.run (.api f) base m with ⟨hhost, hglobals, hfunctions⟩
    rw [hhost, hm]
    exact ⟨f.unchanged_run hb _ h, hglobals, hfunctions⟩

theorem Session.refusesCleanly {s : Session} (hs : s.bridge.front.IsNumbered Native.side) :
    s.RefusesCleanly where
  bridge := Bridge.refusesCleanly hs
  requests h := Session.unchanged_onBridge hs h
  dispatch {source e s'} h := by
    rw [Session.dispatch_eq] at h
    by_cases hlive : s.isLive = true
    · rw [if_pos hlive] at h ⊢
      have hrequest : ((WindowCall.schedule source).request s.bridge).1 = .error e :=
        congrArg Prod.fst (Option.some.inj h)
      rw [← hrequest]
      exact ⟨Session.unchanged_onBridge hs h, (WindowCall.schedule source).request_fst _⟩
    · rw [if_neg hlive] at h ⊢
      cases h
      exact ⟨.refl s, rfl⟩
  foreignCalls h := by
    rcases Session.callBinding_eq_error h with ⟨hunbound, hnotFound, hsame⟩
    exact ⟨hsame, hnotFound, hunbound⟩

/-- At any moment of a session, also while operations are under way and scripts run, and with any
native side whose failures leave it alone: what is refused is refused with the error of the native
side, and nothing has changed, down to the number of records that are there. -/
theorem refusals_change_nothing {start : Session} (hstart : start.IsFresh) :
    (∀ s, start.Reached s → s.RefusesCleanly) ∧
    (∀ (events : List WindowEvent) (s : Session), start.bridge.Changes events s.bridge →
      s.RefusesCleanly ∧ ∀ (vm : Vm Builtin) (m : Hosted Builtin Bridge),
        Execution Builtin.run ⟨vm, s.bridge⟩ m → m.host.RefusesCleanly) ∧
    ∀ {τ : Type} (side : NativeSide τ) (fresh w : Front τ), side.Lawful → fresh.IsFresh side →
      Front.Reached side fresh w → w.RefusesCleanly side := by
  rcases hstart with ⟨native, hnative, hbridge⟩
  have hbalanced : start.bridge.Balanced := hbridge ▸ Bridge.balanced_fresh hnative
  have hholding : start.bridge.Holding [] [] := by
    rw [hbridge]
    exact ⟨rfl, rfl⟩
  -- a balanced ledger knows of every binding that is referred to, which is all a refusal needs
  have hnumbered {events : List WindowEvent} {b : Bridge} (h : start.bridge.Changes events b) :
      b.front.IsNumbered Native.side :=
    (h.conserves.balanced hbalanced).isNumbered
  refine ⟨fun s h => ?_, fun events s h => ⟨Session.refusesCleanly (hnumbered h), ?_⟩, ?_⟩
  · rcases (h.changes hholding).1 with ⟨events, hchanges⟩
    exact Session.refusesCleanly (hnumbered hchanges)
  · intro vm m hm
    rcases (Bridge.steady_execution hm).changes with ⟨events', hchanges⟩
    exact Bridge.refusesCleanly (hnumbered (h.trans hchanges))
  · intro τ side fresh w hside hfresh h
    exact (h.isNumbered hside hfresh).refusesCleanly hside

/-- A system with room for one fragment, which knows of no names and of no calls. -/
def oneFragment : NativeSide (Option Fragment) where
  bind _ _ := Attempt.fail .missingDependency
  unbind _ := Attempt.fail .notFound
  post f
    | none => (.ok (), some f)
    | some g => (.error ⟨.canceled, f⟩, some g)
  resolve _ _ := Attempt.fail .notFound
  terminate := id
  bindings _ := []
  boundTo? _ _ := none

theorem lawful_oneFragment : oneFragment.Lawful where
  bind_error _ _ _ _ _ := rfl
  unbind_error _ _ _ _ := rfl
  post_error f n r h := by
    cases n with
    | none => cases h
    | some g =>
        cases h
        exact ⟨rfl, rfl⟩
  resolve_error _ _ _ _ _ := rfl
  bind_refers _ _ _ := List.nil_subset _
  unbind_refers _ _ := List.nil_subset _
  post_refers _ _ := List.nil_subset _
  resolve_refers _ _ _ := List.nil_subset _
  terminate_refers _ := List.nil_subset _

/-- A name that is taken and a queue that is full, for a caller and for a system of another kind. -/
theorem taken_name_and_full_queue :
    ∃ (start s s₁ s₂ : Session) (w : Front (Option Fragment)),
      start.IsFresh ∧ start.Reached s ∧ s.isLive = true ∧
      Session.onBridge (WindowCall.bind "f" "h").request s =
        some (.error (.native .duplicate), s₁) ∧ s.Unchanged s₁ ∧
      Session.dispatch "r = 2" s = some (.error (.native .canceled), s₂) ∧ s.Unchanged s₂ ∧
      w.native = some ⟨"r = 1"⟩ ∧
      ((WindowCall.schedule "r = 2").perform oneFragment w).1 = .error (.native .canceled) ∧
      w.Unchanged ((WindowCall.schedule "r = 2").perform oneFragment w).2 := by
  let start : Session := ⟨some (withApi (Vm.new {})), { native := .headless (.new 1) }, false⟩
  have hstart : start.IsFresh := ⟨_, .inl ⟨1, rfl⟩, rfl⟩
  let bind : WindowCall := .bind "f" "h"
  let schedule : WindowCall := .schedule "r = 2"
  -- The loop holds one fragment, so the second `schedule` finds it full; the name is taken by the
  -- `bind` before.
  have hover : ((Operation.performAll 0 [.bind "f" "g", .schedule "r = 1"] start).map
      fun (_, s) => (s.isLive, (bind.request s.bridge).1, (schedule.request s.bridge).1)) =
      some (true, .error (.native .duplicate), .error (.native .canceled)) := by
    decide +kernel
  rcases Option.map_eq_some_iff.1 hover with ⟨⟨_, s⟩, hperform, heq⟩
  simp only [Prod.mk.injEq] at heq
  rcases heq with ⟨hlive, hduplicate, hfull⟩
  have hs : start.Reached s := Session.Reached.refl.performAll hperform
  rcases refusals_change_nothing hstart with ⟨hreached, _, hany⟩
  have hbind : Session.onBridge bind.request s = some (.error (.native .duplicate),
      { s with bridge := (bind.request s.bridge).2 }) := by
    rw [← hduplicate]
    rfl
  have hdispatch : Session.dispatch "r = 2" s = some (.error (.native .canceled),
      { s with bridge := (schedule.request s.bridge).2 }) := by
    rw [Session.dispatch_eq, if_pos hlive, ← hfull]
    rfl
  let empty : Front (Option Fragment) := ⟨{}, none, {}, []⟩
  have hempty : empty.IsFresh oneFragment := ⟨rfl, rfl⟩
  let w := ((WindowCall.schedule "r = 1").perform oneFragment empty).2
  have hw := hany oneFragment empty w lawful_oneFragment hempty (.call _ .refl)
  exact ⟨start, s, _, _, w, hstart, hs, hlive, hbind, (hreached s hs).requests hbind, hdispatch,
    ((hreached s hs).dispatch hdispatch).1, rfl, rfl, hw.calls rfl⟩

end Host
end ScriptHost
