import ScriptHost.Proofs.Finality
import ScriptHost.Proofs.OutsideCalls

/-!
# The calls that an event makes

An event is sent along its routes with the handlers that are set when it is fired. Handlers may do
what they like to the window, but not to the routes that are left: each function is called with the
payload of its route as soon as the one before it has come to its end, whatever end that was, as
long as the machine is there and the window is running. Everything else leaves both of them alone.
-/

namespace ScriptHost
namespace Host

open Script Machine

/-! ## Calls that are due -/

namespace Handlers

/-- The function that handles a slot; an empty name stands for none. -/
def function? (h : Handlers) (slot : HandlerSlot) : Option String :=
  (h.get slot).filter fun function => function ≠ ""

/-- The calls along some routes, each with the payload, if any, as its only argument. -/
def callsAlong (h : Handlers) (routes : List (HandlerSlot × Option String)) :
    List (String × List String) :=
  routes.filterMap fun (slot, payload) =>
    (h.function? slot).map fun function => (function, payload.toList)

variable {h : Handlers} {slot : HandlerSlot} {function : String} {payload : Option String}
variable {routes : List (HandlerSlot × Option String)}

/-- A route without a handler makes no call. -/
theorem callsAlong_of_none (hnone : h.function? slot = none) :
    h.callsAlong ((slot, payload) :: routes) = h.callsAlong routes := by
  simp [callsAlong, hnone]

/-- A route with a handler makes one, with the payload if there is one. -/
theorem callsAlong_of_some (hsome : h.function? slot = some function) :
    h.callsAlong ((slot, payload) :: routes) =
      (function, payload.toList) :: h.callsAlong routes := by
  simp [callsAlong, hsome]

/-- The function of a handler has a name that is not empty. -/
theorem function?_eq_some :
    h.function? slot = some function ↔ h.get slot = some function ∧ function ≠ "" := by
  simp [function?, Option.filter_eq_some_iff]

theorem function?_eq_none :
    h.function? slot = none ↔ h.get slot = none ∨ h.get slot = some "" := by
  unfold function?
  rcases h.get slot with _ | name
  · simp
  · simp [Option.filter_eq_none_iff]

end Handlers

/-! ## One route after another -/

namespace Session

/-- The machine is there and the window is running, so that events are listened to. -/
structure Listens (s : Session) : Prop where
  live : s.isLive = true
  running : s.bridge.window.isRunning = true

/-- The machine calls the function and the call comes to an end, whichever it is. -/
def Completes (s : Session) (function : String) (args : List String) (s' : Session) : Prop :=
  ∃ vm budget outcome m, s.machine = some vm ∧
    Machine.invoke Builtin.run budget function args ⟨vm, s.bridge⟩ = some (outcome, m) ∧
    s' = { s with
      machine := some m.vm, bridge := m.host.noteAll (noticesOf function outcome) }

/-- What is written down about a handler that is not called. -/
def missed (s : Session) (function : String) : Notice :=
  if s.isLive then .eventOutsideLoop function else .eventOrphaned function

/-- Goes along the routes with these handlers and makes these calls, in this order. -/
inductive Serves (h : Handlers) : List (HandlerSlot × Option String) → Session →
    List (String × List String) → Session → Prop
  | nil {s} : Serves h [] s [] s
  | unset {slot payload routes s calls s'} : h.function? slot = none →
      Serves h routes s calls s' → Serves h ((slot, payload) :: routes) s calls s'
  | call {slot payload routes s function s₁ calls s'} : h.function? slot = some function →
      s.Listens → s.Completes function payload.toList s₁ → Serves h routes s₁ calls s' →
      Serves h ((slot, payload) :: routes) s ((function, payload.toList) :: calls) s'
  | miss {slot payload routes s function calls s'} : h.function? slot = some function →
      ¬ s.Listens →
      Serves h routes { s with bridge := s.bridge.note (s.missed function) } calls s' →
      Serves h ((slot, payload) :: routes) s calls s'

end Session

/-! ## A single handler -/

section Single

variable {s s' : Session} {budget : Nat} {h : Handlers} {slot : HandlerSlot} {function : String}
variable {args : List String} {payload : Option String}

/-- A call that ends does so with every larger budget. -/
theorem monotone_invoke (name : String) (args : List String) :
    Activity.IsMonotone fun n => Session.invoke n name args := by
  unfold Session.invoke
  exact .bind (.onMachine fun _ _ _ _ hle h => invoke_mono h hle) fun _ => .const _

/-- A call that completes is over with some budget. -/
theorem invoke_of_completes (h : s.Completes function args s') :
    ∃ budget, Session.invoke budget function args s = some ((), s') := by
  rcases h with ⟨vm, budget, outcome, m, hvm, hinvoke, rfl⟩
  have hcall : Session.onMachine (Machine.invoke Builtin.run budget function args) s =
      some (some outcome, { s with machine := some m.vm, bridge := m.host }) := by
    simp only [Session.onMachine, hvm, hinvoke, Option.map_some]
  refine ⟨budget, ?_⟩
  unfold Session.invoke
  exact (Activity.bind_of_some hcall).trans (noteInvocation_eq function outcome _)

theorem completes_of_invoke (hlive : s.isLive = true)
    (h : Session.invoke budget function args s = some ((), s')) :
    s.Completes function args s' := by
  rcases Option.isSome_iff_exists.1 hlive with ⟨vm, hvm⟩
  rcases session_invoke_eq_some hvm h with ⟨outcome, m, hinvoke, heq⟩
  exact ⟨vm, budget, outcome, m, hvm, hinvoke, heq⟩

/-- Without a handler nothing happens. -/
theorem onEvent_of_unset (hnone : h.function? slot = none) (payload : Option String) :
    Session.onEvent budget (h.get slot) payload s = some ((), s) := by
  rcases Handlers.function?_eq_none.1 hnone with hget | hget
  · rw [hget]
    rfl
  · rw [hget]
    rfl

/-- As long as the window listens, its handler is called. -/
theorem onEvent_of_listens (hsome : h.function? slot = some function) (hs : s.Listens) :
    Session.onEvent budget (h.get slot) payload s =
      Session.invoke budget function payload.toList s := by
  rcases Handlers.function?_eq_some.1 hsome with ⟨hget, hname⟩
  have hstate : (get : Activity Session) s = some (s, s) := rfl
  rw [hget]
  refine (Activity.bind_of_some hstate).trans ?_
  rw [if_neg hname, if_neg (by simp [hs.live]), if_neg (by simp [hs.running])]

/-- Otherwise it is told only what has been missed. -/
theorem onEvent_of_not_listens (hsome : h.function? slot = some function) (hs : ¬ s.Listens) :
    Session.onEvent budget (h.get slot) payload s =
      some ((), { s with bridge := s.bridge.note (s.missed function) }) := by
  rcases Handlers.function?_eq_some.1 hsome with ⟨hget, hname⟩
  have hstate : (get : Activity Session) s = some (s, s) := rfl
  rw [hget]
  refine (Activity.bind_of_some hstate).trans ?_
  rw [if_neg hname]
  by_cases hlive : s.isLive = true
  · have hstopped : s.bridge.window.isRunning ≠ true := fun hrunning => hs ⟨hlive, hrunning⟩
    rw [if_neg (by simp [hlive]), if_pos (by simpa using hstopped), Session.missed, if_pos hlive]
    rfl
  · rw [if_pos (by simpa using hlive), Session.missed, if_neg hlive]
    rfl

theorem monotone_onEvent (handler payload : Option String) :
    Activity.IsMonotone fun n => Session.onEvent n handler payload := by
  unfold Session.onEvent
  cases handler with
  | none => exact .const _
  | some function =>
      refine .bind (.const get) fun s => ?_
      split
      · exact .const _
      · split
        · exact .const _
        · split
          · exact .const _
          · exact monotone_invoke _ _

/-- Handlers that end do so with every larger budget. -/
theorem monotone_handleAll (handlers : List (Option String × Option String)) :
    Activity.IsMonotone fun n => Session.handleAll n handlers := by
  induction handlers with
  | nil => exact .const _
  | cons entry rest ih => exact .bind (monotone_onEvent entry.1 entry.2) fun _ => ih

end Single

/-! ## All of them -/

section Routes

variable {s s' s₁ s₂ : Session} {budget : Nat} {h : Handlers}
variable {routes : List (HandlerSlot × Option String)}
variable {calls calls₁ calls₂ : List (String × List String)}

/-- The handlers of some routes as they are at this moment. -/
def Handlers.entries (h : Handlers) (routes : List (HandlerSlot × Option String)) :
    List (Option String × Option String) :=
  routes.map fun (slot, payload) => (h.get slot, payload)

/-- Whatever the handlers do, it is one call after the other. -/
theorem serves_of_handleAll (hall : Session.handleAll budget (h.entries routes) s = some ((), s')) :
    ∃ calls, Session.Serves h routes s calls s' := by
  induction routes generalizing s with
  | nil =>
      cases hall
      exact ⟨[], .nil⟩
  | cons route routes ih =>
      rcases route with ⟨slot, payload⟩
      rcases Activity.bind_eq_some hall with ⟨_, s₁, hfirst, hrest⟩
      rcases ih hrest with ⟨calls, hcalls⟩
      -- Whether the session listens is asked for each handler anew, since the one before may have
      -- ended it.
      rcases hfunction : h.function? slot with _ | function
      · rw [onEvent_of_unset hfunction] at hfirst
        cases hfirst
        exact ⟨calls, .unset hfunction hcalls⟩
      · by_cases hs : s.Listens
        · rw [onEvent_of_listens hfunction hs] at hfirst
          exact ⟨_, .call hfunction hs (completes_of_invoke hs.live hfirst) hcalls⟩
        · rw [onEvent_of_not_listens hfunction hs] at hfirst
          cases hfirst
          exact ⟨calls, .miss hfunction hs hcalls⟩

/-- Some budget is enough for all the calls, since each of them comes to its end. -/
theorem Session.Serves.handleAll (hserves : Session.Serves h routes s calls s') :
    ∃ budget, Session.handleAll budget (h.entries routes) s = some ((), s') := by
  induction hserves with
  | nil => exact ⟨0, rfl⟩
  | unset hnone _ ih =>
      rcases ih with ⟨budget, hrest⟩
      exact ⟨budget, (Activity.bind_of_some (onEvent_of_unset hnone _)).trans hrest⟩
  | @call slot payload routes s function s₁ calls s' hsome hs hcompletes _ ih =>
      rcases ih with ⟨budget, hrest⟩
      rcases invoke_of_completes hcompletes with ⟨own, hinvoke⟩
      -- what is enough for the call and for the rest is enough for both
      let enough := max own budget
      have hfirst : Session.onEvent enough (h.get slot) payload s = some ((), s₁) :=
        (onEvent_of_listens hsome hs).trans
          (monotone_invoke _ _ own enough _ _ (Nat.le_max_left _ _) hinvoke)
      have hrest' := monotone_handleAll _ budget enough _ _ (Nat.le_max_right _ _) hrest
      exact ⟨enough, (Activity.bind_of_some hfirst).trans hrest'⟩
  | miss hsome hs _ ih =>
      rcases ih with ⟨budget, hrest⟩
      exact ⟨budget, (Activity.bind_of_some (onEvent_of_not_listens hsome hs)).trans hrest⟩

/-- An event that has been fired is one whose routes have been served. -/
theorem fire_eq_some {event : Event} :
    (∃ budget, Session.fire budget event s = some ((), s')) ↔
      ∃ calls, Session.Serves s.bridge.window.handlers event.routes s calls s' := by
  -- the handlers are looked up for all routes before any of them is called
  have hfire (budget : Nat) : Session.fire budget event s =
      Session.handleAll budget (s.bridge.window.handlers.entries event.routes) s := rfl
  constructor
  · rintro ⟨budget, h⟩
    exact serves_of_handleAll (hfire budget ▸ h)
  · rintro ⟨calls, hcalls⟩
    exact hcalls.handleAll

end Routes

/-! ## What handlers may do to the window -/

/-- How far a window has come. -/
def Phase.rank : Phase → Nat
  | .idle => 0
  | .running => 1
  | .terminated => 2

namespace Bridge

variable {b b' : Bridge}

/-- The window does not fall back into an earlier phase. -/
def Advances (b b' : Bridge) : Prop :=
  b.window.phase.rank ≤ b'.window.phase.rank

/-- What is none of the window's business does not move its phase. -/
theorem advances_of_business (h : b'.business = b.business) : b.Advances b' := by
  have hphase : b'.window.phase = b.window.phase := congrArg Prod.fst h
  rw [Advances, hphase]

/-- No request of a script moves the phase back. -/
theorem advances_action {f : ApiFunction} {args : List Value} {x : Request Unit}
    (h : f.action args = .ok (.request x)) (b : Bridge) : b.Advances (x b).2 := by
  rcases ApiFunction.action_cases h with ⟨foreign, function, rfl⟩ | ⟨foreign, rfl⟩ |
    ⟨source, rfl⟩ | ⟨id, status, payload, rfl⟩ | rfl | ⟨slot, function, rfl⟩
  · exact advances_of_business (b.business_bind foreign function)
  · exact advances_of_business (b.business_unbind foreign)
  · exact advances_of_business (b.business_schedule source)
  · exact advances_of_business (b.quiet_returnValue id status payload).business
  · show b.window.phase.rank ≤ 2
    cases b.window.phase <;> decide
  · exact advances_of_business rfl

/-- A window that is running or terminated is not set back by a run. -/
theorem advances_startWindow (b : Bridge) : b.Advances b.startWindow.2 := by
  rw [Advances, b.phase_startWindow]
  cases b.window.phase <;> decide

/-- No native function sets it back. -/
theorem advances_builtin (f : Builtin) (args : List Value) (b : Bridge) :
    b.Advances (f.run args b).2 := by
  cases f with
  | recorder r => exact Nat.le_refl _
  | probe => exact Nat.le_refl _
  | probeRun =>
      show b.Advances (Builtin.runAgain b).2
      unfold Builtin.runAgain
      split
      · exact b.advances_startWindow
      · exact Nat.le_refl _
  | api f =>
      show b.Advances (f.run args b).2
      unfold ApiFunction.run
      rcases haction : f.action args with e | x | v
      · exact Nat.le_refl _
      · exact Nat.le_trans (advances_action haction b)
          (advances_of_business (quiet_afterOutcome _ _).business)
      · exact Nat.le_refl _

theorem path_advances : Natives.Path Builtin.run Advances :=
  ⟨fun _ => Nat.le_refl _, Nat.le_trans, fun f args b => advances_builtin f args b⟩

theorem phase_noteAll (ns : List Notice) (b : Bridge) :
    (b.noteAll ns).window.phase = b.window.phase := by
  induction ns generalizing b with
  | nil => rfl
  | cons n ns ih => exact ih (b.note n)

end Bridge

section Handling

variable {s s' s₁ s₂ : Session} {function : String} {args : List String}

/-- Whatever a handler does, the machine is there afterwards, and the window is running or has been
terminated. -/
theorem Session.Completes.phase (h : s.Completes function args s') (hs : s.Listens) :
    s'.isLive = true ∧
      (s'.bridge.window.phase = .running ∨ s'.bridge.window.phase = .terminated) := by
  rcases h with ⟨vm, budget, outcome, m, _, hinvoke, rfl⟩
  refine ⟨rfl, ?_⟩
  have hadvances : s.bridge.Advances m.host := invoke_leads Bridge.path_advances hinvoke
  have hrunning : s.bridge.window.phase = .running := beq_iff_eq.1 hs.running
  rw [Bridge.Advances, hrunning] at hadvances
  -- the notes about the outcome do not touch the window
  show (m.host.noteAll _).window.phase = _ ∨ (m.host.noteAll _).window.phase = _
  rw [Bridge.phase_noteAll]
  cases hphase : m.host.window.phase with
  | idle =>
      rw [hphase] at hadvances
      exact absurd hadvances (by decide)
  | running => exact .inl rfl
  | terminated => exact .inr rfl

theorem Session.Completes.unique (h₁ : s.Completes function args s₁)
    (h₂ : s.Completes function args s₂) : s₁ = s₂ := by
  rcases invoke_of_completes h₁ with ⟨budget₁, hinvoke₁⟩
  rcases invoke_of_completes h₂ with ⟨budget₂, hinvoke₂⟩
  exact congrArg Prod.snd ((monotone_invoke function args).unique hinvoke₁ hinvoke₂)

end Handling

/-! ## Which calls are made -/

namespace Session.Serves

variable {s s' s₁ s₂ : Session} {h : Handlers} {routes : List (HandlerSlot × Option String)}
variable {calls calls₁ calls₂ : List (String × List String)}

/-- The routes determine the calls and what comes of them. -/
theorem unique (h₁ : Serves h routes s calls₁ s₁) (h₂ : Serves h routes s calls₂ s₂) :
    calls₁ = calls₂ ∧ s₁ = s₂ := by
  induction h₁ generalizing calls₂ with
  | nil =>
      cases h₂
      exact ⟨rfl, rfl⟩
  | unset hnone _ ih =>
      cases h₂ with
      | unset _ hrest => exact ih hrest
      | call hsome => simp [hnone] at hsome
      | miss hsome => simp [hnone] at hsome
  | call hsome hs hcompletes _ ih =>
      -- the session tells which case applies, so both are served in the same way
      cases h₂ with
      | unset hnone => simp [hsome] at hnone
      | call hsome' _ hcompletes' hrest =>
          cases hsome.symm.trans hsome'
          cases hcompletes.unique hcompletes'
          rcases ih hrest with ⟨rfl, heq⟩
          exact ⟨rfl, heq⟩
      | miss _ hstopped => exact absurd hs hstopped
  | miss hsome hstopped _ ih =>
      cases h₂ with
      | unset hnone => simp [hsome] at hnone
      | call _ hs => exact absurd hs hstopped
      | miss hsome' _ hrest =>
          cases hsome.symm.trans hsome'
          exact ih hrest

/-- Once nobody listens there are no more calls, and only the journal tells of the event. -/
theorem of_not_listens (hserves : Serves h routes s calls s') (hs : ¬ s.Listens) :
    calls = [] ∧ s' = { s with bridge.journal := s'.bridge.journal } := by
  induction hserves with
  | nil => exact ⟨rfl, rfl⟩
  | unset _ _ ih => exact ih hs
  | call _ hs' => exact absurd hs' hs
  | miss _ _ _ ih =>
      rcases ih (fun hlistens => hs ⟨hlistens.live, hlistens.running⟩) with ⟨hcalls, heq⟩
      exact ⟨hcalls, heq⟩

/-- The calls are those that are due, from the first one on, and the window has been terminated if
they are not all of them. -/
theorem calls_eq (hserves : Serves h routes s calls s') (hs : s.Listens) :
    ∃ rest, h.callsAlong routes = calls ++ rest ∧ s'.isLive = true ∧
      (s'.bridge.window.phase = .running ∧ rest = [] ∨ s'.bridge.window.phase = .terminated) := by
  induction hserves with
  | nil => exact ⟨[], rfl, hs.live, .inl ⟨beq_iff_eq.1 hs.running, rfl⟩⟩
  | unset hnone _ ih =>
      rw [Handlers.callsAlong_of_none hnone]
      exact ih hs
  | @call slot payload routes s function s₁ calls s' hsome _ hcompletes hrest ih =>
      rw [Handlers.callsAlong_of_some hsome]
      rcases hcompletes.phase hs with ⟨hlive, hrunning | hterminated⟩
      · rcases ih ⟨hlive, beq_iff_eq.2 hrunning⟩ with ⟨rest, hcalls, hends⟩
        exact ⟨rest, by rw [hcalls, List.cons_append], hends⟩
      · -- the handler has terminated the window, so the calls are over
        have hstopped : ¬ s₁.Listens := fun hlistens => by
          have hrunning := hlistens.running
          rw [Window.isRunning, hterminated] at hrunning
          cases hrunning
        rcases hrest.of_not_listens hstopped with ⟨rfl, heq⟩
        refine ⟨h.callsAlong routes, rfl, ?_, .inr ?_⟩
        · rw [heq]
          exact hlive
        · rw [heq]
          exact hterminated
  | miss _ hstopped => exact absurd hs hstopped

end Session.Serves

/-- Firing an event is over in just the way in which its routes are served, one after another with
the handlers from the beginning. From any route on there is at most one such way. If the session
listens there, then the calls that are due are made in their order, until all of them are made or
one of the functions has terminated the window; nothing else keeps the later ones from being made.
Without anyone to listen no call is made, and only the journal changes. -/
theorem firing_makes_its_calls (s : Session) (event : Event) :
    let handlers := s.bridge.window.handlers
    (∀ s', (∃ budget, Session.fire budget event s = some ((), s')) ↔
      ∃ calls, Session.Serves handlers event.routes s calls s') ∧
    ∀ routes s₁ calls s', Session.Serves handlers routes s₁ calls s' →
      (∀ calls₂ s₂, Session.Serves handlers routes s₁ calls₂ s₂ → calls₂ = calls ∧ s₂ = s') ∧
      (s₁.Listens → ∃ rest, handlers.callsAlong routes = calls ++ rest ∧ s'.isLive = true ∧
        (s'.bridge.window.phase = .running ∧ rest = [] ∨
          s'.bridge.window.phase = .terminated)) ∧
      (¬ s₁.Listens → calls = [] ∧ s' = { s₁ with bridge.journal := s'.bridge.journal }) := by
  intro handlers
  refine ⟨fun s' => fire_eq_some, fun routes s₁ calls s' hserves => ⟨?_, ?_, ?_⟩⟩
  · exact fun calls₂ s₂ h₂ => h₂.unique hserves
  · exact hserves.calls_eq
  · exact hserves.of_not_listens

/-- A finished load goes to two handlers, but the first one terminates the window. -/
theorem terminating_handler_is_the_last_one :
    ∃ s s' : Session, s.Listens ∧
      s.bridge.window.handlers.callsAlong Event.loadFinished.routes =
        [("Stop", ["finished"]), ("Ready", [])] ∧
      (∃ budget, Session.fire budget .loadFinished s = some ((), s')) ∧
      Session.Serves s.bridge.window.handlers Event.loadFinished.routes s
        [("Stop", ["finished"])] s' ∧
      s'.bridge.window.phase = .terminated := by
  let window : Window :=
    { phase := .running, handlers.load := "Stop", handlers.domReady := "Ready" }
  let b : Bridge := { window := window, native := .headless (.new 1) }
  let vm₀ : Vm Builtin := (Vm.new {}).registerNative "terminate" (.api .terminate)
  let start : Hosted Builtin Bridge := ⟨vm₀, b⟩
  let loaded := runSource Builtin.run 2 "func Stop(x) \x7b terminate() \x7d" start
  let vm := ((loaded.map Prod.snd).getD start).vm
  let s : Session := ⟨some vm, b, false⟩
  let called := Machine.invoke Builtin.run 5 "Stop" ["finished"] ⟨vm, b⟩
  let m := (called.map Prod.snd).getD start
  obtain ⟨outcome, hcalled⟩ : ∃ outcome, called = some (outcome, m) :=
    exists_of_isSome (by decide +kernel)
  let s₁ : Session := ⟨some m.vm, m.host.noteAll (noticesOf "Stop" outcome), false⟩
  have hcompletes : s.Completes "Stop" ["finished"] s₁ := ⟨vm, 5, outcome, m, rfl, hcalled, rfl⟩
  have hphase : s₁.bridge.window.phase = .terminated :=
    (Bridge.phase_noteAll _ _).trans (by decide +kernel)
  -- The window is over after the first handler, so the second is missed.
  have hstopped : ¬ s₁.Listens := fun hs => by
    have hrunning := hs.running
    rw [Window.isRunning, hphase] at hrunning
    cases hrunning
  let s' : Session := { s₁ with bridge := s₁.bridge.note (s₁.missed "Ready") }
  have hserves : Session.Serves s.bridge.window.handlers Event.loadFinished.routes s
      [("Stop", ["finished"])] s' :=
    .call rfl ⟨rfl, rfl⟩ hcompletes (.miss rfl hstopped .nil)
  have hfire := ((firing_makes_its_calls s .loadFinished).1 s').2 ⟨_, hserves⟩
  exact ⟨s, s', ⟨rfl, rfl⟩, rfl, hfire, hserves, hphase⟩

end Host
end ScriptHost
