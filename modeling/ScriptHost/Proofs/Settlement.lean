import ScriptHost.Command.Execution
import ScriptHost.Proofs.Finality
import ScriptHost.Proofs.HostViews
import ScriptHost.Proofs.ScriptInterface

/-!
# Settling before printing

An evaluation runs its code, terminates the window, and only then runs the loop. The queue holds by
then just what the code has dispatched with success, and since the loop is terminated nothing can be
added to it any more. So the fragments of the code are run, in the order in which they were accepted
and each of them once, and what is printed is what they leave behind.
-/

namespace ScriptHost
namespace Host

open Script Machine

/-! ## What calls do to the queue -/

/-- The fragment that a call has dispatched, if it was answered with success. -/
def dispatchedBy? (c : NativeCall Builtin) : Option Fragment :=
  match c.function, c.args, c.answer with
  | .api .dispatch, [.text source], .ok v =>
      if v = ApiFunction.codeValue NativeError.okCode then some ⟨source⟩ else none
  | _, _, _ => none

/-- The fragments that calls have dispatched, in order. -/
def dispatchedIn (calls : List (NativeCall Builtin)) : List Fragment :=
  calls.filterMap dispatchedBy?

/-- The fragments have been added to the queue of a headless loop, whose owner is still the same. -/
def Bridge.Gains (b : Bridge) (fs : List Fragment) (b' : Bridge) : Prop :=
  ∀ l, b.native = .headless l →
    ∃ l', b'.native = .headless l' ∧ l'.queue = l.queue ++ fs ∧ l'.owned = l.owned

namespace Bridge.Gains

variable {b b₁ b₂ : Bridge} {fs gs : List Fragment}

/-- What is queued later stands behind what was queued before. -/
theorem trans (h : b.Gains fs b₁) (h' : b₁.Gains gs b₂) : b.Gains (fs ++ gs) b₂ := by
  intro l hl
  rcases h l hl with ⟨l₁, hl₁, hqueue, howned⟩
  rcases h' l₁ hl₁ with ⟨l₂, hl₂, hqueue', howned'⟩
  exact ⟨l₂, hl₂, by rw [hqueue', hqueue, List.append_assoc], howned'.trans howned⟩

theorem of_native (h : b₁.native = b.native) : b.Gains [] b₁ :=
  fun l hl => ⟨l, h.trans hl, (List.append_nil _).symm, rfl⟩

/-- What has nothing to do with the queue adds nothing to it. -/
theorem of_aside (h : b.native.Aside b₁.native) : b.Gains [] b₁ := by
  intro l hl
  rcases h l hl with ⟨l', hl', _, _, _, rfl⟩
  exact ⟨_, hl', (List.append_nil _).symm, rfl⟩

/-- The queue is still there when the window is terminated. -/
theorem terminate : b.Gains [] (Request.terminate b).2 := by
  intro l hl
  refine ⟨l.terminate, ?_, (List.append_nil _).symm, rfl⟩
  show b.native.terminate = _
  rw [hl]
  rfl

/-- A loop that has an owner is not taken over. -/
theorem runAgain (b : Bridge) : b.Gains [] (Builtin.runAgain b).2 := by
  refine .of_native ?_
  unfold Builtin.runAgain
  split
  · rename_i howned
    exact Bridge.native_startWindow_of_owned howned
  · rfl

end Bridge.Gains

/-- A dispatch that is refused queues nothing. -/
theorem dispatchedIn_failure (source : String) (e : NativeError) :
    dispatchedIn [⟨.api .dispatch, [.text source], .ok (ApiFunction.codeValue e.code)⟩] = [] := by
  have hne : ApiFunction.codeValue e.code ≠ ApiFunction.codeValue NativeError.okCode :=
    fun h => ApiFunction.failure_ne_success e (congrArg Except.ok h)
  simp [dispatchedIn, dispatchedBy?, hne]

theorem dispatchedIn_error (f : Builtin) (args : List Value) (e : ScriptError) :
    dispatchedIn [⟨f, args, .error e⟩] = [] := by
  simp [dispatchedIn, dispatchedBy?]

/-- Every function but one leaves the queue alone, whatever it answers. -/
theorem Bridge.Gains.of_other {f : Builtin} {args : List Value} {r : Except ScriptError Value}
    {b b' : Bridge} (hf : f ≠ .api .dispatch) (h : b.Gains [] b') :
    b.Gains (dispatchedIn [⟨f, args, r⟩]) b' := by
  have hnone : dispatchedIn [⟨f, args, r⟩] = [] := by simp [dispatchedIn, dispatchedBy?, hf]
  rwa [hnone]

/-- A post adds to the queue if it is answered with success, and not otherwise. -/
theorem gains_schedule (source : String) (b : Bridge) :
    b.Gains (dispatchedIn [⟨.api .dispatch, [.text source],
      .ok (ApiFunction.codeValue (ApiFunction.outcomeCode (Request.schedule source b).1))⟩])
      (Request.schedule source b).2 := by
  intro l hl
  have hcounted : (b.newFragment source).2.native = .headless l := hl
  unfold Request.schedule
  rw [show b.newFragment source = (⟨source⟩, (b.newFragment source).2) from rfl]
  generalize (b.newFragment source).2 = counted at hcounted ⊢
  -- The answer to the script is zero exactly when the fragment has joined the queue.
  cases hsend : l.post ⟨source⟩ with
  | error e =>
      have hpost : Bridge.postNative ⟨source⟩ counted = (.error e, counted) := by
        simp only [Bridge.postNative, hcounted, Native.post, Native.attempt, hsend]
        rfl
      simp only [hpost]
      refine ⟨l, hcounted, ?_, rfl⟩
      show _ = _ ++ dispatchedIn [⟨_, _, .ok (ApiFunction.codeValue e.code)⟩]
      rw [dispatchedIn_failure, List.append_nil]
  | ok l' =>
      have hpost : Bridge.postNative ⟨source⟩ counted =
          (.ok (), { counted with native := .headless l' }) := by
        simp only [Bridge.postNative, hcounted, Native.post, Native.attempt, hsend]
        rfl
      simp only [hpost]
      unfold EventLoop.post at hsend
      split at hsend
      · rcases EventLoop.send_eq_ok.1 hsend with ⟨_, rfl⟩
        exact ⟨_, rfl, rfl, rfl⟩
      · cases hsend

/-- An operation of the window queues a source if it is a dispatch, and nothing otherwise. -/
theorem gains_operation {f : ApiFunction} {args : List Value} {c : WindowCall}
    (h : f.Asks args c) (b : Bridge) :
    b.Gains (dispatchedIn [⟨.api f, args,
      .ok (ApiFunction.codeValue (ApiFunction.outcomeCode (c.request b).1))⟩]) (c.request b).2 := by
  cases h with
  | dispatch source => exact gains_schedule source b
  | bind name function => exact .of_other nofun (.of_aside (Request.aside_bind b name function))
  | unbind name => exact .of_other nofun (.of_aside (Request.aside_unbind b name))
  | deliver id status payload =>
      exact .of_other nofun (.of_aside (Request.aside_returnValue b id _ payload))
  | terminate => exact .of_other nofun .terminate
  | on slot function => exact .of_other nofun (.of_native rfl)

/-- So does every call of the interface, with any arguments. -/
theorem gains_api (f : ApiFunction) (args : List Value) (b : Bridge) :
    b.Gains (dispatchedIn [⟨.api f, args, (f.run args b).1⟩]) (f.run args b).2 := by
  by_cases hf : f.IsOperation
  · rcases ApiFunction.asks_or_raises hf args with ⟨c, hasks⟩ | hraises
    · have hgains := gains_operation hasks b
      have hrun := ApiFunction.run_of_asks hasks b
      generalize f.run args b = ended at hrun ⊢
      subst hrun
      exact hgains
    · rcases ApiFunction.run_of_raises hraises b with ⟨fault, _, hrun⟩
      generalize f.run args b = ended at hrun ⊢
      subst hrun
      rw [dispatchedIn_error]
      exact .of_native rfl
  · -- a constant
    have hnative : (f.run args b).2.native = b.native := by
      cases f with
      | version => cases args <;> rfl
      | errorCode e => cases e <;> rfl
      | _ => exact absurd trivial hf
    refine .of_other ?_ (.of_native hnative)
    rintro ⟨⟩
    exact hf trivial

/-- A call of a native function adds to the queue what it has dispatched, and nothing else. -/
theorem gains_run (f : Builtin) (args : List Value) (b : Bridge) :
    b.Gains (dispatchedIn [⟨f, args, (f.run args b).1⟩]) (f.run args b).2 := by
  cases f with
  | recorder r => exact .of_other nofun (.of_native rfl)
  | probe => exact .of_other nofun (.of_native rfl)
  | probeRun => exact .of_other nofun (.runAgain b)
  | api f => exact gains_api f args b

/-- Call after call, the queue grows by what is dispatched. -/
theorem path_gains : Natives.Path (transcribed Builtin.run)
    (fun h h' => ∃ calls, h'.2 = h.2 ++ calls ∧ h.1.Gains (dispatchedIn calls) h'.1) := by
  refine ⟨fun h => ⟨[], (List.append_nil _).symm, .of_native rfl⟩, ?_, ?_⟩
  · rintro h₁ h₂ h₃ ⟨calls, heq, hgains⟩ ⟨calls', heq', hgains'⟩
    refine ⟨calls ++ calls', by rw [heq', heq, List.append_assoc], ?_⟩
    have htrans := hgains.trans hgains'
    rwa [dispatchedIn, dispatchedIn, ← List.filterMap_append] at htrans
  · exact fun f args h => ⟨_, rfl, gains_run f args h.1⟩

/-- What is read off the session at the end of an activity. -/
theorem Activity.bind_get {α β : Type} (x : Activity α) (g : Session → β) (s : Session) :
    (x >>= fun _ => do return g (← get)) s = (x s).map fun ended => (g ended.2, ended.2) := by
  show (x s).bind _ = _
  cases x s <;> rfl

end Host

namespace Command

open Host Machine Script

/-! ## Evaluation -/

/-- The machine of an evaluation, before the code is run. -/
def begun (settings : Settings) (code : String) : Hosted Builtin Bridge :=
  ⟨withApi (Vm.new settings.limits),
    (newSession settings).bridge.note (.codeStarted code.utf8ByteSize)⟩

/-- The session around a machine. -/
def sessionOf (m : Hosted Builtin Bridge) : Session :=
  ⟨some m.vm, m.host, false⟩

/-- The window has been terminated. -/
def closing (m : Hosted Builtin Bridge) : Session :=
  { sessionOf m with bridge := (Request.terminate m.host).2 }

/-- After that its loop has been taken over. -/
def draining (m : Hosted Builtin Bridge) : Session :=
  { closing m with bridge := (closing m).bridge.startWindow.2 }

section Evaluation

variable {settings : Settings} {budget : Nat} {code : String} {names : List String}
variable {m : Hosted Builtin Bridge}

/-- An evaluation begins with its code. -/
theorem runCode_newSession :
    Session.runCode budget code (newSession settings) =
      (runSource Builtin.run budget code (begun settings code)).map
        fun ended => (some ended.1, sessionOf ended.2) :=
  runCode_of_machine rfl

/-- Code that fails ends the evaluation, and the loop is not run. -/
theorem evaluate_of_error {e : ScriptError}
    (hrun : runSource Builtin.run budget code (begun settings code) = some (.error e, m)) :
    evaluate budget code names (newSession settings) =
      some (.error (.codeFailed e), sessionOf m) := by
  have hcode := @runCode_newSession settings budget code
  rw [hrun] at hcode
  unfold evaluate
  exact Activity.bind_of_some hcode

/-- Code that succeeds is followed by the termination of the window and by a run of it. -/
theorem evaluate_of_ok {v : Value}
    (hrun : runSource Builtin.run budget code (begun settings code) = some (.ok v, m)) :
    evaluate budget code names (newSession settings) =
      (Session.run budget (closing m)).map
        fun ended => (.ok (printedAll ended.2 names), ended.2) := by
  have hcode := @runCode_newSession settings budget code
  rw [hrun] at hcode
  have hterminate : Session.onBridge Request.terminate (sessionOf m) =
      some (.ok (), closing m) := rfl
  unfold evaluate
  refine (Activity.bind_of_some hcode).trans ?_
  refine (Activity.bind_of_some hterminate).trans ?_
  exact Activity.bind_get (Session.run budget)
    (fun s => (.ok (printedAll s names) : Except Failure String)) _

/-- When the code has come to its end, the queue holds what it has dispatched, and the loop has no
owner. -/
theorem queue_after_code {r : Except ScriptError Value}
    (hrun : runSource Builtin.run budget code (begun settings code) = some (r, m)) :
    ∃ calls l, runSource (transcribed Builtin.run) budget code (begun settings code).unwritten =
        some (r, ⟨m.vm, (m.host, calls)⟩) ∧
      m.host.native = .headless l ∧ l.queue = dispatchedIn calls ∧ l.owned = false := by
  rw [runSource_transcribed] at hrun
  rcases Option.map_eq_some_iff.1 hrun with ⟨⟨r', ⟨vm, host, calls⟩⟩, hwritten, heq⟩
  cases heq
  rcases runSource_leads path_gains hwritten with ⟨calls', hcalls, hgains⟩
  rcases hgains (EventLoop.new settings.queueCapacity) rfl with ⟨l, hl, hqueue, howned⟩
  have hsame : calls = calls' := hcalls
  subst hsame
  exact ⟨calls, l, hwritten, hl, hqueue, howned⟩

/-- A loop without an owner is taken over. -/
theorem startWindow_of_free {l : EventLoop Fragment} (hl : m.host.native = .headless l)
    (hfree : l.owned = false) :
    (Request.terminate m.host).2.startWindow = (true, (draining m).bridge) := by
  have hnative : (Request.terminate m.host).2.native = .headless l.terminate := by
    show m.host.native.terminate = _
    rw [hl]
    rfl
  have henter : l.terminate.enter? = some _ := EventLoop.enter?_eq_some.2 ⟨hfree, rfl⟩
  refine Prod.ext ?_ rfl
  show (Bridge.takeLoop ((Request.terminate m.host).2.markWindow.2.note .loopStarted)).1 = true
  unfold Bridge.takeLoop
  simp only [Bridge.note, Bridge.markWindow, hnative, henter]

/-- The loop has what the code has dispatched still to run, and is over when that is done. -/
theorem drain_finishes {l : EventLoop Fragment} (hl : m.host.native = .headless l)
    (hfree : l.owned = false) :
    (draining m).bridge.IsFinal ∧
      Session.Finishes Session.run (closing m) (draining m) l.queue Session.stopped := by
  have hcourse : (Request.terminate m.host).2.Course [] (draining m).bridge :=
    Bridge.silent_startWindow _
  rcases hcourse.isFinal (Bridge.isFinal_terminate hl) with ⟨hfinal, hqueue⟩
  rw [Bridge.queue_terminate hl] at hqueue
  rw [hqueue]
  exact ⟨hfinal, Session.Enters.finishes (.run (startWindow_of_free hl hfree)) .nil hfinal⟩

/-- What is printed are the globals of the machine. -/
theorem printedAll_of_machine {s : Session} {vm : Vm Builtin} (h : s.machine = some vm) :
    printedAll s names = String.join (names.map (printed vm)) := by
  rw [printedAll, h]

/-- No fragment that is run during the drain can dispatch another one. -/
theorem dispatch_while_draining {l : EventLoop Fragment} (hl : m.host.native = .headless l)
    (hfree : l.owned = false) {fs : List Fragment} {f : Fragment} {s : Session} {b : Bridge}
    {vm : Vm Builtin} {m' : Hosted Builtin Bridge} (hworked : (draining m).WorksOff fs s)
    (htake : s.bridge.takeQueued? = some (f, b))
    (hrun : Execution Builtin.run ⟨vm, b.note (.codeStarted f.source.utf8ByteSize)⟩ m')
    (source : String) :
    ∃ b', Builtin.run (.api .dispatch) [.text source] m'.host =
      (.ok (ApiFunction.codeValue (-3)), b') ∧ b'.native = m'.host.native := by
  have hstart : b.Course [] (b.note (.codeStarted f.source.utf8ByteSize)) := .of_same rfl rfl
  have hcourse := (hworked.course.trans (Bridge.Act.take htake).course).trans hstart
  have hfinal := ((hcourse.trans (course_execution hrun)).isFinal (drain_finishes hl hfree).1).1
  exact hfinal.dispatch source

end Evaluation

/-! ## The law -/

/-- What the caller of an evaluation can rely on. -/
structure Settles (settings : Settings) (code : String) (names : List String) : Prop where
  -- the queue still holds what the code has dispatched, and nobody goes on with the session
  failure {budget : Nat} {e : ScriptError} {m : Hosted Builtin Bridge} :
    runSource Builtin.run budget code (begun settings code) = some (.error e, m) →
      (∀ outcome, finish settings (evaluate budget code names) = some outcome →
        outcome.output = "") ∧
      evaluate budget code names (newSession settings) =
        some (.error (.codeFailed e), sessionOf m) ∧
      ∃ calls, runSource (transcribed Builtin.run) budget code (begun settings code).unwritten =
          some (.error e, ⟨m.vm, (m.host, calls)⟩) ∧
        m.host.native.queue = dispatchedIn calls
  success {budget : Nat} {v : Value} {m : Hosted Builtin Bridge} :
    runSource Builtin.run budget code (begun settings code) = some (.ok v, m) →
      ∃ calls, runSource (transcribed Builtin.run) budget code (begun settings code).unwritten =
          some (.ok v, ⟨m.vm, (m.host, calls)⟩) ∧
        (∀ budget r s, evaluate budget code names (newSession settings) = some (r, s) →
          ∃ s' vm, (draining m).WorksOff (dispatchedIn calls) s' ∧ s'.machine = some vm ∧
            s = s'.stopped ∧ r = .ok (String.join (names.map (printed vm)))) ∧
        (∀ s', (draining m).WorksOff (dispatchedIn calls) s' →
          ∃ budget r, evaluate budget code names (newSession settings) = some (r, s'.stopped)) ∧
        ∀ fs s f b (vm : Vm Builtin) m' source, (draining m).WorksOff fs s →
          s.bridge.takeQueued? = some (f, b) →
          Execution Builtin.run ⟨vm, b.note (.codeStarted f.source.utf8ByteSize)⟩ m' →
          ∃ b', Builtin.run (.api .dispatch) [.text source] m'.host =
            (.ok (ApiFunction.codeValue (-3)), b') ∧ b'.native = m'.host.native
  -- the text that an evaluation gives is what is printed, if the queue can be set up
  printing {budget : Nat} {text : String} : isQueueCapacity settings.queueCapacity = true →
    (finish settings (evaluate budget code names) = some (.success text) ↔
      ∃ s, evaluate budget code names (newSession settings) = some (.ok text, s))
  -- an evaluation is over only if the run of the code is
  unfinished {budget : Nat} : runSource Builtin.run budget code (begun settings code) = none →
    evaluate budget code names (newSession settings) = none

section Law

variable {settings : Settings} {budget budget' : Nat} {code : String} {names : List String}
variable {m : Hosted Builtin Bridge} {fs : List Fragment}

/-- Code that does not end within the budget. -/
theorem evaluate_of_none
    (hrun : runSource Builtin.run budget code (begun settings code) = none) :
    evaluate budget code names (newSession settings) = none := by
  have hcode := @runCode_newSession settings budget code
  rw [hrun] at hcode
  unfold evaluate
  show (Session.runCode budget code (newSession settings)).bind _ = none
  rw [hcode]
  rfl

/-- A run that is over has one end, whatever the budget. -/
theorem runSource_unique {r r' : Except ScriptError Value × Hosted Builtin Bridge}
    {start : Hosted Builtin Bridge}
    (h : runSource Builtin.run budget code start = some r)
    (h' : runSource Builtin.run budget' code start = some r') : r = r' := by
  have hmax := runSource_mono h (Nat.le_max_left budget budget')
  rw [runSource_mono h' (Nat.le_max_right budget budget')] at hmax
  exact (Option.some.inj hmax).symm

/-- An evaluation whose code has come to its end is over only when the fragments are. -/
theorem evaluation_only {v : Value} {r : Except Failure String} {s : Session}
    (hrun : runSource Builtin.run budget code (begun settings code) = some (.ok v, m))
    (hdrain : Session.Finishes Session.run (closing m) (draining m) fs Session.stopped)
    (hover : evaluate budget' code names (newSession settings) = some (r, s)) :
    ∃ s' vm, (draining m).WorksOff fs s' ∧ s'.machine = some vm ∧ s = s'.stopped ∧
      r = .ok (String.join (names.map (printed vm))) := by
  cases hrun' : runSource Builtin.run budget' code (begun settings code) with
  | none =>
      rw [evaluate_of_none hrun'] at hover
      cases hover
  | some ended =>
      -- the code ends in the same way within the other budget
      cases runSource_unique hrun hrun'
      rw [evaluate_of_ok hrun'] at hover
      rcases Option.map_eq_some_iff.1 hover with ⟨⟨ended, s₁⟩, hserved, heq⟩
      cases heq
      rcases hdrain.only budget' ended s₁ hserved with ⟨_, s', hworked, rfl⟩
      rcases Option.isSome_iff_exists.1 (hworked.machine rfl) with ⟨vm, hvm⟩
      refine ⟨s', vm, hworked, hvm, rfl, ?_⟩
      rw [printedAll_of_machine (s := s'.stopped) hvm]

/-- An evaluation is over if its code and the fragments are. -/
theorem evaluation_ends {v : Value} {s' : Session}
    (hrun : runSource Builtin.run budget code (begun settings code) = some (.ok v, m))
    (hdrain : Session.Finishes Session.run (closing m) (draining m) fs Session.stopped)
    (hworked : (draining m).WorksOff fs s') :
    ∃ budget r, evaluate budget code names (newSession settings) = some (r, s'.stopped) := by
  rcases hdrain.ends s' hworked with ⟨own, hserved⟩
  have hrun' := runSource_mono hrun (Nat.le_max_left budget own)
  have hserved' := monotone_run own (max budget own) _ _ (Nat.le_max_right budget own) hserved
  have hover := @evaluate_of_ok _ _ _ names _ _ hrun'
  rw [hserved'] at hover
  exact ⟨_, _, hover⟩

/-- Code that fails prints nothing. -/
theorem output_of_error {e : ScriptError} {outcome : Outcome}
    (hrun : runSource Builtin.run budget code (begun settings code) = some (.error e, m))
    (hfinish : finish settings (evaluate budget code names) = some outcome) :
    outcome.output = "" := by
  unfold finish at hfinish
  split at hfinish
  · rw [evaluate_of_error hrun] at hfinish
    cases hfinish
    rfl
  · cases hfinish
    rfl

/-- The outcome is a success if the evaluation is one, with what it has printed. -/
theorem finish_eq_success {activity : Activity (Except Failure String)} {text : String}
    (hcapacity : isQueueCapacity settings.queueCapacity = true) :
    finish settings activity = some (.success text) ↔
      ∃ s, activity (newSession settings) = some (.ok text, s) := by
  unfold finish
  rw [if_pos hcapacity]
  constructor
  · intro h
    rcases Option.map_eq_some_iff.1 h with ⟨⟨e | output, s⟩, hover, houtcome⟩
    · cases houtcome
    · cases houtcome
      exact ⟨s, hover⟩
  · rintro ⟨s, hover⟩
    rw [hover]
    rfl

end Law

/-- An evaluation prints what its code and the fragments dispatched by it have left behind. -/
theorem evaluation_settles_dispatched_work (settings : Settings) (code : String)
    (names : List String) : Settles settings code names where
  failure hrun := by
    rcases queue_after_code hrun with ⟨calls, l, hwritten, hl, hqueue, _⟩
    refine ⟨fun _ => output_of_error hrun, evaluate_of_error hrun, calls, hwritten, ?_⟩
    rw [hl]
    exact hqueue
  success hrun := by
    rcases queue_after_code hrun with ⟨calls, l, hwritten, hl, hqueue, hfree⟩
    rcases drain_finishes hl hfree with ⟨_, hdrain⟩
    rw [hqueue] at hdrain
    exact ⟨calls, hwritten, fun _ _ _ => evaluation_only hrun hdrain,
      fun _ => evaluation_ends hrun hdrain, fun _ _ _ _ _ _ source hworked htake hexecution =>
        dispatch_while_draining hl hfree hworked htake hexecution source⟩
  printing := finish_eq_success
  unfinished hrun := evaluate_of_none hrun

/-- The second fragment fails, and the third one is refused what it dispatches; after that the
globals are printed. -/
theorem dispatched_fragments_are_settled :
    ∃ (code text : String) (m : Hosted Builtin Bridge) (s s' : Session) (vm : Vm Builtin),
      code = "webview_dispatch(\"x = x + 1\") webview_dispatch(\"x + null\")
        webview_dispatch(\"z = webview_dispatch(\\\"x = 9\\\")\") x = 1" ∧
      text = "x = 2\nz = -3\n" ∧
      (∃ v, runSource Builtin.run 40 code (begun {} code) = some (.ok v, m)) ∧
      evaluate 40 code ["x", "z"] (newSession {}) = some (.ok text, s) ∧
      (draining m).WorksOff
        [⟨"x = x + 1"⟩, ⟨"x + null"⟩, ⟨"z = webview_dispatch(\"x = 9\")"⟩] s' ∧
      s'.machine = some vm ∧ s = s'.stopped ∧
      text = String.join (["x", "z"].map (printed vm)) := by
  let code := "webview_dispatch(\"x = x + 1\") webview_dispatch(\"x + null\")
        webview_dispatch(\"z = webview_dispatch(\\\"x = 9\\\")\") x = 1"
  have hsettles := evaluation_settles_dispatched_work {} code ["x", "z"]
  -- the code alone
  have hended : (runSource (transcribed Builtin.run) 40 code (begun {} code).unwritten).map
      (fun ended => (ended.1.isOk, dispatchedIn ended.2.host.2)) =
        some (true, [⟨"x = x + 1"⟩, ⟨"x + null"⟩, ⟨"z = webview_dispatch(\"x = 9\")"⟩]) := by
    decide +kernel
  rcases Option.map_eq_some_iff.1 hended with ⟨⟨e | v, m⟩, hwritten, heq⟩
  · cases heq
  have hrun := runSource_transcribed Builtin.run 40 code (begun {} code)
  rw [hwritten] at hrun
  rcases hsettles.success hrun with ⟨calls, hcalls, honly, _⟩
  have hsame : m.host.2 = calls :=
    congrArg (fun ended => ended.2.host.2) (Option.some.inj (hwritten.symm.trans hcalls))
  -- all of it
  have hprints : finish {} (evaluate 40 code ["x", "z"]) = some (.success "x = 2\nz = -3\n") := by
    decide +kernel
  rcases (hsettles.printing (by decide)).1 hprints with ⟨s, hover⟩
  rcases honly 40 _ s hover with ⟨s', vm, hworked, hvm, hs, htext⟩
  have hdispatched : dispatchedIn m.host.2 =
      [⟨"x = x + 1"⟩, ⟨"x + null"⟩, ⟨"z = webview_dispatch(\"x = 9\")"⟩] :=
    congrArg Prod.snd heq
  rw [← hsame, hdispatched] at hworked
  exact ⟨code, _, _, s, s', vm, rfl, rfl, ⟨v, hrun⟩, hover, hworked, hvm, hs,
    Except.ok.inj htext⟩

end Command
end ScriptHost
