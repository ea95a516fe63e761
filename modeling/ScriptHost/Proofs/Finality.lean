import ScriptHost.Proofs.Drains

/-!
# Termination is final

A window that has been terminated never counts as running again, and neither it nor the loop under
it leaves that phase. Whatever is posted is refused from then on, so the queue can only become
shorter, and a run of the loop is over when it has worked off what was queued at that moment.
-/

namespace ScriptHost
namespace Host

open Script Machine

/-! ## Final bridges -/

/-- The window and the headless loop under it have been terminated. -/
structure Bridge.IsFinal (b : Bridge) : Prop where
  window : b.window.phase = .terminated
  native : ∃ l, b.native = .headless l ∧ l.isTerminated = true

namespace Bridge

variable {b b' : Bridge} {fs : List Fragment}

/-- Termination makes a bridge final. -/
theorem isFinal_terminate {l : EventLoop Fragment} (h : b.native = .headless l) :
    (Request.terminate b).2.IsFinal := by
  refine ⟨rfl, l.terminate, ?_, rfl⟩
  show b.native.terminate = _
  rw [h]
  rfl

/-- What has been accepted stays in the queue. -/
theorem queue_terminate {l : EventLoop Fragment} (h : b.native = .headless l) :
    (Request.terminate b).2.native.queue = l.queue := by
  show b.native.terminate.queue = _
  rw [h]
  rfl

namespace IsFinal

variable (hb : b.IsFinal)
include hb

theorem isRunning : b.window.isRunning = false := by
  rw [Window.isRunning, hb.window]
  rfl

theorem isTerminated : b.native.isTerminated = true := by
  rcases hb.native with ⟨l, hl, hterminated⟩
  rw [hl]
  exact hterminated

/-- A bridge is final by its window and its native side alone. -/
theorem congr (hphase : b'.window.phase = b.window.phase) (hnative : b'.native = b.native) :
    b'.IsFinal :=
  ⟨hphase.trans hb.window, hnative ▸ hb.native⟩

/-- A final bridge accepts nothing. -/
theorem postNative (f : Fragment) : Bridge.postNative f b = (.error .invalidState, b) := by
  rcases hb.native with ⟨l, hl, hterminated⟩
  have hpost : l.post f = .error .invalidState :=
    post_eq_invalidState.2 (EventLoop.isOpen_eq_false.2 (.inr hterminated))
  simp only [Bridge.postNative, hl, Native.post, Native.attempt, hpost]
  rfl

/-- The loop can still be taken over, and its queue is what it was. -/
theorem takeLoop : b.takeLoop.2.IsFinal ∧ b.takeLoop.2.native.queue = b.native.queue := by
  rcases hb.native with ⟨l, hl, hterminated⟩
  cases henter : l.enter? with
  | none =>
      have htake : b.takeLoop = (false, b.note .loopTaken) := by
        simp only [Bridge.takeLoop, hl, henter]
      rw [htake]
      exact ⟨hb.congr rfl rfl, rfl⟩
  | some l' =>
      have htake : b.takeLoop = (true, { b with native := .headless l' }) := by
        simp only [Bridge.takeLoop, hl, henter]
      rcases EventLoop.enter?_eq_some.1 henter with ⟨_, rfl⟩
      rw [htake, hl]
      refine ⟨⟨hb.window, _, rfl, ?_⟩, rfl⟩
      -- the last phase does not start again
      have hphase : l.phase = .terminated := beq_iff_eq.1 hterminated
      show (l.phase.start == .terminated) = true
      rw [hphase]
      rfl

end IsFinal

/-- Nothing that is done to a final bridge adds to the queue or takes anything but its first
fragment. -/
theorem Act.isFinal (h : b.Act fs b') (hb : b.IsFinal) :
    b'.IsFinal ∧ b.native.queue = fs ++ b'.native.queue := by
  have hnative := hb.native
  rcases hnative with ⟨l, hl, hterminated⟩
  cases h with
  | aside hphase haside =>
      rcases haside l hl with ⟨l', hl', _, _, _, rfl⟩
      rw [hl, hl']
      exact ⟨⟨hphase.trans hb.window, _, hl', hterminated⟩, rfl⟩
  | post =>
      rw [hb.postNative]
      exact ⟨hb, rfl⟩
  -- The one act by which the queue gets shorter, and it hands over what it takes.
  | take htake =>
      rcases takeQueued?_eq_some.1 htake with ⟨l', rest, hl', hqueue, rfl⟩
      rw [hl'] at hl ⊢
      cases hl
      exact ⟨⟨hb.window, _, rfl, hterminated⟩, hqueue⟩
  | takeLoop => exact ⟨hb.takeLoop.1, hb.takeLoop.2.symm⟩
  | close =>
      simp only [hl, Native.update]
      exact ⟨⟨hb.window, _, rfl, hterminated⟩, rfl⟩
  | leave =>
      simp only [hl, Native.update]
      exact ⟨⟨hb.window, _, rfl, hterminated⟩, rfl⟩
  | terminateNative =>
      simp only [hl, Native.terminate, Native.update]
      exact ⟨⟨hb.window, _, rfl, rfl⟩, rfl⟩
  -- A window that is over stays over: `start` and `stop` move it from the other phases only.
  | mark =>
      refine ⟨⟨?_, l, hl, hterminated⟩, rfl⟩
      show b.window.phase.start = .terminated
      rw [hb.window]
      rfl
  | unmark =>
      refine ⟨⟨?_, l, hl, hterminated⟩, rfl⟩
      show b.window.phase.stop = .terminated
      rw [hb.window]
      rfl
  | terminate =>
      rw [List.nil_append, queue_terminate hl, hl]
      exact ⟨isFinal_terminate hl, rfl⟩

/-- By induction over the acts: a final bridge stays final, and its queue only gets shorter. -/
theorem Course.isFinal (h : b.Course fs b') (hb : b.IsFinal) :
    b'.IsFinal ∧ b.native.queue = fs ++ b'.native.queue := by
  induction h with
  | nil => exact ⟨hb, rfl⟩
  | snoc _ hact ih =>
      rcases ih with ⟨hfinal, hqueue⟩
      rcases hact.isFinal hfinal with ⟨hfinal', hqueue'⟩
      exact ⟨hfinal', by rw [hqueue, hqueue', List.append_assoc]⟩

/-! ## What is refused -/

namespace IsFinal

variable (hb : b.IsFinal)
include hb

/-- A draft stays with its caller. -/
theorem postDraft (slot : String) (f : Fragment) :
    Bridge.postDraft slot f b = (.error .invalidState, b) :=
  Attempt.bind_of_error (hb.postNative f)

/-- A script that dispatches is told so. -/
theorem schedule (source : String) :
    ∃ b', Request.schedule source b = (.error (.native .invalidState), b') ∧
      b'.native = b.native := by
  have hnew : (b.newFragment source).2.IsFinal := hb.congr rfl rfl
  have hpost := hnew.postNative ⟨source⟩
  unfold newFragment at hpost
  refine ⟨(b.newFragment source).2.dropFragment.note
    (.dispatchRefused source.utf8ByteSize .invalidState), ?_, rfl⟩
  unfold Request.schedule newFragment
  simp only [hpost]

/-- A script that dispatches is told so by a number. -/
theorem dispatch (source : String) :
    ∃ b', ApiFunction.dispatch.run [.text source] b = (.ok (ApiFunction.codeValue (-3)), b') ∧
      b'.native = b.native := by
  rcases hb.schedule source with ⟨b', hschedule, hnative⟩
  refine ⟨b', ?_, hnative⟩
  show ApiFunction.answered (Request.schedule source) b = _
  unfold ApiFunction.answered
  rw [hschedule]
  rfl

end IsFinal

end Bridge

/-! ## Events that come too late -/

section Events

variable {s : Session} (budget : Nat)

end Events

/-! ## Runs that come to their end -/

namespace Session

/-- The loop has been closed and left. -/
def left (s : Session) : Session :=
  { s with bridge.native := (s.bridge.native.update EventLoop.close).update EventLoop.leave }

/-- After that the window has been stopped. -/
def stopped (s : Session) : Session :=
  { s.left with bridge := s.left.bridge.stopWindow }

/-- The owner thread has stopped the window and ended. -/
def joined (s : Session) : Session :=
  { s.left with
    bridge := { { s.left.bridge with thread := .owner }.stopWindow with thread := .caller }
    spawned := false }

/-- The activity takes over the loop, or has its turn at it, and then serves the queue. The last
argument tells how it leaves a session behind. -/
inductive Enters : (Nat → Activity Bool) → Session → Session → (Session → Session) → Prop
  | run {s b} : s.bridge.startWindow = (true, b) →
      Enters Session.run s { s with bridge := b } stopped
  | runLoop {s b} : s.bridge.takeLoop = (true, b) →
      Enters Session.runLoop s { s with bridge := b } left
  | settle {s} : s.spawned = true →
      Enters Session.settle s { s with bridge.thread := .owner } joined

/-- The activity that has begun at `start` and is now at `s` is over once these fragments are worked
off, each of them once, and is over only then. -/
structure Finishes (x : Nat → Activity Bool) (start s : Session) (fs : List Fragment)
    (final : Session → Session) : Prop where
  only : ∀ budget ended s', x budget start = some (ended, s') →
    ended = true ∧ ∃ s₁, s.WorksOff fs s₁ ∧ s' = final s₁
  ends : ∀ s₁, s.WorksOff fs s₁ → ∃ budget, x budget start = some (true, final s₁)

end Session

section Loops

variable {budget : Nat} {b : Bridge} {s s₀ s₁ s' start : Session} {gs : List Fragment}

/-- There is nothing to take if the queue is empty, and only then. -/
theorem takeQueued_eq_none (hs : s.bridge.IsFinal) :
    s.bridge.takeQueued? = none ↔ s.bridge.native.queue = [] := by
  rcases hs.native with ⟨l, hl, _⟩
  rw [hl]
  show s.bridge.takeQueued? = none ↔ l.queue = []
  rw [← EventLoop.next?_eq_none]
  simp only [Bridge.takeQueued?, hl, Option.map_eq_none_iff]

/-- A loop that is terminated and has nothing left is closed and left. -/
theorem shutDown_of_empty (hs : s.bridge.IsFinal) (hempty : s.bridge.takeQueued? = none) :
    Session.shutDown budget s = some ((), s.left) := by
  have hclosed := Bridge.Act.close.isFinal hs
  have hnone := (takeQueued_eq_none (s := { s with bridge.native := _ }) hclosed.1).2
    (hclosed.2.symm.trans ((takeQueued_eq_none hs).1 hempty))
  unfold Session.shutDown
  refine (Activity.bind_of_some rfl).trans ?_
  refine (Activity.bind_of_some (pump_of_none hnone)).trans ?_
  rfl

/-- The owner leaves once the queue has been worked off. -/
theorem serve_of_pump {count : Nat} (hpump : Session.pump budget budget s = some (count, s₁))
    (hs : s₁.bridge.IsFinal) (hempty : s₁.bridge.takeQueued? = none) :
    Session.serve budget s = some (true, s₁.left) := by
  have hget : (get : Activity Session) s₁ = some (s₁, s₁) := rfl
  unfold Session.serve
  refine (Activity.bind_of_some hpump).trans ((Activity.bind_of_some hget).trans ?_)
  rw [if_pos hs.isTerminated]
  exact Activity.bind_of_some (shutDown_of_empty hs hempty)

/-- Whoever serves the queue of a loop that has been terminated in the meantime works off what is
left in it. -/
theorem serve_finishes (h : s₀.WorksOff gs s) (hs : s.bridge.IsFinal) :
    Session.Finishes Session.serve s₀ s s.bridge.native.queue Session.left := by
  have hend {fs : List Fragment} {s₁ : Session} (hfs : s.WorksOff fs s₁) :
      s₁.bridge.IsFinal ∧ s.bridge.native.queue = fs ++ s₁.bridge.native.queue :=
    hfs.course.isFinal hs
  constructor
  · intro budget ended s' hserve
    unfold Session.serve at hserve
    rcases Activity.bind_eq_some hserve with ⟨count, s₁, hpump, _⟩
    rcases pump_worksOff hpump with ⟨all, hall, hempty⟩
    rcases h.split hall hempty with ⟨rest, rfl, hrest⟩
    rcases hend hrest with ⟨hfinal, hqueue⟩
    rw [(takeQueued_eq_none hfinal).1 hempty, List.append_nil] at hqueue
    have hover := serve_of_pump hpump hfinal hempty
    unfold Session.serve at hover
    cases hserve.symm.trans hover
    exact ⟨rfl, s₁, hqueue ▸ hrest, rfl⟩
  · intro s₁ hfs
    rcases hend hfs with ⟨hfinal, hqueue⟩
    have hempty := (takeQueued_eq_none hfinal).2 (List.append_right_eq_self.1 hqueue.symm)
    rcases (h.append hfs).pump hempty with ⟨least, hleast⟩
    -- the budget bounds the instructions and the fragments alike
    let budget := max least (gs ++ s.bridge.native.queue).length
    have hpump := hleast budget budget (Nat.le_max_left _ _) (Nat.le_max_right _ _)
    exact ⟨budget, serve_of_pump hpump hfinal hempty⟩

/-- What serves the queue and does something afterwards finishes together with it. -/
theorem Session.Finishes.after {x : Nat → Activity Bool} {fs : List Fragment}
    {f : Session → Session} (h : Finishes Session.serve s₀ s fs f) (g : Session → Session)
    (otherwise : Session → Option (Bool × Session))
    (hx : ∀ budget, x budget start = (Session.serve budget s₀).bind fun r =>
      if r.1 = true then some (true, g r.2) else otherwise r.2) :
    Finishes x start s fs (g ∘ f) := by
  constructor
  · intro budget ended s' hrun
    rw [hx] at hrun
    rcases Option.bind_eq_some_iff.1 hrun with ⟨⟨r, s₂⟩, hserve, hthen⟩
    rcases h.only budget r s₂ hserve with ⟨rfl, s₁, hfs, rfl⟩
    cases hthen
    exact ⟨rfl, s₁, hfs, rfl⟩
  · intro s₁ hfs
    rcases h.ends s₁ hfs with ⟨budget, hserve⟩
    refine ⟨budget, (hx budget).trans ?_⟩
    rw [hserve]
    rfl

/-! ### Ways to enter the loop -/

/-- On the calling thread a turn that leaves something to wait for is never over. -/
theorem run_of_start (hstart : start.bridge.startWindow = (true, b)) :
    Session.run budget start = (Session.serve budget { start with bridge := b }).bind fun r =>
      if r.1 = true then some (true, { r.2 with bridge := r.2.bridge.stopWindow }) else none := by
  have hfirst : Session.onBridge Bridge.startWindow start =
      some (true, { start with bridge := b }) := by
    simp only [Session.onBridge, hstart]
  unfold Session.run Session.serveToEnd
  refine (Activity.bind_of_some hfirst).trans ?_
  show ((Session.serve budget { start with bridge := b }).bind _).bind _ = _
  rcases Session.serve budget { start with bridge := b } with _ | ⟨_ | _, s'⟩ <;> rfl

/-- The loop of the native side alone is left without a word to the window. -/
theorem runLoop_of_take (htake : start.bridge.takeLoop = (true, b)) :
    Session.runLoop budget start = (Session.serve budget { start with bridge := b }).bind fun r =>
      if r.1 = true then some (true, r.2) else none := by
  have hfirst : Session.onBridge Bridge.takeLoop start =
      some (true, { start with bridge := b }) := by
    simp only [Session.onBridge, htake]
  unfold Session.runLoop Session.serveToEnd
  refine (Activity.bind_of_some hfirst).trans ?_
  show ((Session.serve budget { start with bridge := b }).bind _).bind _ = _
  rcases Session.serve budget { start with bridge := b } with _ | ⟨_ | _, s'⟩ <;> rfl

/-- The owner thread has its turn, and brings the window to rest if it has ended. -/
theorem settle_of_spawned (hspawned : start.spawned = true) :
    Session.settle budget start =
      (Session.serve budget { start with bridge.thread := .owner }).bind fun r =>
        if r.1 = true then
          some (true, { r.2 with
            bridge := { { r.2.bridge with thread := .owner }.stopWindow with thread := .caller }
            spawned := false })
        else
          some (false, { r.2 with bridge.thread := .caller }) := by
  have hget : (get : Activity Session) start = some (start, start) := rfl
  unfold Session.settle Session.asOwner
  refine (Activity.bind_of_some hget).trans ?_
  rw [if_pos hspawned]
  show ((Session.serve budget { start with bridge.thread := .owner }).bind _).bind _ = _
  rcases Session.serve budget { start with bridge.thread := .owner } with _ | ⟨_ | _, s'⟩ <;> rfl

/-- However the loop is entered, what is left of the queue is worked off. -/
theorem Session.Enters.finishes {x : Nat → Activity Bool} {final : Session → Session}
    (henters : Enters x start s₀ final) (h : s₀.WorksOff gs s) (hs : s.bridge.IsFinal) :
    Finishes x start s s.bridge.native.queue final := by
  have hserve := serve_finishes h hs
  cases henters with
  | run hstart =>
      exact hserve.after (fun s => { s with bridge := s.bridge.stopWindow }) (fun _ => none)
        fun _ => run_of_start hstart
  | runLoop htake => exact hserve.after id (fun _ => none) fun _ => runLoop_of_take htake
  | settle hspawned =>
      exact hserve.after
        (fun s => { s with
          bridge := { { s.bridge with thread := .owner }.stopWindow with thread := .caller }
          spawned := false })
        (fun s => some (false, { s with bridge.thread := .caller }))
        fun _ => settle_of_spawned hspawned

end Loops

/-! ## Sessions and scripts go along courses -/

/-- Every session that is reached has come along a course. -/
theorem Session.Reached.course {s s' : Session} (h : s.Reached s') :
    ∃ fs, s.bridge.Course fs s'.bridge := by
  induction h with
  | refl => exact ⟨[], .nil⟩
  | step _ hperform ih =>
      rcases ih with ⟨fs, hcourse⟩
      rcases comes_leads _ _ _ () _ hperform with ⟨gs, hcourse'⟩
      exact ⟨fs ++ gs, hcourse.trans hcourse'⟩

/-- A script takes nothing from the queue, up to any step of it. -/
theorem course_execution {vm : Vm Builtin} {b : Bridge} {m : Hosted Builtin Bridge}
    (h : Execution Builtin.run ⟨vm, b⟩ m) : b.Course [] m.host :=
  execution_leads Bridge.path_silent h

section Turns

variable {ρ : Type} {c c' : Scene ρ} {e : LoopEvent ρ} {events : List (LoopEvent ρ)}

/-- No post is under way at a terminated loop. -/
structure Scene.IsFinal (c : Scene ρ) : Prop where
  terminated : c.loop.isTerminated = true
  sending : c.sending = []

/-- Turns of other threads keep a scene final and accept nothing. -/
theorem Turn.isFinal (h : Turn c e c') (hc : c.IsFinal) :
    c'.IsFinal ∧ e.accepted? = none ∧ c.loop.queue = e.handed?.toList ++ c'.loop.queue := by
  have hnone {r : ρ} {before after : List ρ} (h : c.sending = before ++ r :: after) : False := by
    rw [hc.sending] at h
    simp at h
  cases h with
  | allow hopen =>
      rw [EventLoop.isOpen_eq_false.2 (.inr hc.terminated)] at hopen
      cases hopen
  | accept hsending => exact (hnone hsending).elim
  | cancel hsending => exact (hnone hsending).elim
  | terminate => exact ⟨⟨rfl, hc.sending⟩, rfl, rfl⟩
  -- The loop may be entered once more, to work off its queue.
  | enter henter =>
      rcases EventLoop.enter?_eq_some.1 henter with ⟨_, rfl⟩
      have hphase : c.loop.phase = .terminated := beq_iff_eq.1 hc.terminated
      refine ⟨⟨?_, hc.sending⟩, rfl, rfl⟩
      show (c.loop.phase.start == .terminated) = true
      rw [hphase]
      rfl
  | hand _ hnext =>
      rcases EventLoop.next?_eq_some.1 hnext with ⟨hqueue, hl⟩
      rw [hl]
      exact ⟨⟨hc.terminated, hc.sending⟩, rfl, hqueue⟩
  | _ => exact ⟨⟨hc.terminated, hc.sending⟩, rfl, rfl⟩

/-- So do any number of turns, and what was in the queue is handed over in order. -/
theorem Turns.isFinal (h : Turns c events c') (hc : c.IsFinal) :
    c'.IsFinal ∧ acceptedIn events = [] ∧
      c.loop.queue = handedIn events ++ c'.loop.queue := by
  induction h with
  | nil => exact ⟨hc, rfl, rfl⟩
  | snoc _ hturn ih =>
      rcases ih with ⟨hfinal, haccepted, hqueue⟩
      rcases hturn.isFinal hfinal with ⟨hfinal', haccepted', hqueue'⟩
      refine ⟨hfinal', ?_, ?_⟩
      · rw [acceptedIn_concat, haccepted, haccepted']
        rfl
      · rw [hqueue, hqueue', handedIn_concat, List.append_assoc]

end Turns

/-! ## The law -/

end Host
end ScriptHost
