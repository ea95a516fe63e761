import ScriptHost.Proofs.Courses
import ScriptHost.Proofs.LoopTurns

/-!
# Sessions take turns

A session runs the loop step by step, with scripts in between that may post, terminate or try to run
the loop once more. Whatever is done with it, the loop under the window has taken turns, and between
two operations it either has no owner or is served by the thread of the window. So the law of the
loop holds for every session that begins with a new one.
-/

namespace ScriptHost
namespace Host

open Script Machine

variable {p q : Stage Fragment} {b b₁ b₂ : Bridge}

theorem Turns.trans {ρ : Type} {c c₁ c₂ : Scene ρ} {events events' : List (LoopEvent ρ)}
    (h : Turns c events c₁) (h' : Turns c₁ events' c₂) : Turns c (events ++ events') c₂ := by
  induction h' with
  | nil => rwa [List.append_nil]
  | snoc _ hturn ih =>
      rw [← List.append_assoc]
      exact ih.snoc hturn

/-- Turns keep what always holds, wherever they begin. -/
theorem Turns.sound_of_sound {ρ : Type} {capacity : Nat} {c c' : Scene ρ}
    {events : List (LoopEvent ρ)} (h : Turns c events c') (hc : c.Sound capacity) :
    c'.Sound capacity := by
  induction h with
  | nil => exact hc
  | snoc _ hturn ih => exact hturn.sound ih

/-! ## Turns of a running thread -/

/-- The loop under the first bridge becomes that under the second one by turns that leave its owner
where it is. -/
def Bridge.Passes (p : Stage Fragment) (b b₁ : Bridge) : Prop :=
  ∀ l, b.native = .headless l → ∃ events l', Turns ⟨l, p, []⟩ events ⟨l', p, []⟩ ∧
    b₁.native = .headless l'

namespace Bridge.Passes

/-- A bridge passes if its native side is the same. -/
theorem of_native (h : b₁.native = b.native) : b.Passes p b₁ :=
  fun l hl => ⟨[], l, .nil, h.trans hl⟩

theorem trans (h : b.Passes p b₁) (h' : b₁.Passes p b₂) : b.Passes p b₂ := by
  intro l hl
  rcases h l hl with ⟨events, l₁, hturns, hl₁⟩
  rcases h' l₁ hl₁ with ⟨events', l₂, hturns', hl₂⟩
  exact ⟨events ++ events', l₂, hturns.trans hturns', hl₂⟩

/-- What concerns neither the queue nor the owner may happen at any stage. -/
theorem of_aside (h : b.native.Aside b₁.native) : b.Passes p b₁ := by
  intro l hl
  rcases h l hl with ⟨l', hl', bindings, pending, results, rfl⟩
  exact ⟨_, _, .snoc .nil .aside, hl'⟩

/-- Anyone may tell the loop to end. -/
theorem terminateNative (h : b₁.native = b.native.terminate) : b.Passes p b₁ := by
  intro l hl
  rw [hl] at h
  exact ⟨_, l.terminate, .snoc .nil .terminate, h⟩

/-- A post that nobody interrupts. -/
theorem postNative (f : Fragment) : b.Passes p (Bridge.postNative f b).2 := by
  intro l hl
  cases hpost : l.post f with
  | ok l' =>
      refine ⟨_, l', turns_of_post_ok hpost, ?_⟩
      simp only [Bridge.postNative, hl, Native.post, Native.attempt, hpost]
      rfl
  | error e =>
      rcases turns_of_post_error (c := ⟨l, p, []⟩) hpost with ⟨events, hturns⟩
      refine ⟨_, l, hturns, ?_⟩
      simp only [Bridge.postNative, hl, Native.post, Native.attempt, hpost]
      exact hl

end Bridge.Passes

/-- What scripts and callers do are turns of other threads. -/
theorem allowsCalls_passes (p : Stage Fragment) : Bridge.AllowsCalls (Bridge.Passes p) where
  trans := .trans
  elsewhere _ hnative := .of_native hnative
  bindNative b x name := .of_aside (b.aside_bindNative x name)
  unbindNative b name := .of_aside (b.aside_unbindNative name)
  postNative _ f := .postNative f
  resolveNative b id result := .of_aside (b.aside_resolveNative id result)
  terminateNative _ := .terminateNative rfl
  mark _ := .of_native rfl
  unmark _ := .of_native rfl
  terminate _ := .terminateNative rfl
  expectResult b id := .of_aside (b.aside_expectResult id)
  takeResult b id := .of_aside (b.aside_takeResult id)

/-! ## Activities -/

/-- The owner is at a stage of its own, no post has been interrupted, and the thread of the window
is there or not. -/
structure At (thread : Bool) (p : Stage Fragment) (spawned : Bool) (c : Scene Fragment) : Prop where
  spawned : spawned = thread
  stage : c.stage = p
  sending : c.sending = []

/-- From a sound scene of the loop under the session, the activity goes on to another one by
turns, if it is over. -/
def Carries {α : Type} (pre : Bool → Scene Fragment → Prop) (x : Activity α)
    (post : α → Bool → Scene Fragment → Prop) : Prop :=
  ∀ capacity s c, c.Sound capacity → s.bridge.native = .headless c.loop → pre s.spawned c →
    ∀ a s', x s = some (a, s') → ∃ events c', Turns c events c' ∧
      s'.bridge.native = .headless c'.loop ∧ post a s'.spawned c'

namespace Carries

variable {α β : Type} {pre pre' : Bool → Scene Fragment → Prop}
variable {post : α → Bool → Scene Fragment → Prop} {post' : β → Bool → Scene Fragment → Prop}
variable {x : Activity α} {f : α → Activity β} {thread : Bool}

/-- Nothing is done, so what holds before holds after. -/
theorem pure {a : α} (h : ∀ spawned c, pre spawned c → post a spawned c) :
    Carries pre (pure a) post := by
  intro capacity s c _ hs hc a' s' hrun
  cases hrun
  exact ⟨[], c, .nil, hs, h _ c hc⟩

/-- One activity after the other. -/
theorem bind (hx : Carries pre x post) (hf : ∀ a, Carries (post a) (f a) post') :
    Carries pre (x >>= f) post' := by
  intro capacity s c hsound hs hc b s' hrun
  rcases Activity.bind_eq_some hrun with ⟨a, s₁, hfirst, hthen⟩
  rcases hx capacity s c hsound hs hc a s₁ hfirst with ⟨events, c₁, hturns, hs₁, hc₁⟩
  rcases hf a capacity s₁ c₁ (hturns.sound_of_sound hsound) hs₁ hc₁ b s' hthen with
    ⟨events', c', hturns', hs', hc'⟩
  exact ⟨events ++ events', c', hturns.trans hturns', hs', hc'⟩

/-- An activity that is never over carries anything. -/
theorem unfinished : Carries pre (Session.unfinished : Activity α) post := by
  intro capacity s c _ _ _ a s' hrun
  cases hrun

/-- Whoever looks at the session sees the loop of the scene. -/
theorem get :
    Carries pre (get : Activity Session)
      fun s spawned c => pre spawned c ∧ spawned = s.spawned ∧
        s.bridge.native = .headless c.loop := by
  intro capacity s c _ hs hc a s' hrun
  cases hrun
  exact ⟨[], c, .nil, hs, hc, rfl, hs⟩

theorem weaken (hx : Carries pre x post) (h : ∀ spawned c, pre' spawned c → pre spawned c) :
    Carries pre' x post :=
  fun capacity s c hsound hs hc => hx capacity s c hsound hs (h _ c hc)

theorem widen {final : α → Bool → Scene Fragment → Prop} (hx : Carries pre x post)
    (h : ∀ a spawned c, post a spawned c → final a spawned c) : Carries pre x final := by
  intro capacity s c hsound hs hc a s' hrun
  rcases hx capacity s c hsound hs hc a s' hrun with ⟨events, c', hturns, hs', hc'⟩
  exact ⟨events, c', hturns, hs', h _ _ _ hc'⟩

/-- What is known without the state. -/
theorem assuming {known : Prop} (hx : known → Carries pre x post) :
    Carries (fun spawned c => known ∧ pre spawned c) x post :=
  fun capacity s c hsound hs hc => hx hc.1 capacity s c hsound hs hc.2

/-- The owner may move on before the activity. -/
theorem move (h : ∀ spawned c, pre spawned c → spawned = thread ∧ c.sending = [] ∧
    Moves c.loop c.stage q) (hx : Carries (At thread q) x post) : Carries pre x post := by
  intro capacity s c hsound hs hc a s' hrun
  rcases h s.spawned c hc with ⟨hspawned, hsending, hmoves⟩
  have hmove : Turn c .other { c with stage := q } := .move hmoves
  rcases hx capacity s _ (hmove.sound hsound) hs ⟨hspawned, rfl, hsending⟩ a s' hrun with
    ⟨events, c', hturns, hs', hc'⟩
  exact ⟨[.other] ++ events, c', (Turns.snoc .nil hmove).trans hturns, hs', hc'⟩

/-- Whatever leaves the owner where it is. -/
theorem along (h : Along (Bridge.Passes p) x) : Carries (At thread p) x fun _ => At thread p := by
  intro capacity s ⟨l, stage, sending⟩ _ hs hc a s' hrun
  rcases hc with ⟨hspawned, rfl, rfl⟩
  rcases h s a s' hrun with ⟨hpasses, hsame⟩
  rcases hpasses l hs with ⟨events, l', hturns, hl'⟩
  exact ⟨events, _, hturns, hl', hsame.trans hspawned, rfl, rfl⟩

theorem updateBridge {g : Bridge → Bridge} (h : ∀ b : Bridge, (g b).native = b.native) :
    Carries pre (Session.updateBridge g) fun _ => pre := by
  intro capacity s c _ hs hc a s' hrun
  cases hrun
  exact ⟨[], c, .nil, (h s.bridge).trans hs, hc⟩

/-- A notice does not concern the loop. -/
theorem note (n : Notice) : Carries pre (Session.note n) fun _ => pre :=
  updateBridge fun _ => rfl

/-- The thread of the window is there from now on, or no more. -/
theorem setSpawned (after : Bool) :
    Carries (At thread p) (modify fun s => { s with spawned := after }) fun _ => At after p := by
  intro capacity s c _ hs hc a s' hrun
  cases hrun
  exact ⟨[], c, .nil, hs, rfl, hc.stage, hc.sending⟩

theorem ignoring {final : Bool → Scene Fragment → Prop} (hx : Carries pre x fun _ => final) :
    Carries pre (Session.ignoring x) fun _ => final :=
  .bind hx fun _ => .pure fun _ _ hc => hc

/-- Which thread is at work makes no difference to the loop. -/
theorem asOwner (hx : Carries pre x post) : Carries pre (Session.asOwner x) post := by
  refine .bind (updateBridge fun _ => rfl) fun _ => .bind hx fun a => ?_
  exact .bind (updateBridge fun _ => rfl) fun _ => .pure fun _ _ hc => hc

/-- Something that is done to the loop in one turn. -/
theorem onLoop {g : EventLoop Fragment → EventLoop Fragment} {e : LoopEvent Fragment}
    (h : ∀ l, Turn ⟨l, p, []⟩ e ⟨g l, q, []⟩) :
    Carries (At thread p)
      (Session.updateBridge fun b => { b with native := b.native.update g })
      fun _ => At thread q := by
  intro capacity s ⟨l, stage, sending⟩ _ hs hc a s' hrun
  rcases hc with ⟨hspawned, rfl, rfl⟩
  cases hrun
  refine ⟨_, _, .snoc .nil (h l), ?_, hspawned, rfl, rfl⟩
  simp only [hs, Native.update]

/-- A loop stays closed. -/
theorem closed (hx : Carries pre x post) :
    Carries (fun spawned c => pre spawned c ∧ c.loop.closed = true) x
      fun a spawned c => post a spawned c ∧ c.loop.closed = true := by
  intro capacity s c hsound hs hc a s' hrun
  rcases hx capacity s c hsound hs hc.1 a s' hrun with ⟨events, c', hturns, hs', hc'⟩
  exact ⟨events, c', hturns, hs', hc', hturns.closed hc.2⟩

end Carries

/-! ## Fragments -/

/-- Taking a fragment hands it over; if there is none the owner goes on elsewhere. -/
theorem carries_takeQueued {run : Fragment → Stage Fragment} {thread : Bool}
    (hhands : ∀ f, Hands f p (run f))
    (hempty : ∀ l : EventLoop Fragment, l.next? = none → Moves l p q) :
    Carries (At thread p) (Session.takeUp Bridge.takeQueued?)
      fun
        | none => At thread q
        | some f => At thread (run f) := by
  intro capacity s ⟨l, stage, sending⟩ _ hs hc a s' hrun
  rcases hc with ⟨hspawned, rfl, rfl⟩
  -- With nothing to take, the thread goes on to what comes next; else the fragment is in its hands.
  cases hnext : l.next? with
  | none =>
      simp only [Session.takeUp, Session.onBridge, Bridge.takeQueued?, hs, hnext] at hrun
      cases hrun
      exact ⟨_, _, .snoc .nil (.move (hempty l hnext)), hs, hspawned, rfl, rfl⟩
  | some taken =>
      rcases taken with ⟨f, l'⟩
      simp only [Session.takeUp, Session.onBridge, Bridge.takeQueued?, hs, hnext] at hrun
      cases hrun
      exact ⟨_, _, .snoc .nil (.hand (hhands f) hnext), rfl, hspawned, rfl, rfl⟩

/-- The fragments of the queue are run one after another until none is left. -/
theorem carries_pump {run : Fragment → Stage Fragment} {thread : Bool}
    (hhands : ∀ f, Hands f p (run f)) (hfinish : ∀ l f, Moves l (run f) p)
    (hempty : ∀ l : EventLoop Fragment, l.next? = none → Moves l p q) (budget n : Nat) :
    Carries (At thread p) (Session.pump budget n) fun _ => At thread q := by
  induction n with
  | zero =>
      unfold Session.pump
      refine .bind (carries_takeQueued hhands hempty) fun taken => ?_
      cases taken with
      | none => exact .pure fun _ _ hc => hc
      | some f => exact .unfinished
  | succ n ih =>
      unfold Session.pump
      refine .bind (carries_takeQueued hhands hempty) fun taken => ?_
      cases taken with
      | none => exact .pure fun _ _ hc => hc
      | some f =>
          -- the thread stays where it runs the fragment, whatever that posts
          have hcalls := allowsCalls_passes (run f)
          refine .bind (.along (along_runFragment hcalls.toAllows budget f)) fun _ => ?_
          have hrest : Carries (At thread p)
              (do let count ← Session.pump budget n; return count + 1) fun _ => At thread q :=
            .bind ih fun count => .pure fun _ _ hc => hc
          refine hrest.move fun spawned c hc => ⟨hc.spawned, hc.sending, ?_⟩
          rw [hc.stage]
          exact hfinish c.loop f

/-! ## The loop of a session -/

section Loops

variable {thread : Bool} (budget : Nat)

/-- The owner has left the loop, and closed it before. -/
def Gone (thread : Bool) (spawned : Bool) (c : Scene Fragment) : Prop :=
  At thread .away spawned c ∧ c.loop.closed = true

/-- The owner closes the queue, empties it and leaves. -/
theorem carries_shutDown :
    Carries (At thread .closing) (Session.shutDown budget) fun _ => Gone thread := by
  have hclose : Carries (At thread .closing)
      (Session.updateBridge fun b => { b with native := b.native.update EventLoop.close })
      fun _ spawned c => At thread .draining spawned c ∧ c.loop.closed = true := by
    intro capacity s ⟨l, stage, sending⟩ _ hs hc a s' hrun
    rcases hc with ⟨hspawned, rfl, rfl⟩
    cases hrun
    refine ⟨_, _, .snoc .nil (.close rfl rfl), ?_, ⟨hspawned, rfl, rfl⟩, rfl⟩
    simp only [hs, Native.update]
  have hdrain : Carries (At thread .draining) (Session.pump budget budget)
      fun _ => At thread .leaving :=
    carries_pump (fun _ => .drain) (fun _ _ => .drained) (fun _ => .exhaust) budget budget
  have hleave : Carries (At thread .leaving)
      (Session.updateBridge fun b => { b with native := b.native.update EventLoop.leave })
      fun _ => At thread .away :=
    .onLoop fun _ => .leave rfl
  unfold Session.shutDown
  -- Close, then drain, then leave; the note on what was drained touches neither the loop nor its
  -- thread.
  refine .bind hclose fun _ => .bind hdrain.closed fun count => ?_
  dsimp only
  split
  · exact .bind (.note _) fun _ => hleave.closed
  · exact hleave.closed

/-- Where the loop is when it has been served: left for good, or waiting for more. -/
def Served (thread : Bool) : Bool → Bool → Scene Fragment → Prop
  | true => Gone thread
  | false => At thread .waiting

/-- The owner serves until it waits, or has left. -/
theorem carries_serve :
    Carries (At thread .serving) (Session.serve budget) (Served thread) := by
  have hpump : Carries (At thread .serving) (Session.pump budget budget)
      fun _ => At thread .checking :=
    carries_pump (fun _ => .take) (fun _ _ => .finish) (fun _ => .check) budget budget
  unfold Session.serve
  refine .bind hpump fun count => .bind .get fun s => ?_
  -- What the loop is told decides: a check that finds it terminated shuts it down, any other waits.
  split
  · rename_i hterminated
    have hstop : Carries (At thread .closing)
        (do Session.shutDown budget; return true) (Served thread) :=
      .bind (carries_shutDown budget) fun _ => .pure fun _ _ hc => hc
    refine hstop.move ?_
    rintro spawned c ⟨hc, -, hs⟩
    rw [hs] at hterminated
    exact ⟨hc.spawned, hc.sending, hc.stage ▸ .stop hterminated⟩
  · rename_i hterminated
    have hwait : Carries (At thread .waiting) (pure false) (Served thread) :=
      .pure fun _ _ hc => hc
    refine hwait.move ?_
    rintro spawned c ⟨hc, -, hs⟩
    rw [hs] at hterminated
    exact ⟨hc.spawned, hc.sending, hc.stage ▸ .wait (Bool.not_eq_true _ ▸ hterminated)⟩

/-- On the calling thread there is nothing to wait for. -/
theorem carries_serveToEnd :
    Carries (At thread .serving) (Session.serveToEnd budget) fun _ => Gone thread := by
  unfold Session.serveToEnd
  refine .bind (carries_serve budget) fun ended => ?_
  cases ended with
  | true => exact .pure fun _ _ hc => hc
  | false => exact .unfinished

/-- What becomes of the owner when somebody asks for the loop: nobody had it, or nothing. -/
def Asked (thread : Bool) (p : Stage Fragment) : Bool → Bool → Scene Fragment → Prop
  | true, spawned, c => p = .away ∧ At thread .serving spawned c
  | false, spawned, c => At thread p spawned c

/-- Whoever asks for the loop gets it if it is free, and is turned away otherwise. -/
theorem carries_ask {ask : Bridge → Bool × Bridge}
    (h : ∀ b, ask b = (false, b) ∨ ∃ b' : Bridge, b'.native = b.native ∧ ask b = b'.takeLoop) :
    Carries (At thread p) (Session.onBridge ask) (Asked thread p) := by
  intro capacity s ⟨l, stage, sending⟩ hsound hs hc a s' hrun
  rcases hc with ⟨hspawned, rfl, rfl⟩
  rcases h s.bridge with hask | ⟨b, hb, hask⟩
  · simp only [Session.onBridge, hask] at hrun
    cases hrun
    exact ⟨[], _, .nil, hs, hspawned, rfl, rfl⟩
  · have hnative := hb.trans hs
    cases henter : l.enter? with
    | none =>
        simp only [Session.onBridge, hask, Bridge.takeLoop, hnative, henter] at hrun
        cases hrun
        exact ⟨_, _, .snoc .nil (.turnAway henter), hnative, hspawned, rfl, rfl⟩
    | some l' =>
        simp only [Session.onBridge, hask, Bridge.takeLoop, hnative, henter] at hrun
        cases hrun
        -- only a loop without an owner is taken over
        have hfree : stage = .away := hsound.owned.1 (EventLoop.enter?_eq_some.1 henter).1
        exact ⟨_, _, .snoc .nil (.enter henter), rfl, hfree, hspawned, rfl, rfl⟩

theorem carries_startWindow :
    Carries (At thread p) (Session.onBridge Bridge.startWindow) (Asked thread p) :=
  carries_ask fun b => .inr ⟨b.markWindow.2.note .loopStarted, rfl, rfl⟩

/-- Where the owner is after a run on the calling thread, which may have been turned away. -/
def Ran (thread : Bool) (p : Stage Fragment) : Bool → Bool → Scene Fragment → Prop
  | true, spawned, c => p = .away ∧ Gone thread spawned c
  | false, spawned, c => At thread p spawned c

/-- A run on the calling thread is over as a whole or has been turned away. -/
theorem carries_runLoop : Carries (At thread p) (Session.runLoop budget) (Ran thread p) := by
  unfold Session.runLoop
  refine .bind (carries_ask fun b => .inr ⟨b, rfl, rfl⟩) fun started => ?_
  cases started with
  | true =>
      refine .assuming fun haway => ?_
      exact .bind (carries_serveToEnd budget) fun _ => .pure fun _ _ hc => ⟨haway, hc⟩
  | false => exact .pure fun _ _ hc => hc

/-- A run of the window treats the loop in the same way. -/
theorem carries_run : Carries (At thread p) (Session.run budget) (Ran thread p) := by
  unfold Session.run
  refine .bind carries_startWindow fun started => ?_
  cases started with
  | true =>
      refine .assuming fun haway => .bind (carries_serveToEnd budget) fun _ => ?_
      exact .bind (.updateBridge fun _ => rfl) fun _ => .pure fun _ _ hc => ⟨haway, hc⟩
  | false => exact .pure fun _ _ hc => hc

end Loops

/-! ## Between two operations -/

/-- Nobody runs the loop, or the thread of the window does and has nothing else in hand. -/
inductive Stage.Rests : Bool → Stage Fragment → Prop
  | away : Rests false .away
  | serving : Rests true .serving
  | waiting : Rests true .waiting

/-- Between two operations no post is under way either. -/
def Scene.Rests (spawned : Bool) (c : Scene Fragment) : Prop :=
  c.stage.Rests spawned ∧ c.sending = []

section Operations

variable {α : Type} {x : Activity α} {post : α → Bool → Scene Fragment → Prop} (budget : Nat)

/-- An operation may begin wherever the loop rests. -/
theorem Carries.rests
    (hx : ∀ thread p, Stage.Rests thread p → Carries (At thread p) x post) :
    Carries Scene.Rests x post := by
  intro capacity s c hsound hs hc
  exact hx s.spawned c.stage hc.1 capacity s c hsound hs ⟨rfl, rfl, hc.2⟩

theorem At.rests {thread spawned : Bool} {c : Scene Fragment} (hp : p.Rests thread)
    (hc : At thread p spawned c) : c.Rests spawned := by
  rcases hc with ⟨rfl, rfl, hsending⟩
  exact ⟨hp, hsending⟩

/-- Whoever has run the loop has found nobody there, and leaves nobody behind. -/
theorem Ran.rests {thread ran spawned : Bool} {c : Scene Fragment} (hp : p.Rests thread)
    (hc : Ran thread p ran spawned c) : c.Rests spawned := by
  cases ran with
  | true =>
      rcases hc with ⟨rfl, hc, _⟩
      exact hc.rests hp
  | false => exact At.rests hp hc

/-- A new thread takes the loop over and goes to its place, or ends. -/
theorem carries_wake : Carries Scene.Rests Session.wake fun _ => Scene.Rests := by
  refine .rests fun thread p hp => ?_
  have hask : Carries (At thread p) (Session.onBridge Bridge.wakeThread) (Asked thread p) := by
    refine carries_ask fun b => ?_
    rcases b.wakeThread_cases with h | ⟨n, _, h⟩
    · exact .inl h
    · exact .inr ⟨({ b with waiting := n } : Bridge).markWindow.2.note .loopStarted, rfl, h⟩
  unfold Session.wake
  refine .bind hask.asOwner fun started => ?_
  cases started with
  | true =>
      refine .assuming fun _ => .bind (.setSpawned true) fun _ => ?_
      exact .pure fun _ _ hc => hc.rests .serving
  | false => exact .pure fun _ _ hc => At.rests hp hc

/-- The owner thread waits again after its turn, or has left. -/
theorem carries_settle : Carries Scene.Rests (Session.settle budget) fun _ => Scene.Rests := by
  have hserve : Carries (fun spawned c => c.Rests spawned ∧ spawned = true)
      (Session.serve budget) (Served true) := by
    intro capacity s c hsound hs ⟨⟨hrests, hsending⟩, hspawned⟩
    rw [hspawned] at hrests
    generalize hp : c.stage = p at hrests
    have hc : At true p s.spawned c := ⟨hspawned, hp, hsending⟩
    -- a loop that waits looks at its queue again
    cases hrests with
    | serving => exact carries_serve budget capacity s c hsound hs hc
    | waiting =>
        have hlook : Carries (At true .waiting) (Session.serve budget) (Served true) :=
          (carries_serve budget).move fun _ _ hc => ⟨hc.spawned, hc.sending, hc.stage ▸ .wake⟩
        exact hlook capacity s c hsound hs hc
  unfold Session.settle
  refine .bind .get fun s => ?_
  dsimp only
  split
  · rename_i hs
    refine .bind (hserve.asOwner.weaken fun _ _ hc => ⟨hc.1, hc.2.1.trans hs⟩) fun ended => ?_
    cases ended with
    | true =>
        refine .bind (.asOwner (.updateBridge fun _ => rfl)) fun _ => ?_
        have hend : Carries (Gone true) (modify fun s => { s with spawned := false })
            fun _ => At false .away :=
          (Carries.setSpawned false).weaken fun _ _ hc => hc.1
        exact .bind hend fun _ => .pure fun _ _ hc => hc.rests .away
    | false => exact .pure fun _ _ hc => At.rests .waiting hc
  · exact .pure fun _ _ hc => hc.1

/-- Operations that do not run the loop leave its owner where it is. -/
theorem carries_of_not_runsLoop {op : Operation} (hloop : ¬ op.RunsLoop) :
    Carries Scene.Rests (op.perform budget) fun _ => Scene.Rests := by
  refine .rests fun thread p hp => ?_
  have hstays := along_calls (allowsCalls_passes p) budget hloop
  exact (Carries.along hstays).widen fun _ _ _ hc => hc.rests hp

/-- An operation that is over, whoever does it, has let the loop take turns, and leaves its owner as
it may be between two operations. -/
theorem carries_perform (op : Operation) :
    Carries Scene.Rests (op.perform budget) fun _ => Scene.Rests := by
  induction op with
  | run =>
      refine .ignoring (.rests fun thread p hp => ?_)
      exact (carries_run budget).widen fun _ _ _ hc => Ran.rests hp hc
  | runLoop =>
      refine .ignoring (.rests fun thread p hp => ?_)
      exact (carries_runLoop budget).widen fun _ _ _ hc => Ran.rests hp hc
  | wake => exact .ignoring carries_wake
  | settle => exact .ignoring (carries_settle budget)
  | onOwner op ih => exact .asOwner ih
  | _ => exact carries_of_not_runsLoop budget id

end Operations

/-! ## The law for sessions -/

section Law

variable {capacity : Nat} {start s s' : Session}

/-- A session that begins with a new loop and has no thread for its window yet. -/
structure Session.BeginsWith (capacity : Nat) (start : Session) : Prop where
  native : start.bridge.native = .headless (.new capacity)
  spawned : start.spawned = false

/-- Whatever has been done with a session, the loop under it has taken turns. -/
theorem Session.Reached.turns (h : start.Reached s) (hstart : start.BeginsWith capacity) :
    ∃ events c, Turns (.start capacity) events c ∧ s.bridge.native = .headless c.loop ∧
      c.Rests s.spawned := by
  induction h with
  | refl =>
      refine ⟨[], .start capacity, .nil, hstart.native, ?_, rfl⟩
      rw [hstart.spawned]
      exact .away
  | step _ hop ih =>
      rename_i op budget _ _
      rcases ih with ⟨events, c, hturns, hs, hrests⟩
      rcases carries_perform budget op capacity _ c hturns.sound hs hrests _ _ hop with
        ⟨more, c', hmore, hs', hrests'⟩
      exact ⟨events ++ more, c', hturns.trans hmore, hs', hrests'⟩

/-- A run that has returned to the calling thread, whatever has been done with the session before
and whatever scripts have done in between, has handed over every fragment that was ever accepted,
and leaves a loop that accepts no more. -/
theorem Session.Reached.run_hands_over {budget : Nat} (h : start.Reached s)
    (hstart : start.BeginsWith capacity) (hrun : Session.run budget s = some (true, s')) :
    ∃ events c, Turns (.start capacity) events c ∧ s'.bridge.native = .headless c.loop ∧
      c.IsOver ∧ acceptedIn events = handedIn events := by
  rcases h.turns hstart with ⟨events, c, hturns, hs, hrests⟩
  have hc : At s.spawned c.stage s.spawned c := ⟨rfl, rfl, hrests.2⟩
  rcases carries_run budget capacity s c hturns.sound hs hc true s' hrun with
    ⟨more, c', hmore, hs', _, hgone, hclosed⟩
  have hall := hturns.trans hmore
  -- closed and left, so the queue is empty
  have hqueue : c'.loop.queue = [] := hall.sound.emptied hclosed (by rw [hgone.stage]; rfl)
  refine ⟨events ++ more, c', hall, hs', ⟨hclosed, hqueue, hgone.sending⟩, ?_⟩
  have hfifo := hall.fifo
  rwa [hqueue, List.append_nil] at hfifo

end Law

end Host
end ScriptHost
