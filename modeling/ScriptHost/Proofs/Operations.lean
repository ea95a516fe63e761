import ScriptHost.Host.Session
import ScriptHost.Proofs.Changes

/-!
# What is done with a session

The operations that the users of a session have at their hands, one after another. Each of them that
is over has changed the bridge step by step, and leaves no fragment and no callback behind that it
has begun.
-/

namespace ScriptHost
namespace Host

open Script Machine

/-! ## Operations -/

/-- Bindings and fragments that callers keep go by the names of their slots. A spawn may find that
no thread can be created, and the thread that it has created begins with an operation of its own,
so that others may come in between. -/
inductive Operation
  | code (source : String)
  | invoke (name : String) (args : List String)
  -- the window
  | bind (name function : String)
  | unbind (name : String)
  | dispatch (source : String)
  | returnValue (id : String) (status : Int) (payload : String)
  | setHandler (slot : HandlerSlot) (function : String)
  | fire (event : Event)
  | onEvent (handler payload : Option String)
  | run
  | spawn (created : Bool)
  | terminate
  -- the native side
  | schedule (source : String)
  | callBinding (name id payload : String)
  | foreignCall (slot id payload : Option String)
  | takeResult (id : String)
  | waitResult (clock : Clock) (timeout : Nat) (id : String)
  | bindNative (slot name : String)
  | unbindNative (name : String)
  | runLoop
  | terminateNative
  -- what callers keep
  | hold (name slot : String)
  | copy (source slot : String)
  | holdNew (slot function : String)
  | letGo (slot : String)
  | draft (slot source : String)
  | postDraft (slot : String)
  | runDraft (slot : String)
  | discardDraft (slot : String)
  -- a thread that was created for the window begins, and the owner thread has its turn
  | wake
  | settle
  | onOwner (op : Operation)
  | dropMachine

namespace Session

variable {α : Type}

/-- Does something whatever comes of it. -/
def ignoring (x : Activity α) : Activity Unit := do
  let _ ← x
  return ()

/-- Shares a binding that is referred to somewhere, if there is one. -/
def share (find : Bridge → Option Binding) (slot : String) : Activity Unit := do
  match find (← get).bridge with
  | none => pure ()
  | some x => updateBridge (Bridge.hold slot x)

/-- Binds what a caller holds under a name of the native side. -/
def bindHeld (slot name : String) : Activity Unit := do
  match (← get).bridge.held.get? slot with
  | none => pure ()
  | some x => ignoring (onBridge (Bridge.bindNative name x))

/-- Calls what a caller holds, as the native side would. -/
def callHeld (budget : Nat) (slot id payload : Option String) : Activity Unit := do
  let held := (← get).bridge.held
  foreignCall budget (slot.bind held.get?) id payload

/-- Posts the draft of a caller. -/
def postHeld (slot : String) : Activity Unit := do
  match (← get).bridge.drafts.get? slot with
  | none => pure ()
  | some f => ignoring (onBridge (Bridge.postDraft slot f))

end Session

open Session

/-- What becomes of a session if the operation is over within the budget. -/
def Operation.perform (budget : Nat) : Operation → Activity Unit
  | code source => ignoring (runCode budget source)
  | invoke name args => Session.invoke budget name args
  | bind name function => ignoring (onBridge (Request.bind name function))
  | unbind name => ignoring (onBridge (Request.unbind name))
  | dispatch source => ignoring (Session.dispatch source)
  | returnValue id status payload => ignoring (onBridge (Request.returnValue id status payload))
  | setHandler slot function => ignoring (onBridge (Request.setHandler slot function))
  | fire event => Session.fire budget event
  | onEvent handler payload => Session.onEvent budget handler payload
  | run => ignoring (Session.run budget)
  | spawn created => updateBridge (Bridge.spawnThread created)
  | terminate => ignoring (onBridge Request.terminate)
  | schedule source => ignoring (onBridge (Request.schedule source))
  | callBinding name id payload => ignoring (Session.callBinding budget name id payload)
  | foreignCall slot id payload => callHeld budget slot id payload
  | takeResult id => ignoring (onBridge (Bridge.takeResult id))
  | waitResult clock timeout id => ignoring (onBridge (Bridge.waitResult clock timeout id))
  | bindNative slot name => bindHeld slot name
  | unbindNative name => ignoring (onBridge (Bridge.unbindNative name))
  | runLoop => ignoring (Session.runLoop budget)
  | terminateNative => updateBridge fun b => { b with native := b.native.terminate }
  | hold name slot => share (Bridge.binding? name) slot
  | copy source slot => share (fun b => b.held.get? source) slot
  | holdNew slot function => ignoring (onBridge (Bridge.holdNew slot function))
  | letGo slot => updateBridge (Bridge.letGo slot)
  | draft slot source => updateBridge (Bridge.draft slot source)
  | postDraft slot => postHeld slot
  | runDraft slot => ignoring (Session.runDraft budget slot)
  | discardDraft slot => updateBridge (Bridge.discardDraft slot)
  | wake => ignoring Session.wake
  | settle => ignoring (Session.settle budget)
  | onOwner op => asOwner (op.perform budget)
  | dropMachine => modify Session.dropMachine

/-- One operation after the other. -/
def Operation.performAll (budget : Nat) : List Operation → Activity Unit
  | [] => pure ()
  | op :: rest => do
      op.perform budget
      performAll budget rest

/-- The sessions that are reached by operations that are over, one after another. -/
inductive Session.Reached (start : Session) : Session → Prop
  | refl : Reached start start
  | step {s op budget s'} : Reached start s → Operation.perform budget op s = some ((), s') →
      Reached start s'

/-! ## Activities -/

/-- The fragments and the callbacks that are being run. -/
structure Bridge.Holding (fs : List Fragment) (xs : List Binding) (b : Bridge) : Prop where
  inHand : b.inHand = fs
  inProgress : b.inProgress = xs

namespace Bridge.Holding

variable {b b' : Bridge} {fs : List Fragment} {xs : List Binding} {x : Binding} {f : Fragment}

/-- Whatever is none of the window's business leaves the holders as they are. -/
theorem of_business (h : b'.business = b.business) (hb : b.Holding fs xs) : b'.Holding fs xs :=
  ⟨(congrArg (·.2.1) h).trans hb.inHand, (congrArg (·.2.2) h).trans hb.inProgress⟩

/-- A callback that ends gives up its own binding. -/
theorem endCallback (hb : b.Holding fs (x :: xs)) : (b.endCallback x).Holding fs xs := by
  refine of_business (business_release _ x) ⟨hb.inHand, ?_⟩
  show b.inProgress.erase x = xs
  rw [hb.inProgress, List.erase_cons_head]

/-- A fragment that ends is in hand no more. -/
theorem finishFragment (hb : b.Holding (f :: fs) xs) : (b.finishFragment f).Holding fs xs := by
  refine ⟨?_, hb.inProgress⟩
  show b.inHand.erase f = fs
  rw [hb.inHand, List.erase_cons_head]

/-- What is taken from the queue is in hand. -/
theorem takeQueued (hb : b.Holding fs xs) (h : b.takeQueued? = some (f, b')) :
    b'.Holding (f :: fs) xs := by
  rcases takeQueued?_eq_some.1 h with ⟨_, _, _, _, rfl⟩
  exact ⟨congrArg (f :: ·) hb.inHand, hb.inProgress⟩

/-- What is taken from the drafts is in hand. -/
theorem takeDraft {slot : String} (hb : b.Holding fs xs) (h : b.takeDraft? slot = some (f, b')) :
    b'.Holding (f :: fs) xs := by
  rcases takeDraft?_eq_some.1 h with ⟨_, rfl⟩
  exact ⟨congrArg (f :: ·) hb.inHand, hb.inProgress⟩

end Bridge.Holding

theorem Native.mem_bindings {n : Native} {name : String} {x : Binding}
    (h : n.boundTo? name = some x) : x ∈ n.bindings := by
  cases n with
  | refusing e => cases h
  | headless l => exact Store.Table.mem_values.2 ⟨name, h⟩

/-- From such a bridge the activity goes on by changes to such another one, if it is over. -/
def Proceeds {α : Type} (pre : Bridge → Prop) (x : Activity α) (post : α → Bridge → Prop) : Prop :=
  ∀ s, pre s.bridge → ∀ a s', x s = some (a, s') →
    (∃ events, s.bridge.Changes events s'.bridge) ∧ post a s'.bridge

/-- Whatever is being run when the activity begins is still being run when it is over, and nothing
else. -/
abbrev Keeps {α : Type} (fs : List Fragment) (xs : List Binding) (x : Activity α) : Prop :=
  Proceeds (Bridge.Holding fs xs) x fun _ => Bridge.Holding fs xs

/-- If two activities are over, one after the other, then both are. -/
theorem Activity.bind_eq_some {α β : Type} {x : Activity α} {f : α → Activity β} {s s' : Session}
    {b : β} (h : (x >>= f) s = some (b, s')) :
    ∃ a s₁, x s = some (a, s₁) ∧ f a s₁ = some (b, s') := by
  have hbind : (x >>= f) s = (x s).bind fun (a, s) => f a s := rfl
  rw [hbind] at h
  rcases Option.bind_eq_some_iff.1 h with ⟨⟨a, s₁⟩, hfirst, hthen⟩
  exact ⟨a, s₁, hfirst, hthen⟩

theorem Activity.bind_of_some {α β : Type} {x : Activity α} {f : α → Activity β}
    {s s₁ : Session} {a : α} (h : x s = some (a, s₁)) : (x >>= f) s = f a s₁ := by
  have hbind : (x >>= f) s = (x s).bind fun (a, s) => f a s := rfl
  rw [hbind, h]
  rfl

/-- What is reached by operations in a row is reached. -/
theorem Session.Reached.performAll {start s s' : Session} {budget : Nat} {ops : List Operation}
    (hs : start.Reached s) (h : Operation.performAll budget ops s = some ((), s')) :
    start.Reached s' := by
  induction ops generalizing s with
  | nil =>
      cases h
      exact hs
  | cons op rest ih =>
      rcases Activity.bind_eq_some h with ⟨_, s₁, hop, hrest⟩
      exact ih (hs.step hop) hrest

namespace Proceeds

variable {α β : Type} {pre pre' : Bridge → Prop} {post : α → Bridge → Prop}
variable {post' : β → Bridge → Prop} {x : Activity α} {f : α → Activity β}
variable {fs : List Fragment} {xs : List Binding}

theorem pure {a : α} (h : ∀ b, pre b → post a b) : Proceeds pre (pure a) post := by
  intro s hs a' s' hrun
  cases hrun
  exact ⟨⟨[], .nil⟩, h _ hs⟩

/-- An activity goes on where the one before has ended. -/
theorem bind (hx : Proceeds pre x post) (hf : ∀ a, Proceeds (post a) (f a) post') :
    Proceeds pre (x >>= f) post' := by
  intro s hs b s' hrun
  rcases Activity.bind_eq_some hrun with ⟨a, s₁, hfirst, hthen⟩
  rcases hx s hs a s₁ hfirst with ⟨⟨events, hchanges⟩, hs₁⟩
  rcases hf a s₁ hs₁ b s' hthen with ⟨⟨events', hchanges'⟩, hs'⟩
  exact ⟨⟨_, hchanges.trans hchanges'⟩, hs'⟩

/-- Less need be known before. -/
theorem weaken (hx : Proceeds pre x post) (h : ∀ b, pre' b → pre b) : Proceeds pre' x post :=
  fun s hs => hx s (h _ hs)

theorem unfinished : Proceeds pre (Session.unfinished : Activity α) post := by
  intro s _ a s' hrun
  cases hrun

theorem get : Proceeds pre (get : Activity Session) fun s b => pre b ∧ s.bridge = b := by
  intro s hs a s' hrun
  cases hrun
  exact ⟨⟨[], .nil⟩, hs, rfl⟩

/-- One request to the bridge. -/
theorem onBridge {g : Bridge → α × Bridge}
    (h : ∀ b, pre b → (∃ events, b.Changes events (g b).2) ∧ post (g b).1 (g b).2) :
    Proceeds pre (Session.onBridge g) post := by
  intro s hs a s' hrun
  cases hrun
  exact h s.bridge hs

theorem updateBridge {final : Bridge → Prop} {e : WindowEvent} {g : Bridge → Bridge}
    (h : ∀ b, pre b → b.Change e (g b) ∧ final (g b)) :
    Proceeds pre (Session.updateBridge g) fun _ => final :=
  onBridge fun b hb => ⟨⟨[e], (h b hb).1.changes⟩, (h b hb).2⟩

/-- What is steady holds on to what it has found. -/
theorem steady {g : Bridge → α × Bridge} (h : ∀ b : Bridge, b.Steady (g b).2) :
    Keeps fs xs (Session.onBridge g) := by
  refine onBridge fun b hb => ⟨(h b).changes, ?_⟩
  exact ⟨(h b).inHand.trans hb.inHand, (h b).inProgress.trans hb.inProgress⟩

/-- One change that is none of the window's business. -/
theorem change {e : WindowEvent} {g : Bridge → Bridge} (h : ∀ b : Bridge, b.Change e (g b))
    (hbusiness : ∀ b : Bridge, (g b).business = b.business) :
    Keeps fs xs (Session.updateBridge g) :=
  steady fun b => .of_change (h b) (hbusiness b)

theorem quiet {g : Bridge → Bridge} (h : ∀ b : Bridge, b.Quiet (g b)) :
    Keeps fs xs (Session.updateBridge g) :=
  steady fun b => .of_quiet (h b)

theorem note (n : Notice) : Keeps fs xs (Session.note n) :=
  quiet fun _ => rfl

/-- What concerns the session alone changes no bridge. -/
theorem modify {g : Session → Session} (h : ∀ s : Session, (g s).bridge = s.bridge) :
    Proceeds pre (modify g : Activity Unit) fun _ => pre := by
  intro s hs a s' hrun
  cases hrun
  rw [h s]
  exact ⟨⟨[], .nil⟩, hs⟩

theorem ignoring {final : Bridge → Prop} (hx : Proceeds pre x fun _ => final) :
    Proceeds pre (Session.ignoring x) fun _ => final :=
  .bind hx fun _ => .pure fun _ hb => hb

theorem asOwner (hx : Keeps fs xs x) : Keeps fs xs (Session.asOwner x) := by
  have hactAs (thread : Thread) : Keeps fs xs (Session.actAs thread) :=
    quiet fun _ => rfl
  exact .bind (hactAs _) fun _ => .bind hx fun a => .bind (hactAs _) fun _ => .pure fun _ hb => hb

/-- A machine changes the bridge only through native functions. -/
theorem onMachine {run : Hosted Builtin Bridge → Option (α × Hosted Builtin Bridge)}
    (h : ∀ m a m', run m = some (a, m') → m.host.Steady m'.host) :
    Keeps fs xs (Session.onMachine run) := by
  intro s hs a s' hrun
  unfold Session.onMachine at hrun
  split at hrun
  · cases hrun
    exact ⟨⟨[], .nil⟩, hs⟩
  · rcases Option.map_eq_some_iff.1 hrun with ⟨⟨a, m⟩, hm, heq⟩
    cases heq
    have hsteady := h _ a m hm
    exact ⟨hsteady.changes, hsteady.inHand.trans hs.inHand,
      hsteady.inProgress.trans hs.inProgress⟩

end Proceeds

/-! ## Running code -/

section Activities

variable {fs : List Fragment} {xs : List Binding} (budget : Nat)

/-- A source that is run takes nothing in hand. -/
theorem keeps_runCode (source : String) : Keeps fs xs (runCode budget source) := by
  have hrun : Keeps fs xs (onMachine (runSource Builtin.run budget source)) :=
    .onMachine fun m a m' h => runSource_leads Bridge.path_steady h
  unfold runCode
  refine .bind .get fun s => ?_
  dsimp only
  split
  · exact .bind ((Proceeds.note _).weaken fun _ hb => hb.1) fun _ => hrun
  · exact hrun.weaken fun _ hb => hb.1

/-- Neither does a script function that is called. -/
theorem keeps_invoke (name : String) (args : List String) :
    Keeps fs xs (Session.invoke budget name args) := by
  unfold Session.invoke
  refine .bind (.onMachine fun m a m' h => invoke_leads Bridge.path_steady h) fun outcome => ?_
  cases outcome with
  | none => exact .pure fun _ hb => hb
  | some outcome =>
      cases outcome with
      | unknown => exact .note _
      | failed e => exact .note _
      | ignored => exact .pure fun _ hb => hb
      | completed => exact .pure fun _ hb => hb

/-! ## Foreign calls -/

/-- A foreign call holds nothing but what its caller does. -/
theorem keeps_foreignCall (binding : Option Binding) (id payload : Option String) :
    Keeps fs xs (foreignCall budget binding id payload) := by
  unfold foreignCall
  split
  · exact .note _
  · split
    · exact .pure fun _ hb => hb
    · refine .bind .get fun s => ?_
      split
      · exact (Proceeds.note _).weaken fun _ hb => hb.1
      · split
        · exact (keeps_invoke budget _ _).weaken fun _ hb => hb.1
        · exact (Proceeds.note _).weaken fun _ hb => hb.1

/-- The binding is in progress while its function is called, even if the function unbinds it. -/
theorem keeps_callBinding (name id payload : String) :
    Keeps fs xs (callBinding budget name id payload) := by
  unfold callBinding
  refine .bind .get fun s => ?_
  cases hbound : s.bridge.native.boundTo? name with
  | none => exact .pure fun _ hb => hb.1
  | some x =>
      -- The reference is taken while the name is still bound to it, so it is one the bridge knows.
      have hbegin : Proceeds (fun b => b.Holding fs xs ∧ s.bridge = b)
          (updateBridge fun b => (b.expectResult id).beginCallback x)
          fun _ => Bridge.Holding fs (x :: xs) := by
        refine .onBridge ?_
        rintro b ⟨hb, rfl⟩
        have hquiet : s.bridge.Quiet (s.bridge.expectResult id) :=
          Bridge.quiet_update (fun _ => rfl) fun _ => rfl
        have hx : x ∈ (s.bridge.expectResult id).references := by
          have hbindings : (s.bridge.expectResult id).native.bindings = s.bridge.native.bindings :=
            congrArg Bridge.Picture.bindings hquiet
          have hmem := Native.mem_bindings hbound
          rw [← hbindings] at hmem
          simp [Bridge.references, hmem]
        exact ⟨⟨_, (Bridge.Change.aside hquiet).changes.snoc (.beginCallback hx)⟩, hb.inHand,
          congrArg (x :: ·) hb.inProgress⟩
      -- What the function does in between leaves the references in hand as they were, so the one
      -- that was taken is given back.
      have hend : Proceeds (Bridge.Holding fs (x :: xs)) (updateBridge (Bridge.endCallback x))
          fun _ => Bridge.Holding fs xs := by
        refine .updateBridge fun b hb => ⟨.endCallback ?_, hb.endCallback⟩
        rw [hb.inProgress]
        exact List.mem_cons_self
      exact .bind hbegin fun _ => .bind (keeps_foreignCall budget _ _ _) fun _ =>
        .bind hend fun _ => .pure fun _ hb => hb

/-! ## Events -/

/-- An event is handed to a script function at most. -/
theorem keeps_onEvent (handler payload : Option String) :
    Keeps fs xs (Session.onEvent budget handler payload) := by
  unfold Session.onEvent
  cases handler with
  | none => exact .pure fun _ hb => hb
  | some function =>
      refine .bind .get fun s => ?_
      split
      · exact .pure fun _ hb => hb.1
      · split
        · exact (Proceeds.note _).weaken fun _ hb => hb.1
        · split
          · exact (Proceeds.note _).weaken fun _ hb => hb.1
          · exact (keeps_invoke budget _ _).weaken fun _ hb => hb.1

/-- One handler after the other. -/
theorem keeps_handleAll (calls : List (Option String × Option String)) :
    Keeps fs xs (handleAll budget calls) := by
  induction calls with
  | nil => exact .pure fun _ hb => hb
  | cons call rest ih =>
      rcases call with ⟨handler, payload⟩
      exact .bind (keeps_onEvent budget handler payload) fun _ => ih

theorem keeps_fire (event : Event) : Keeps fs xs (Session.fire budget event) :=
  .bind .get fun _ => (keeps_handleAll budget _).weaken fun _ hb => hb.1

/-! ## Fragments -/

/-- What is dispatched is held by the queue. -/
theorem keeps_dispatch (source : String) : Keeps fs xs (Session.dispatch source) := by
  have hschedule : Keeps fs xs (onBridge (Request.schedule source)) :=
    .steady fun b => .of_change .schedule (b.business_schedule source)
  unfold Session.dispatch
  refine .bind .get fun s => ?_
  split
  · exact hschedule.weaken fun _ hb => hb.1
  · exact .pure fun _ hb => hb.1

/-- A fragment that is in hand is given up when it has been run, however it ends. -/
theorem proceeds_runFragment (f : Fragment) :
    Proceeds (Bridge.Holding (f :: fs) xs) (runFragment budget f)
      fun _ => Bridge.Holding fs xs := by
  have hfinish : Proceeds (Bridge.Holding (f :: fs) xs) (updateBridge (Bridge.finishFragment f))
      fun _ => Bridge.Holding fs xs := by
    refine .updateBridge fun b hb => ⟨.finishFragment ?_, hb.finishFragment⟩
    rw [hb.inHand]
    exact List.mem_cons_self
  unfold runFragment
  refine .bind (keeps_runCode budget f.source) fun r => ?_
  dsimp only
  split
  · exact .bind (.note _) fun _ => hfinish
  · exact .bind (.note _) fun _ => hfinish
  · exact hfinish

/-- What has been taken up, if anything, is in hand. -/
theorem proceeds_takeUp {take : Bridge → Option (Fragment × Bridge)}
    (h : ∀ b f b', take b = some (f, b') → b.Holding fs xs →
      b.Change .other b' ∧ b'.Holding (f :: fs) xs) :
    Proceeds (Bridge.Holding fs xs) (takeUp take)
      fun taken => Bridge.Holding (taken.toList ++ fs) xs := by
  refine .onBridge fun b hb => ?_
  cases htake : take b with
  | none => exact ⟨⟨[], .nil⟩, hb⟩
  | some taken =>
      rcases taken with ⟨f, b'⟩
      rcases h b f b' htake hb with ⟨hchange, hb'⟩
      exact ⟨⟨_, hchange.changes⟩, hb'⟩

/-- What is taken is in hand from then on. -/
theorem proceeds_takeQueued :
    Proceeds (Bridge.Holding fs xs) (takeUp Bridge.takeQueued?)
      fun taken => Bridge.Holding (taken.toList ++ fs) xs :=
  proceeds_takeUp fun _ _ _ h hb => ⟨.takeQueued h, hb.takeQueued h⟩

/-- What is taken from the queue is run and given up, one after the other. -/
theorem keeps_pump (n : Nat) : Keeps fs xs (pump budget n) := by
  induction n with
  | zero =>
      unfold pump
      refine .bind proceeds_takeQueued fun taken => ?_
      cases taken with
      | none => exact .pure fun _ hb => hb
      | some f => exact .unfinished
  | succ n ih =>
      unfold pump
      refine .bind proceeds_takeQueued fun taken => ?_
      cases taken with
      | none => exact .pure fun _ hb => hb
      | some f =>
          refine .bind (proceeds_runFragment budget f) fun _ => ?_
          exact .bind ih fun count => .pure fun _ hb => hb

theorem keeps_runDraft (slot : String) : Keeps fs xs (Session.runDraft budget slot) := by
  have htake : Proceeds (Bridge.Holding fs xs) (takeUp (Bridge.takeDraft? slot))
      fun taken => Bridge.Holding (taken.toList ++ fs) xs :=
    proceeds_takeUp fun _ _ _ h hb => ⟨.takeDraft h, hb.takeDraft h⟩
  unfold Session.runDraft
  refine .bind htake fun taken => ?_
  cases taken with
  | none => exact .pure fun _ hb => hb
  | some f => exact .bind (proceeds_runFragment budget f) fun _ => .pure fun _ hb => hb

/-! ## The event loop -/

theorem keeps_updateLoop {g : EventLoop Fragment → EventLoop Fragment}
    (hbindings : ∀ l, (g l).bindings = l.bindings) (hqueue : ∀ l, (g l).queue = l.queue) :
    Keeps fs xs (updateBridge fun b => { b with native := b.native.update g }) :=
  .quiet fun _ => Bridge.quiet_update hbindings hqueue

/-- A turn of the owner takes up nothing that it does not give up. -/
theorem keeps_serve : Keeps fs xs (serve budget) := by
  have hleave : Keeps fs xs
      (updateBridge fun b => { b with native := b.native.update EventLoop.leave }) :=
    keeps_updateLoop (fun _ => rfl) fun _ => rfl
  have hshut : Keeps fs xs (shutDown budget) := by
    unfold shutDown
    refine .bind (keeps_updateLoop (fun _ => rfl) fun _ => rfl) fun _ => ?_
    refine .bind (keeps_pump budget budget) fun count => ?_
    dsimp only
    split
    · exact .bind (.note _) fun _ => hleave
    · exact hleave
  unfold serve
  refine .bind (keeps_pump budget budget) fun _ => .bind .get fun s => ?_
  split
  · exact .bind (hshut.weaken fun _ hb => hb.1) fun _ => .pure fun _ hb => hb
  · exact .pure fun _ hb => hb.1

theorem keeps_serveToEnd : Keeps fs xs (serveToEnd budget) := by
  unfold serveToEnd
  refine .bind (keeps_serve budget) fun ended => ?_
  cases ended with
  | true => exact .pure fun _ hb => hb
  | false => exact .unfinished

theorem keeps_stopWindow : Keeps fs xs (updateBridge Bridge.stopWindow) :=
  .updateBridge fun _ hb => ⟨.stop, hb.inHand, hb.inProgress⟩

theorem keeps_runLoop : Keeps fs xs (Session.runLoop budget) := by
  unfold Session.runLoop
  refine .bind (.steady fun b => .of_quiet b.quiet_takeLoop) fun started => ?_
  cases started with
  | true => exact .bind (keeps_serveToEnd budget) fun _ => .pure fun _ hb => hb
  | false => exact .pure fun _ hb => hb

theorem keeps_run : Keeps fs xs (Session.run budget) := by
  unfold Session.run
  refine .bind (.steady Bridge.steady_startWindow) fun started => ?_
  cases started with
  | true =>
      exact .bind (keeps_serveToEnd budget) fun _ =>
        .bind keeps_stopWindow fun _ => .pure fun _ hb => hb
  | false => exact .pure fun _ hb => hb

/-- A new thread has nothing in hand. -/
theorem keeps_spawn (created : Bool) :
    Keeps fs xs (updateBridge (Bridge.spawnThread created)) :=
  .steady fun b => b.steady_spawnThread created

theorem keeps_wake : Keeps fs xs Session.wake := by
  unfold Session.wake
  refine .bind (.asOwner (.steady Bridge.steady_wakeThread)) fun started => ?_
  cases started with
  | true => exact .bind (.modify fun _ => rfl) fun _ => .pure fun _ hb => hb
  | false => exact .pure fun _ hb => hb

/-- The owner has nothing in hand while it waits. -/
theorem keeps_settle : Keeps fs xs (Session.settle budget) := by
  unfold Session.settle
  refine .bind .get fun s => ?_
  dsimp only
  split
  · refine .bind ((Proceeds.asOwner (keeps_serve budget)).weaken fun _ hb => hb.1)
      fun ended => ?_
    cases ended with
    | true =>
        exact .bind (.asOwner keeps_stopWindow) fun _ =>
          .bind (.modify fun _ => rfl) fun _ => .pure fun _ hb => hb
    | false => exact .pure fun _ hb => hb
  · exact .pure fun _ hb => hb.1

end Activities

/-! ## Every operation -/

/-- Callers refer to what they hold. -/
theorem Bridge.mem_references_of_held {b : Bridge} {slot : String} {x : Binding}
    (h : b.held.get? slot = some x) : x ∈ b.references := by
  have hmem := Store.Table.mem_values.2 ⟨slot, h⟩
  simp [references, hmem]

theorem Bridge.mem_references_of_binding? {b : Bridge} {name : String} {x : Binding}
    (h : b.binding? name = some x) : x ∈ b.references := by
  have hmem := Store.Table.mem_values.2 ⟨name, h⟩
  simp [references, hmem]

/-- Only what something refers to can be shared. -/
theorem keeps_share {fs : List Fragment} {xs : List Binding} {find : Bridge → Option Binding}
    (hfind : ∀ b x, find b = some x → x ∈ b.references) (slot : String) :
    Keeps fs xs (share find slot) := by
  unfold share
  refine .bind .get fun s => ?_
  cases hfound : find s.bridge with
  | none => exact .pure fun _ hb => hb.1
  | some x =>
      refine .updateBridge (e := .other) ?_
      rintro b ⟨hb, rfl⟩
      exact ⟨.hold (hfind _ x hfound), hb.of_business (Bridge.business_hold _ x slot)⟩

theorem keeps_bindHeld {fs : List Fragment} {xs : List Binding} (slot name : String) :
    Keeps fs xs (bindHeld slot name) := by
  unfold bindHeld
  refine .bind .get fun s => ?_
  cases hheld : s.bridge.held.get? slot with
  | none => exact .pure fun _ hb => hb.1
  | some x =>
      refine .ignoring (.onBridge ?_)
      rintro b ⟨hb, rfl⟩
      have hx : x ∈ s.bridge.references := Bridge.mem_references_of_held hheld
      exact ⟨⟨_, (Bridge.Change.bindNative hx).changes⟩,
        hb.of_business (Bridge.business_bindNative _ x name)⟩

theorem keeps_postHeld {fs : List Fragment} {xs : List Binding} (slot : String) :
    Keeps fs xs (postHeld slot) := by
  unfold postHeld
  refine .bind .get fun s => ?_
  cases hdraft : s.bridge.drafts.get? slot with
  | none => exact .pure fun _ hb => hb.1
  | some f =>
      refine .ignoring (.onBridge ?_)
      rintro b ⟨hb, rfl⟩
      exact ⟨⟨_, (Bridge.Change.postDraft hdraft).changes⟩,
        hb.of_business (Bridge.business_postDraft _ f slot)⟩

/-- An operation that is over has changed the bridge step by step, and nothing that it has begun is
still going on. -/
theorem keeps_perform {fs : List Fragment} {xs : List Binding} (budget : Nat) (op : Operation) :
    Keeps fs xs (op.perform budget) := by
  -- Only `onOwner` has an operation inside.
  induction op with
  | code source => exact .ignoring (keeps_runCode budget source)
  | invoke name args => exact keeps_invoke budget name args
  | bind name function =>
      exact .ignoring (.steady fun b => .of_change .bind (b.business_bind name function))
  | unbind name => exact .ignoring (.steady fun b => .of_change .unbind (b.business_unbind name))
  | dispatch source => exact .ignoring (keeps_dispatch source)
  | returnValue id status payload =>
      exact .ignoring (.steady fun b => .of_quiet (b.quiet_returnValue id status payload))
  | setHandler slot function =>
      exact .ignoring (.steady fun _ => .of_quiet rfl)
  | fire event => exact keeps_fire budget event
  | onEvent handler payload => exact keeps_onEvent budget handler payload
  | run => exact .ignoring (keeps_run budget)
  | spawn created => exact keeps_spawn created
  | terminate => exact .ignoring (.steady fun b => b.steady_terminate)
  | schedule source =>
      exact .ignoring (.steady fun b => .of_change .schedule (b.business_schedule source))
  | callBinding name id payload => exact .ignoring (keeps_callBinding budget name id payload)
  | foreignCall slot id payload =>
      exact .bind .get fun s => (keeps_foreignCall budget _ id payload).weaken fun _ hb => hb.1
  | takeResult id => exact .ignoring (.steady fun b => .of_quiet (b.quiet_takeResult id))
  | waitResult clock timeout id =>
      exact .ignoring (.steady fun b => .of_quiet (b.quiet_waitResult clock timeout id))
  | bindNative slot name => exact keeps_bindHeld slot name
  | unbindNative name =>
      exact .ignoring (.steady fun b => .of_change .unbindNative (b.business_unbindNative name))
  | runLoop => exact .ignoring (keeps_runLoop budget)
  | terminateNative => exact keeps_updateLoop (fun _ => rfl) fun _ => rfl
  | hold name slot => exact keeps_share (fun _ _ h => Bridge.mem_references_of_binding? h) slot
  | copy source slot => exact keeps_share (fun _ _ h => Bridge.mem_references_of_held h) slot
  | holdNew slot function =>
      exact .ignoring (.steady fun b => .of_change .holdNew (b.business_holdNew slot function))
  | letGo slot => exact .change (fun _ => .letGo) fun b => b.business_letGo slot
  | draft slot source => exact .change (fun _ => .draft) fun b => b.business_draft slot source
  | postDraft slot => exact keeps_postHeld slot
  | runDraft slot => exact .ignoring (keeps_runDraft budget slot)
  | discardDraft slot =>
      exact .change (fun _ => .discardDraft) fun b => b.business_discardDraft slot
  | wake => exact .ignoring keeps_wake
  | settle => exact .ignoring (keeps_settle budget)
  | onOwner op ih => exact .asOwner ih
  | dropMachine => exact .modify fun _ => rfl

end Host
end ScriptHost
