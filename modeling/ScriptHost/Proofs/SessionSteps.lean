import ScriptHost.Proofs.Operations

/-!
# What activities do to a bridge

Whatever a session does to its bridge is put together from a few things that are done at once: a
name is bound or unbound, a fragment is posted or taken from the queue, a result comes in or is
taken, the loop is taken over, closed or left, the window is marked as running or as idle, or one of
them is terminated; everything else leaves the native side and the phase of the window alone. So a
relation between bridges that allows each of these holds between the beginning and the end of every
activity that is over, and between the moments of every script.
-/

namespace ScriptHost
namespace Host

open Script Machine

/-! ## What is done at once -/

namespace Bridge

/-- A relation that holds along everything that is done at once, but for what is left to those who
run the loop, make calls or take results. -/
structure Allows (R : Bridge → Bridge → Prop) : Prop where
  trans : ∀ {b b₁ b₂}, R b b₁ → R b₁ b₂ → R b b₂
  elsewhere : ∀ {b b'}, b'.window.phase = b.window.phase → b'.native = b.native → R b b'
  -- the native side
  bindNative : ∀ b x name, R b (bindNative name x b).2
  unbindNative : ∀ b name, R b (unbindNative name b).2
  postNative : ∀ b f, R b (postNative f b).2
  resolveNative : ∀ b id result, R b (resolveNative id result b).2
  terminateNative : ∀ b, R b { b with native := b.native.terminate }
  -- the window
  mark : ∀ b : Bridge, R b b.markWindow.2
  unmark : ∀ b : Bridge, R b b.unmarkWindow
  terminate : ∀ b, R b (Request.terminate b).2

/-- The same for those who make calls and take results. -/
structure AllowsCalls (R : Bridge → Bridge → Prop) : Prop extends Allows R where
  expectResult : ∀ b id, R b (Bridge.expectResult id b)
  takeResult : ∀ b id, R b (Bridge.takeResult id b).2

/-- The same for those who run the loop. -/
structure AllowsLoops (R : Bridge → Bridge → Prop) : Prop extends Allows R where
  takeLoop : ∀ b : Bridge, R b b.takeLoop.2
  takeQueued : ∀ {b f b'}, b.takeQueued? = some (f, b') → R b b'
  close : ∀ b, R b { b with native := b.native.update EventLoop.close }
  leave : ∀ b, R b { b with native := b.native.update EventLoop.leave }

/-- Whoever finds the loop taken leaves it as it is. -/
theorem native_takeLoop_of_owned {b : Bridge} (h : b.native.isOwned = true) :
    b.takeLoop.2.native = b.native := by
  unfold takeLoop
  split
  · rfl
  · rename_i l hl
    have hnone : l.enter? = none := by
      rw [hl] at h
      exact if_pos h
    rw [hnone]
    rfl

theorem native_startWindow_of_owned {b : Bridge} (h : b.native.isOwned = true) :
    b.startWindow.2.native = b.native :=
  native_takeLoop_of_owned (b := b.markWindow.2.note .loopStarted) h

theorem native_discardDraft (b : Bridge) (slot : String) :
    (b.discardDraft slot).native = b.native := by
  unfold discardDraft
  split <;> rfl

namespace Allows

variable {R : Bridge → Bridge → Prop} {b b' : Bridge} (hR : Allows R)
include hR

theorem refl (b : Bridge) : R b b :=
  hR.elsewhere rfl rfl

/-- Something that neither the window nor the native side takes part in. -/
theorem of_business (hbusiness : b'.business = b.business) (hnative : b'.native = b.native) :
    R b b' :=
  hR.elsewhere (congrArg Prod.fst hbusiness) hnative

theorem endCallback (x : Binding) (b : Bridge) : R b (b.endCallback x) := by
  have hended : R b { b with inProgress := b.inProgress.erase x } := hR.elsewhere rfl rfl
  refine hR.trans hended (hR.elsewhere ?_ (native_release _ x))
  -- not what is in progress, but the phase of the window is the same
  exact congrArg Prod.fst (business_release _ x)

/-! ### The window -/

theorem stop (b : Bridge) : R b b.stopWindow :=
  hR.trans (hR.unmark b) (hR.elsewhere rfl rfl)

/-- A run of a loop that has an owner is turned away, and then only the window has been touched. -/
theorem startWindow_of_owned (h : b.native.isOwned = true) : R b b.startWindow.2 := by
  have hwindow : b.startWindow.2.window.phase = b.markWindow.2.window.phase := b.phase_startWindow
  exact hR.trans (hR.mark b) (hR.elsewhere hwindow (native_startWindow_of_owned h))

/-- A window that is to be run by a new thread. -/
theorem spawnThread (created : Bool) (b : Bridge) : R b (b.spawnThread created) := by
  cases created with
  | true =>
      -- how many threads wait does not concern the window or the loop
      have hcreated : R b.markWindow.2 (b.spawnThread true) := hR.elsewhere rfl rfl
      exact hR.trans (hR.mark b) hcreated
  | false =>
      rw [b.spawnThread_false]
      exact hR.refl b

/-! ### Requests -/

/-- A request is put together from what is done at once. -/
theorem bind (name function : String) (b : Bridge) : R b (Request.bind name function b).2 := by
  -- the ledger and the registry are elsewhere; only the table of the native side is asked
  have hnew : R b (b.newBinding function).2 := hR.elsewhere rfl rfl
  have hbind := hR.trans hnew (hR.bindNative _ (b.newBinding function).1 name)
  unfold Request.bind
  dsimp only
  split
  · rename_i h
    rw [h] at hbind
    exact hR.trans hbind (hR.of_business (business_release _ _) (native_release _ _))
  · rename_i h
    rw [h] at hbind
    exact hR.trans hbind (hR.of_business (business_enroll _ _ _) (native_enroll _ _ _))

theorem unbind (name : String) (b : Bridge) : R b (Request.unbind name b).2 := by
  have hunbind := hR.unbindNative b name
  rw [← Request.ofNative_snd] at hunbind
  unfold Request.unbind
  rw [Attempt.bind_apply]
  rcases h : Request.ofNative (Bridge.unbindNative name) b with ⟨e | _, b₁⟩
  · rw [h] at hunbind
    exact hunbind
  · rw [h] at hunbind
    have hstrike : R b₁ (b₁.strike name) :=
      hR.of_business (business_strike _ _) (native_strike _ _)
    exact hR.trans hunbind (hR.trans hstrike (hR.elsewhere rfl rfl))

theorem schedule (source : String) (b : Bridge) : R b (Request.schedule source b).2 := by
  have hnew : R b (b.newFragment source).2 := hR.elsewhere rfl rfl
  have hpost := hR.trans hnew (hR.postNative _ (b.newFragment source).1)
  unfold Request.schedule
  dsimp only
  split
  · rename_i h
    rw [h] at hpost
    exact hR.trans hpost (hR.elsewhere rfl rfl)
  · rename_i h
    rw [h] at hpost
    exact hR.trans hpost (hR.elsewhere rfl rfl)

theorem returnValue (id : String) (status : Int) (payload : String) (b : Bridge) :
    R b (Request.returnValue id status payload b).2 := by
  unfold Request.returnValue
  rw [Request.ofNative_snd]
  exact hR.resolveNative b id ⟨status, payload⟩

theorem postDraft (slot : String) (f : Fragment) (b : Bridge) : R b (postDraft slot f b).2 := by
  have hpost := hR.postNative b f
  unfold Bridge.postDraft
  rw [Attempt.bind_apply]
  rcases h : Bridge.postNative f b with ⟨e | _, b₁⟩
  · rw [h] at hpost
    exact hpost
  · rw [h] at hpost
    exact hR.trans hpost (hR.elsewhere rfl rfl)

/-! ### Scripts -/

/-- Whatever a script may request. -/
theorem action {f : ApiFunction} {args : List Value} {x : Request Unit}
    (h : f.action args = .ok (.request x)) (b : Bridge) : R b (x b).2 := by
  rcases ApiFunction.action_cases h with ⟨foreign, function, rfl⟩ | ⟨foreign, rfl⟩ |
    ⟨source, rfl⟩ | ⟨id, status, payload, rfl⟩ | rfl | ⟨slot, function, rfl⟩
  · exact hR.bind foreign function b
  · exact hR.unbind foreign b
  · exact hR.schedule source b
  · exact hR.returnValue id status payload b
  · exact hR.terminate b
  · exact hR.elsewhere rfl rfl

/-- A function of the interface with any arguments. -/
theorem api (f : ApiFunction) (args : List Value) (b : Bridge) : R b (f.run args b).2 := by
  unfold ApiFunction.run
  rcases haction : f.action args with e | x | v
  · exact hR.refl b
  · have hnative : (ApiFunction.answered x b).2.native = (x b).2.native :=
      ApiFunction.native_afterOutcome _ _
    have hbusiness : (ApiFunction.answered x b).2.business = (x b).2.business :=
      (quiet_afterOutcome _ _).business
    exact hR.trans (hR.action haction b) (hR.of_business hbusiness hnative)
  · exact hR.refl b

theorem builtin (f : Builtin) (args : List Value) (b : Bridge) : R b (f.run args b).2 := by
  cases f with
  | recorder r => exact hR.elsewhere rfl rfl
  | probe => exact hR.refl b
  | probeRun =>
      show R b (Builtin.runAgain b).2
      unfold Builtin.runAgain
      split
      · exact hR.startWindow_of_owned ‹_›
      · exact hR.refl b
  | api f => exact hR.api f args b

/-- A script goes along the relation, step by step. -/
theorem path : Natives.Path Builtin.run R :=
  ⟨hR.refl, hR.trans, fun f args b => hR.builtin f args b⟩

end Allows

/-- A wait is one look or two. -/
theorem AllowsCalls.waitResult {R : Bridge → Bridge → Prop} (hR : AllowsCalls R) (clock : Clock)
    (timeout : Nat) (id : String) (b : Bridge) : R b (b.waitResult clock timeout id).2 := by
  have hfirst := hR.takeResult b id
  unfold Bridge.waitResult
  split
  · exact hR.refl b
  · split
    · rename_i h
      rw [h] at hfirst
      exact hfirst
    · rename_i b₁ h
      rw [h] at hfirst
      exact hR.trans hfirst (hR.takeResult b₁ id)

namespace AllowsLoops

variable {R : Bridge → Bridge → Prop} (hR : AllowsLoops R)
include hR

/-- A run that asks for a loop, which may be free. -/
theorem startWindow (b : Bridge) : R b b.startWindow.2 := by
  have hmark : R b (b.markWindow.2.note .loopStarted) :=
    hR.trans (hR.mark b) (hR.elsewhere rfl rfl)
  exact hR.trans hmark (hR.takeLoop _)

theorem wakeThread (b : Bridge) : R b b.wakeThread.2 := by
  rcases b.wakeThread_cases with h | ⟨n, _, h⟩
  · rw [h]
    exact hR.refl b
  · rw [h]
    have hfewer : R b { b with waiting := n } := hR.elsewhere rfl rfl
    exact hR.trans hfewer (hR.startWindow _)

end AllowsLoops

end Bridge

/-! ## Activities -/

/-- The activity goes along the relation, if it is over. -/
def Comes {α : Type} (R : Bridge → Bridge → Prop) (x : Activity α) : Prop :=
  ∀ s a s', x s = some (a, s') → R s.bridge s'.bridge

/-- The activity goes along the relation, if it is over, and the owner thread is there afterwards if
it was there before, and only then. -/
def Along {α : Type} (R : Bridge → Bridge → Prop) (x : Activity α) : Prop :=
  ∀ s a s', x s = some (a, s') → R s.bridge s'.bridge ∧ s'.spawned = s.spawned

/-! ## Calls by name -/

section Calls

variable {s : Session} {budget : Nat} {name id payload : String} {x : Binding}

/-- A call of an unknown name does nothing. -/
theorem callBinding_of_unbound (h : s.bridge.native.boundTo? name = none) :
    Session.callBinding budget name id payload s = some (.error .notFound, s) := by
  have hget : (get : Activity Session) s = some (s, s) := rfl
  unfold Session.callBinding
  refine (Activity.bind_of_some hget).trans ?_
  rw [h]
  rfl

/-- The callee runs while its call already waits for a result. -/
theorem callBinding_of_bound (h : s.bridge.native.boundTo? name = some x) :
    Session.callBinding budget name id payload s =
      (Session.foreignCall budget (some x) (some id) (some payload)
        { s with bridge := (s.bridge.expectResult id).beginCallback x }).map fun r =>
          (.ok (), { r.2 with bridge := r.2.bridge.endCallback x }) := by
  have hget : (get : Activity Session) s = some (s, s) := rfl
  unfold Session.callBinding
  refine (Activity.bind_of_some hget).trans ?_
  rw [h]
  refine (Activity.bind_of_some rfl).trans ?_
  cases hcall : Session.foreignCall budget (some x) (some id) (some payload)
    { s with bridge := (s.bridge.expectResult id).beginCallback x } with
  | none => exact congrArg (Option.bind · _) hcall
  | some r => exact Activity.bind_of_some hcall

end Calls

section Activities

variable {α β : Type} {R : Bridge → Bridge → Prop} {x : Activity α} {f : α → Activity β}

namespace Along

/-- What an activity does at once is done in the end. -/
theorem comes (hx : Along R x) : Comes R x :=
  fun s a s' hrun => (hx s a s' hrun).1

/-- An activity that does nothing. -/
theorem pure (hR : Bridge.Allows R) (a : α) : Along R (pure a : Activity α) := by
  intro s a' s' hrun
  cases hrun
  exact ⟨hR.refl _, rfl⟩

theorem bind (hR : Bridge.Allows R) (hx : Along R x) (hf : ∀ a, Along R (f a)) :
    Along R (x >>= f) := by
  intro s b s' hrun
  rcases Activity.bind_eq_some hrun with ⟨a, s₁, hfirst, hthen⟩
  rcases hx s a s₁ hfirst with ⟨hbefore, hspawned⟩
  rcases hf a s₁ b s' hthen with ⟨hafter, hspawned'⟩
  exact ⟨hR.trans hbefore hafter, hspawned'.trans hspawned⟩

theorem unfinished : Along R (Session.unfinished : Activity α) := by
  intro s a s' hrun
  cases hrun

/-- Whoever looks changes nothing. -/
theorem get (hR : Bridge.Allows R) : Along R (get : Activity Session) := by
  intro s a s' hrun
  cases hrun
  exact ⟨hR.refl _, rfl⟩

theorem onBridge {g : Bridge → α × Bridge} (h : ∀ b : Bridge, R b (g b).2) :
    Along R (Session.onBridge g) := by
  intro s a s' hrun
  cases hrun
  exact ⟨h s.bridge, rfl⟩

theorem updateBridge {g : Bridge → Bridge} (h : ∀ b : Bridge, R b (g b)) :
    Along R (Session.updateBridge g) :=
  onBridge h

/-- What concerns neither the window nor the native side. -/
theorem elsewhere (hR : Bridge.Allows R) {g : Bridge → Bridge}
    (hwindow : ∀ b : Bridge, (g b).window.phase = b.window.phase)
    (hnative : ∀ b : Bridge, (g b).native = b.native) : Along R (Session.updateBridge g) :=
  updateBridge fun b => hR.elsewhere (hwindow b) (hnative b)

theorem note (hR : Bridge.Allows R) (n : Notice) : Along R (Session.note n) :=
  elsewhere hR (fun _ => rfl) fun _ => rfl

theorem ignoring (hR : Bridge.Allows R) (hx : Along R x) : Along R (Session.ignoring x) :=
  bind hR hx fun _ => pure hR _

theorem asOwner (hR : Bridge.Allows R) (hx : Along R x) : Along R (Session.asOwner x) :=
  bind hR (elsewhere hR (fun _ => rfl) fun _ => rfl) fun _ => bind hR hx fun a =>
    bind hR (elsewhere hR (fun _ => rfl) fun _ => rfl) fun _ => pure hR a

/-- What a machine does is done by its native functions. -/
theorem onMachine (hR : Bridge.Allows R)
    {run : Hosted Builtin Bridge → Option (α × Hosted Builtin Bridge)}
    (h : ∀ m a m', run m = some (a, m') → R m.host m'.host) :
    Along R (Session.onMachine run) := by
  intro s a s' hrun
  unfold Session.onMachine at hrun
  split at hrun
  · cases hrun
    exact ⟨hR.refl _, rfl⟩
  · rcases Option.map_eq_some_iff.1 hrun with ⟨⟨a, m⟩, hm, heq⟩
    cases heq
    exact ⟨h _ a m hm, rfl⟩

end Along

namespace Comes

/-- What comes of two activities, one after the other. -/
theorem bind (hR : Bridge.Allows R) (hx : Comes R x) (hf : ∀ a, Comes R (f a)) :
    Comes R (x >>= f) := by
  intro s b s' hrun
  rcases Activity.bind_eq_some hrun with ⟨a, s₁, hfirst, hthen⟩
  exact hR.trans (hx s a s₁ hfirst) (hf a s₁ b s' hthen)

/-- Whether the owner thread is there is not told by the bridge. -/
theorem modify (hR : Bridge.Allows R) {g : Session → Session}
    (h : ∀ s : Session, (g s).bridge = s.bridge) : Comes R (modify g : Activity Unit) := by
  intro s a s' hrun
  cases hrun
  rw [h s]
  exact hR.refl _

theorem ignoring (hR : Bridge.Allows R) (hx : Comes R x) : Comes R (Session.ignoring x) :=
  bind hR hx fun _ => (Along.pure hR _).comes

theorem asOwner (hR : Bridge.Allows R) (hx : Comes R x) : Comes R (Session.asOwner x) := by
  have hactAs (thread : Thread) : Along R (Session.actAs thread) :=
    .elsewhere hR (fun _ => rfl) fun _ => rfl
  exact bind hR (hactAs _).comes fun _ => bind hR hx fun a =>
    bind hR (hactAs _).comes fun _ => (Along.pure hR a).comes

end Comes

/-! ## Activities that leave the queue to others -/

variable (hR : Bridge.Allows R) (budget : Nat)
include hR

/-- A source does what its calls do. -/
theorem along_runCode (source : String) : Along R (Session.runCode budget source) := by
  have hrun : Along R (Session.onMachine (runSource Builtin.run budget source)) :=
    .onMachine hR fun m a m' h => runSource_leads hR.path h
  unfold Session.runCode
  refine .bind hR (.get hR) fun s => ?_
  dsimp only
  split
  · exact .bind hR (.note hR _) fun _ => hrun
  · exact hrun

theorem along_invoke (name : String) (args : List String) :
    Along R (Session.invoke budget name args) := by
  unfold Session.invoke
  refine .bind hR (.onMachine hR fun m a m' h => invoke_leads hR.path h)
    fun outcome => ?_
  rcases outcome with _ | (_ | _ | _ | e)
  · exact .pure hR _
  · exact .pure hR _
  · exact .note hR _
  · exact .pure hR _
  · exact .note hR _

/-- A foreign call does what its function does. -/
theorem along_foreignCall (binding : Option Binding) (id payload : Option String) :
    Along R (Session.foreignCall budget binding id payload) := by
  unfold Session.foreignCall
  split
  · exact .note hR _
  · split
    · exact .pure hR _
    · refine .bind hR (.get hR) fun s => ?_
      split
      · exact .note hR _
      · split
        · exact along_invoke hR budget _ _
        · exact .note hR _

theorem along_onEvent (handler payload : Option String) :
    Along R (Session.onEvent budget handler payload) := by
  unfold Session.onEvent
  split
  · exact .pure hR _
  · refine .bind hR (.get hR) fun s => ?_
    split
    · exact .pure hR _
    · split
      · exact .note hR _
      · split
        · exact .note hR _
        · exact along_invoke hR budget _ _

theorem along_handleAll (handlers : List (Option String × Option String)) :
    Along R (Session.handleAll budget handlers) := by
  induction handlers with
  | nil => exact .pure hR _
  | cons entry rest ih => exact .bind hR (along_onEvent hR budget _ _) fun _ => ih

/-- Dispatching is a request. -/
theorem along_dispatch (source : String) : Along R (Session.dispatch source) := by
  unfold Session.dispatch
  refine .bind hR (.get hR) fun s => ?_
  split
  · exact .onBridge fun b => hR.schedule source b
  · exact .pure hR _

/-- A fragment is run like any source. -/
theorem along_runFragment (f : Fragment) : Along R (Session.runFragment budget f) := by
  have hfinish : Along R (Session.updateBridge (Bridge.finishFragment f)) :=
    .elsewhere hR (fun _ => rfl) fun _ => rfl
  unfold Session.runFragment
  refine .bind hR (along_runCode hR budget _) fun r => ?_
  dsimp only
  split
  · exact .bind hR (.note hR _) fun _ => hfinish
  · exact .bind hR (.note hR _) fun _ => hfinish
  · exact hfinish

theorem along_runDraft (slot : String) : Along R (Session.runDraft budget slot) := by
  unfold Session.runDraft
  refine .bind hR (.onBridge fun b => ?_) fun taken => ?_
  · split
    · exact hR.refl b
    · rename_i h
      rcases Bridge.takeDraft?_eq_some.1 h with ⟨_, rfl⟩
      exact hR.elsewhere rfl rfl
  · split
    · exact .pure hR _
    · exact .bind hR (along_runFragment hR budget _) fun _ => .pure hR _

/-- Sharing a binding is no step of the native side. -/
theorem along_share (find : Bridge → Option Binding) (slot : String) :
    Along R (Session.share find slot) := by
  unfold Session.share
  refine .bind hR (.get hR) fun s => ?_
  split
  · exact .pure hR _
  · refine .elsewhere hR (fun b => ?_) fun b => ?_
    · exact congrArg Prod.fst (b.business_hold _ slot)
    · exact Bridge.native_releaseAny _ _

theorem along_bindHeld (slot name : String) : Along R (Session.bindHeld slot name) := by
  unfold Session.bindHeld
  refine .bind hR (.get hR) fun s => ?_
  split
  · exact .pure hR _
  · exact .ignoring hR (.onBridge fun b => hR.bindNative b _ name)

theorem along_postHeld (slot : String) : Along R (Session.postHeld slot) := by
  unfold Session.postHeld
  refine .bind hR (.get hR) fun s => ?_
  split
  · exact .pure hR _
  · exact .ignoring hR (.onBridge (hR.postDraft slot _))

end Activities

/-! ## Calls that wait for results -/

/-- A call begins to wait before its function is called. -/
theorem along_callBinding {R : Bridge → Bridge → Prop} (hR : Bridge.AllowsCalls R)
    (budget : Nat) (name id payload : String) :
    Along R (Session.callBinding budget name id payload) := by
  intro s r s' hrun
  cases hbound : s.bridge.native.boundTo? name with
  | none =>
      rw [callBinding_of_unbound hbound] at hrun
      cases hrun
      exact ⟨hR.refl _, rfl⟩
  | some x =>
      rw [callBinding_of_bound hbound] at hrun
      rcases Option.map_eq_some_iff.1 hrun with ⟨⟨_, s₁⟩, hcall, heq⟩
      cases heq
      -- before, during and after the callee's run
      have hbegin : R s.bridge ((s.bridge.expectResult id).beginCallback x) :=
        hR.trans (hR.expectResult s.bridge id) (hR.elsewhere rfl rfl)
      rcases along_foreignCall hR.toAllows budget _ _ _ _ _ _ hcall with ⟨hcallee, hspawned⟩
      exact ⟨hR.trans (hR.trans hbegin hcallee) (hR.endCallback x s₁.bridge), hspawned⟩

/-! ## Activities that take from the queue -/

section Loops

variable {R : Bridge → Bridge → Prop} (hR : Bridge.AllowsLoops R) (budget : Nat)
include hR

theorem along_takeUp : Along R (Session.takeUp Bridge.takeQueued?) := by
  refine .onBridge fun b => ?_
  split
  · exact hR.refl b
  · rename_i f b' h
    exact hR.takeQueued h

/-- What is taken from the queue is run. -/
theorem along_pump (n : Nat) : Along R (Session.pump budget n) := by
  induction n with
  | zero =>
      unfold Session.pump
      refine .bind hR.toAllows (along_takeUp hR) fun taken => ?_
      split
      · exact .pure hR.toAllows _
      · exact .unfinished
  | succ n ih =>
      unfold Session.pump
      refine .bind hR.toAllows (along_takeUp hR) fun taken => ?_
      split
      · exact .pure hR.toAllows _
      · exact .bind hR.toAllows (along_runFragment hR.toAllows budget _) fun _ =>
          .bind hR.toAllows ih fun _ => .pure hR.toAllows _

/-- The end of a loop is put together from these steps. -/
theorem along_shutDown : Along R (Session.shutDown budget) := by
  have hleave : Along R
      (Session.updateBridge fun b => { b with native := b.native.update EventLoop.leave }) :=
    .updateBridge hR.leave
  unfold Session.shutDown
  refine .bind hR.toAllows (.updateBridge hR.close) fun _ => ?_
  refine .bind hR.toAllows (along_pump hR budget budget) fun count => ?_
  dsimp only
  split
  · exact .bind hR.toAllows (.note hR.toAllows _) fun _ => hleave
  · exact hleave

theorem along_serve : Along R (Session.serve budget) := by
  unfold Session.serve
  refine .bind hR.toAllows (along_pump hR budget budget) fun _ => ?_
  refine .bind hR.toAllows (.get hR.toAllows) fun s => ?_
  split
  · exact .bind hR.toAllows (along_shutDown hR budget) fun _ => .pure hR.toAllows _
  · exact .pure hR.toAllows _

theorem along_serveToEnd : Along R (Session.serveToEnd budget) := by
  unfold Session.serveToEnd
  refine .bind hR.toAllows (along_serve hR budget) fun ended => ?_
  split
  · exact .pure hR.toAllows _
  · exact .unfinished

/-- So is a run of the loop on the calling thread. -/
theorem along_runLoop : Along R (Session.runLoop budget) := by
  unfold Session.runLoop
  refine .bind hR.toAllows (.onBridge hR.takeLoop) fun started => ?_
  split
  · exact .bind hR.toAllows (along_serveToEnd hR budget) fun _ => .pure hR.toAllows _
  · exact .pure hR.toAllows _

theorem along_run : Along R (Session.run budget) := by
  unfold Session.run
  refine .bind hR.toAllows (.onBridge hR.startWindow) fun started => ?_
  split
  · exact .bind hR.toAllows (along_serveToEnd hR budget) fun _ =>
      .bind hR.toAllows (.updateBridge hR.stop) fun _ => .pure hR.toAllows _
  · exact .pure hR.toAllows _

/-- A new thread begins a run. -/
theorem comes_wake : Comes R Session.wake := by
  unfold Session.wake
  refine .bind hR.toAllows (.asOwner hR.toAllows (Along.onBridge hR.wakeThread).comes)
    fun started => ?_
  split
  · exact .bind hR.toAllows (.modify hR.toAllows fun _ => rfl) fun _ =>
      (Along.pure hR.toAllows _).comes
  · exact (Along.pure hR.toAllows _).comes

/-- The owner thread takes a turn. -/
theorem comes_settle : Comes R (Session.settle budget) := by
  have hstop : Comes R (Session.asOwner (Session.updateBridge Bridge.stopWindow)) :=
    .asOwner hR.toAllows (Along.updateBridge hR.stop).comes
  unfold Session.settle
  refine .bind hR.toAllows (Along.get hR.toAllows).comes fun s => ?_
  split
  · refine .bind hR.toAllows (.asOwner hR.toAllows (along_serve hR budget).comes)
      fun ended => ?_
    dsimp only
    split
    · exact .bind hR.toAllows hstop fun _ =>
        .bind hR.toAllows (.modify hR.toAllows fun _ => rfl) fun _ =>
          (Along.pure hR.toAllows _).comes
    · exact (Along.pure hR.toAllows _).comes
  · exact (Along.pure hR.toAllows _).comes

end Loops

/-! ## Every operation -/

/-- Neither does a call begin to wait for a result, nor does anybody look for one. -/
def Operation.IsPlain : Operation → Prop
  | callBinding _ _ _ => False
  | takeResult _ => False
  | waitResult _ _ _ => False
  | onOwner op => op.IsPlain
  | _ => True

/-- Some thread runs the loop, or has its turn at it. -/
def Operation.RunsLoop : Operation → Prop
  | run => True
  | runLoop => True
  | wake => True
  | settle => True
  | onOwner op => op.RunsLoop
  | _ => False

section Every

variable {R : Bridge → Bridge → Prop} {op : Operation}

/-- Whatever is allowed to be done at once is all that an operation does, if it is over. -/
theorem along_modest (hR : Bridge.Allows R) (budget : Nat) (hplain : op.IsPlain)
    (hloop : ¬ op.RunsLoop) : Along R (op.perform budget) := by
  induction op with
  | code source => exact .ignoring hR (along_runCode hR budget source)
  | invoke name args => exact along_invoke hR budget name args
  | bind name function => exact .ignoring hR (.onBridge (hR.bind name function))
  | unbind name => exact .ignoring hR (.onBridge (hR.unbind name))
  | dispatch source => exact .ignoring hR (along_dispatch hR source)
  | returnValue id status payload =>
      exact .ignoring hR (.onBridge (hR.returnValue id status payload))
  | setHandler slot function => exact .ignoring hR (.onBridge fun b => hR.elsewhere rfl rfl)
  | fire event =>
      exact .bind hR (.get hR) fun _ => along_handleAll hR budget _
  | onEvent handler payload => exact along_onEvent hR budget handler payload
  -- The operations that run a loop, call a bound function or take a result are not plain: the
  -- hypotheses leave them out.
  | run => exact absurd trivial hloop
  | spawn created => exact .updateBridge (hR.spawnThread created)
  | terminate => exact .ignoring hR (.onBridge hR.terminate)
  | schedule source => exact .ignoring hR (.onBridge (hR.schedule source))
  | callBinding name id payload => cases hplain
  | foreignCall slot id payload =>
      exact .bind hR (.get hR) fun _ => along_foreignCall hR budget _ _ _
  | takeResult id => cases hplain
  | waitResult clock timeout id => cases hplain
  | bindNative slot name => exact along_bindHeld hR slot name
  | unbindNative name => exact .ignoring hR (.onBridge fun b => hR.unbindNative b name)
  | runLoop => exact absurd trivial hloop
  | terminateNative => exact .updateBridge hR.terminateNative
  | hold name slot => exact along_share hR _ slot
  | copy source slot => exact along_share hR _ slot
  | holdNew slot function =>
      refine .ignoring hR (.onBridge fun b => hR.of_business (b.business_holdNew slot function) ?_)
      exact Bridge.native_releaseAny _ _
  -- What a slot holds is no part of the window or the loop.
  | letGo slot =>
      refine .elsewhere hR (fun b => ?_) fun b => ?_
      · exact congrArg Prod.fst (b.business_letGo slot)
      · exact Bridge.native_releaseAny _ _
  | draft slot source =>
      refine .elsewhere hR (fun b => ?_) fun b => ?_
      · exact congrArg Prod.fst (b.business_draft slot source)
      · exact Bridge.native_discardDraft _ slot
  | postDraft slot => exact along_postHeld hR slot
  | runDraft slot => exact .ignoring hR (along_runDraft hR budget slot)
  | discardDraft slot =>
      refine .elsewhere hR (fun b => ?_) fun b => ?_
      · exact congrArg Prod.fst (b.business_discardDraft slot)
      · exact b.native_discardDraft slot
  | wake => exact absurd trivial hloop
  | settle => exact absurd trivial hloop
  | onOwner op ih => exact .asOwner hR (ih hplain hloop)
  | dropMachine =>
      intro s a s' hrun
      cases hrun
      exact ⟨hR.refl _, rfl⟩

/-- The same with calls and looks. -/
theorem along_calls (hR : Bridge.AllowsCalls R) (budget : Nat) (hloop : ¬ op.RunsLoop) :
    Along R (op.perform budget) := by
  induction op with
  | callBinding name id payload =>
      exact .ignoring hR.toAllows (along_callBinding hR budget name id payload)
  | takeResult id => exact .ignoring hR.toAllows (.onBridge fun b => hR.takeResult b id)
  | waitResult clock timeout id =>
      exact .ignoring hR.toAllows (.onBridge (hR.waitResult clock timeout id))
  | onOwner op ih => exact .asOwner hR.toAllows (ih hloop)
  | _ => exact along_modest hR.toAllows budget trivial hloop

/-- The same with those who run the loop. -/
theorem comes_plain (hR : Bridge.AllowsLoops R) (budget : Nat) (hplain : op.IsPlain) :
    Comes R (op.perform budget) := by
  induction op with
  | run => exact .ignoring hR.toAllows (along_run hR budget).comes
  | runLoop => exact .ignoring hR.toAllows (along_runLoop hR budget).comes
  | wake => exact .ignoring hR.toAllows (comes_wake hR)
  | settle => exact .ignoring hR.toAllows (comes_settle hR budget)
  | onOwner op ih => exact .asOwner hR.toAllows (ih hplain)
  | _ => exact (along_modest hR.toAllows budget hplain id).comes

/-- Whatever a relation has for the steps, it has for every operation. -/
theorem comes_perform (hcalls : Bridge.AllowsCalls R) (hloops : Bridge.AllowsLoops R)
    (budget : Nat) (op : Operation) : Comes R (op.perform budget) := by
  induction op with
  | callBinding => exact (along_calls hcalls budget id).comes
  | takeResult => exact (along_calls hcalls budget id).comes
  | waitResult => exact (along_calls hcalls budget id).comes
  | onOwner op ih => exact .asOwner hcalls.toAllows ih
  | _ => exact comes_plain hloops budget trivial

end Every

end Host
end ScriptHost
