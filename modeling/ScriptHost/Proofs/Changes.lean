import ScriptHost.Proofs.Balance
import ScriptHost.Proofs.Execution

/-!
# How a bridge changes

Whatever is done to a bridge, by its callers, by the thread that runs the loop or by a script, is
done in small changes, each of them at once. A change keeps the records in balance, and what it does
to the phase of the window can be told from the calls that mark the window, get its loop, are turned
away or come to their end with it.
-/

namespace ScriptHost

open Script

namespace Machine

/-! ## Executions -/

section Executions

variable {ν σ : Type} {natives : Natives ν σ} {R : σ → σ → Prop} (hR : natives.Path R)
variable {m m' : Hosted ν σ} {r : Except ScriptError Unit}
include hR

/-- Arguments concern the stack alone. -/
theorem leads_pushAll (values : List Value) : Leads R (pushAll values : Exec ν σ Unit) := by
  induction values with
  | nil => exact leads_same hR fun _ => rfl
  | cons v rest ih => exact leads_bind hR (leads_onStack hR _) fun _ => ih

/-- However an execution begins, the host comes from where it was. -/
theorem begins_leads (h : Begins natives m r m') : R m.host m'.host := by
  cases h with
  | @source source _ _ h =>
      have hbegin := leads_beginSource hR source m
      rwa [h] at hbegin
  | @refused source _ _ h =>
      have hbegin := leads_beginSource hR source m
      rwa [h] at hbegin
  | @invoke name args vm _ _ _ h =>
      have hbegin := leads_bind hR (leads_pushTexts hR args) (fun _ => leads_call hR)
        { m with vm := vm }
      exact congrArg (fun ended => R m.host ended.2.host) h ▸ hbegin
  | @call name values vm _ _ _ h =>
      have hbegin := leads_bind hR (leads_pushAll hR values) (fun _ => leads_call hR)
        { m with vm := vm }
      rwa [h] at hbegin

/-- What relates the host before and after each native call relates it before and after any
execution. -/
theorem execution_leads (h : Execution natives m m') : R m.host m'.host := by
  induction h with
  | begun hbegins => exact begins_leads hR hbegins
  | @next m₁ _ _ _ hstep ih =>
      have hleads := leads_step hR m₁
      rw [hstep] at hleads
      exact hR.trans ih hleads

end Executions

end Machine

namespace Host

open Machine

/-! ## What a change leaves alone -/

namespace Bridge

/-- The ledger with all that it counts, the phase of the window, and the threads that have not begun
to run it. -/
structure Picture where
  phase : Phase
  waiting : Nat
  ledger : Ledger
  registry : Store.Table Binding
  bindings : List Binding
  held : Store.Table Binding
  inProgress : List Binding
  queue : List Fragment
  drafts : Store.Table Fragment
  inHand : List Fragment

/-- The parts of a bridge that changes are about. -/
def picture (b : Bridge) : Picture :=
  ⟨b.window.phase, b.waiting, b.ledger, b.window.registry, b.native.bindings, b.held, b.inProgress,
    b.native.queue, b.drafts, b.inHand⟩

/-- Nothing of the picture is touched. -/
def Quiet (b b' : Bridge) : Prop :=
  b'.picture = b.picture

/-- A quiet change keeps the books in order. -/
theorem Quiet.conserves {b b' : Bridge} (h : b.Quiet b') : b.Conserves b' := by
  have halive : b'.alive = b.alive := congrArg (fun p : Picture =>
    idsOf (p.registry.values ++ p.bindings ++ p.held.values ++ p.inProgress)) h
  have hheld : b'.fragmentsHeld = b.fragmentsHeld := congrArg (fun p : Picture =>
    p.queue.length + p.drafts.size + p.inHand.length) h
  exact conserves_of_same (congrArg Picture.ledger h) halive hheld

/-- What is going on: the phase of the window, the fragments and the callbacks that are run. -/
def business (b : Bridge) : Phase × List Fragment × List Binding :=
  (b.window.phase, b.inHand, b.inProgress)

theorem Quiet.business {b b' : Bridge} (h : b.Quiet b') : b'.business = b.business :=
  congrArg (fun p : Picture => (p.phase, p.inHand, p.inProgress)) h

/-- All that a request leaves alone, whatever becomes of it: it touches the native side, the tables
of the window, and what is written down. -/
def surroundings (b : Bridge) :=
  (b.business, b.held, b.drafts, b.thread, b.waiting, b.calls)

section Surroundings

variable (b : Bridge) (x : Binding) (f : Fragment) (name source function : String)

/-- A release concerns the ledger alone. -/
theorem surroundings_releaseAny (old : Option Binding) :
    (b.releaseAny old).surroundings = b.surroundings := by
  rcases b.releaseAny_eq old with ⟨n, heq⟩
  rw [heq]
  rfl

/-- A name that is bound leaves the surroundings alone. -/
theorem surroundings_bindNative : (bindNative name x b).2.surroundings = b.surroundings := by
  unfold bindNative
  split <;> rfl

theorem surroundings_unbindNative : (unbindNative name b).2.surroundings = b.surroundings := by
  unfold unbindNative
  split
  · rfl
  · exact surroundings_releaseAny _ _

theorem surroundings_postNative : (postNative f b).2.surroundings = b.surroundings := by
  unfold postNative
  split <;> rfl

theorem surroundings_bind : (Request.bind name function b).2.surroundings = b.surroundings := by
  have hnative := (b.newBinding function).2.surroundings_bindNative (b.newBinding function).1 name
  unfold Request.bind
  dsimp only
  split
  · rename_i hbind
    rw [hbind] at hnative
    exact (surroundings_releaseAny _ (some _)).trans hnative
  · rename_i hbind
    rw [hbind] at hnative
    exact (surroundings_releaseAny _ _).trans hnative

/-- A request about bindings leaves the surroundings alone. -/
theorem surroundings_unbind : (Request.unbind name b).2.surroundings = b.surroundings := by
  have hnative := b.surroundings_unbindNative name
  rw [← Request.ofNative_snd] at hnative
  unfold Request.unbind
  rw [Attempt.bind_apply]
  rcases hfirst : Request.ofNative (unbindNative name) b with ⟨e | _, b₁⟩
  · rw [hfirst] at hnative
    exact hnative
  · rw [hfirst] at hnative
    exact (surroundings_releaseAny _ _).trans hnative

theorem surroundings_schedule : (Request.schedule source b).2.surroundings = b.surroundings := by
  have hpost := (b.newFragment source).2.surroundings_postNative (b.newFragment source).1
  unfold Request.schedule
  dsimp only
  split
  · rename_i h
    rw [h] at hpost
    exact hpost
  · rename_i h
    rw [h] at hpost
    exact hpost

theorem surroundings_returnValue (id : String) (status : Int) (payload : String) :
    (Request.returnValue id status payload b).2.surroundings = b.surroundings := by
  unfold Request.returnValue
  rw [Request.ofNative_snd]
  unfold resolveNative
  split <;> rfl

end Surroundings

section Business

variable (b : Bridge) (x : Binding) (f : Fragment) (name slot source function : String)

/-- Whatever happens to bindings is no business of the window's. -/
@[simp]
theorem business_releaseAny (old : Option Binding) : (b.releaseAny old).business = b.business :=
  congrArg Prod.fst (b.surroundings_releaseAny old)

@[simp]
theorem business_release : (b.release x).business = b.business :=
  b.business_releaseAny (some x)

@[simp]
theorem business_enroll : (b.enroll name x).business = b.business :=
  business_releaseAny _ _

@[simp]
theorem business_strike : (b.strike name).business = b.business :=
  business_releaseAny _ _

@[simp]
theorem business_hold : (b.hold slot x).business = b.business :=
  business_releaseAny _ _

theorem business_holdNew : (b.holdNew slot function).2.business = b.business :=
  business_hold _ _ _

@[simp]
theorem business_letGo : (b.letGo slot).business = b.business :=
  business_releaseAny _ _

@[simp]
theorem business_bindNative : (bindNative name x b).2.business = b.business :=
  congrArg Prod.fst (b.surroundings_bindNative x name)

@[simp]
theorem business_unbindNative : (unbindNative name b).2.business = b.business :=
  congrArg Prod.fst (b.surroundings_unbindNative name)

@[simp]
theorem business_postNative : (postNative f b).2.business = b.business :=
  congrArg Prod.fst (b.surroundings_postNative f)

theorem business_bind : (Request.bind name function b).2.business = b.business :=
  congrArg Prod.fst (b.surroundings_bind name function)

theorem business_unbind : (Request.unbind name b).2.business = b.business :=
  congrArg Prod.fst (b.surroundings_unbind name)

theorem business_schedule : (Request.schedule source b).2.business = b.business :=
  congrArg Prod.fst (b.surroundings_schedule source)

theorem business_discardDraft : (b.discardDraft slot).business = b.business := by
  unfold discardDraft
  split <;> rfl

theorem business_draft : (b.draft slot source).business = b.business :=
  business_discardDraft (b.newFragment source).2 slot

theorem business_postDraft : (postDraft slot f b).2.business = b.business := by
  have hpost := b.business_postNative f
  unfold postDraft
  rw [Attempt.bind_apply]
  rcases h : postNative f b with ⟨e | _, b₁⟩
  · rw [h] at hpost
    exact hpost
  · rw [h] at hpost
    exact hpost

end Business

end Bridge

/-! ## Changes -/

/-- What can be seen of a change. A call that is to run the window marks it: a run does so before it
asks for the loop, a spawn before its thread is created, and that thread once more when it begins.
It is told whether the window was idle, so that this call has made it run. -/
inductive WindowEvent
  | called (marked : Bool)
  | spawning (marked : Bool)
  | woken (marked : Bool)
  -- the thread of a spawn is there, or there can be none
  | created (marked : Bool)
  | refused (marked : Bool)
  -- a run that has asked for the loop
  | began
  | turnedAway
  | ended
  | other
  deriving DecidableEq

open WindowEvent

/-- What is done at once to a bridge, by whichever thread. Between two changes of one thread there
may be any number of changes of others. -/
inductive Bridge.Change : Bridge → WindowEvent → Bridge → Prop
  -- the handlers, the journal, results, and what others do to the loop
  | aside {b b'} : b.Quiet b' → Change b other b'
  -- the window
  | call {b} : Change b (called b.markWindow.1) b.markWindow.2
  | begin {b b'} : b.takeLoop = (true, b') → Change b began b'
  | turnAway {b b'} : b.takeLoop = (false, b') → Change b turnedAway b'
  | stop {b} : Change b ended b.stopWindow
  | terminate {b} : Change b other (Request.terminate b).2
  -- threads for the window
  | spawn {b} : Change b (spawning b.markWindow.1) b.markWindow.2
  | create {b marked} : Change b (created marked) { b with waiting := b.waiting + 1 }
  | refuse {b marked} : Change b (refused marked) (if marked then b.unmarkWindow else b)
  | wake {b n} : b.waiting = n + 1 →
      Change b (woken b.markWindow.1) { b.markWindow.2 with waiting := n }
  -- bindings
  | bind {b name function} : Change b other (Request.bind name function b).2
  | unbind {b name} : Change b other (Request.unbind name b).2
  | bindNative {b name x} : x ∈ b.references → Change b other (Bridge.bindNative name x b).2
  | unbindNative {b name} : Change b other (Bridge.unbindNative name b).2
  | strike {b name} : Change b other (b.strike name)
  | hold {b slot x} : x ∈ b.references → Change b other (b.hold slot x)
  | holdNew {b slot function} : Change b other (b.holdNew slot function).2
  | letGo {b slot} : Change b other (b.letGo slot)
  | beginCallback {b x} : x ∈ b.references → Change b other (b.beginCallback x)
  | endCallback {b x} : x ∈ b.inProgress → Change b other (b.endCallback x)
  -- fragments
  | schedule {b source} : Change b other (Request.schedule source b).2
  | takeQueued {b f b'} : b.takeQueued? = some (f, b') → Change b other b'
  | takeDraft {b slot f b'} : b.takeDraft? slot = some (f, b') → Change b other b'
  | finishFragment {b f} : f ∈ b.inHand → Change b other (b.finishFragment f)
  | draft {b slot source} : Change b other (b.draft slot source)
  | postDraft {b slot f} :
      b.drafts.get? slot = some f → Change b other (Bridge.postDraft slot f b).2
  | discardDraft {b slot} : Change b other (b.discardDraft slot)

/-- Any number of changes with what can be seen of them, the latest last. -/
inductive Bridge.Changes (b : Bridge) : List WindowEvent → Bridge → Prop
  | nil : Changes b [] b
  | snoc {events b₁ e b₂} : Changes b events b₁ → Bridge.Change b₁ e b₂ →
      Changes b (events ++ [e]) b₂

namespace Bridge

/-- Changes, and then some more. -/
theorem Changes.trans {b b₁ b₂ : Bridge} {events events' : List WindowEvent}
    (h : b.Changes events b₁) (h' : b₁.Changes events' b₂) : b.Changes (events ++ events') b₂ := by
  induction h' with
  | nil => rwa [List.append_nil]
  | snoc _ hchange ih =>
      rw [← List.append_assoc]
      exact ih.snoc hchange

theorem Change.changes {b b' : Bridge} {e : WindowEvent} (h : b.Change e b') :
    b.Changes [e] b' :=
  .snoc .nil h

/-! ## The loop under the window -/

/-- A loop may do anything but touch its names and its queue. -/
theorem quiet_of_headless {b : Bridge} {l l' : EventLoop Fragment} (h : b.native = .headless l)
    (hbindings : l'.bindings = l.bindings) (hqueue : l'.queue = l.queue) :
    b.Quiet { b with native := .headless l' } := by
  unfold Quiet picture
  rw [h]
  simp [Native.bindings, Native.queue, Native.headless?, hbindings, hqueue]

/-- An update of the loop is quiet if it leaves the names and the queue. -/
theorem quiet_update {b : Bridge} {g : EventLoop Fragment → EventLoop Fragment}
    (hbindings : ∀ l, (g l).bindings = l.bindings) (hqueue : ∀ l, (g l).queue = l.queue) :
    b.Quiet { b with native := b.native.update g } := by
  cases h : b.native with
  | headless l => exact quiet_of_headless h (hbindings l) (hqueue l)
  | refusing e =>
      unfold Quiet picture
      rw [h]
      rfl

/-- Taking the loop over is no change of the picture. -/
theorem quiet_takeLoop (b : Bridge) : b.Quiet b.takeLoop.2 := by
  unfold takeLoop
  split
  · rfl
  · rename_i l hl
    split
    · rfl
    · rename_i l' henter
      rcases EventLoop.enter?_eq_some.1 henter with ⟨_, rfl⟩
      exact quiet_of_headless hl rfl rfl

/-- Whether or not a run gets the loop, it leaves the window as it has marked it. -/
theorem phase_startWindow (b : Bridge) : b.startWindow.2.window.phase = b.window.phase.start :=
  congrArg Picture.phase (quiet_takeLoop (b.markWindow.2.note .loopStarted))

/-- A run asks for the loop, and gets it or is turned away. -/
theorem change_takeLoop (b : Bridge) : ∃ e, b.Change e b.takeLoop.2 := by
  rcases h : b.takeLoop with ⟨_ | _, b'⟩
  · exact ⟨_, .turnAway h⟩
  · exact ⟨_, .begin h⟩

/-- However a run has marked the window, it goes on by writing that down and asking for the loop. -/
theorem Changes.ask {b b' : Bridge} {events : List WindowEvent} (h : b.Changes events b') :
    ∃ events', b.Changes events' (b'.note .loopStarted).takeLoop.2 := by
  rcases (b'.note .loopStarted).change_takeLoop with ⟨e, htake⟩
  have hnote : b'.Change other (b'.note .loopStarted) := .aside rfl
  exact ⟨_, (h.snoc hnote).snoc htake⟩

/-- A run begins with a call, and then it begins to run or is turned away. -/
theorem changes_startWindow (b : Bridge) : ∃ events, b.Changes events b.startWindow.2 :=
  (Change.changes .call).ask

/-- There is no thread, or it starts the window like any other. -/
theorem wakeThread_cases (b : Bridge) :
    b.wakeThread = (false, b) ∨
      ∃ n, b.waiting = n + 1 ∧ b.wakeThread = startWindow { b with waiting := n } := by
  unfold wakeThread
  split
  · exact .inl rfl
  · exact .inr ⟨_, ‹_›, rfl⟩

/-- A thread that wakes up makes the changes of a run that begins. -/
theorem changes_wakeThread (b : Bridge) : ∃ events, b.Changes events b.wakeThread.2 := by
  rcases b.wakeThread_cases with h | ⟨n, hwaiting, h⟩
  · rw [h]
    exact ⟨[], .nil⟩
  · rw [h]
    exact (Change.changes (.wake hwaiting)).ask

/-- A spawn marks the window, and has a thread created or takes the mark back. -/
theorem changes_spawnThread (b : Bridge) (created : Bool) :
    ∃ events, b.Changes events (b.spawnThread created) := by
  have hspawn : b.Changes _ b.markWindow.2 := Change.changes .spawn
  cases created with
  | true => exact ⟨_, hspawn.snoc (@Change.create _ b.markWindow.1)⟩
  | false => exact ⟨_, hspawn.snoc (@Change.refuse _ b.markWindow.1)⟩

/-- If no thread can be created, a mark that nobody has touched in the meantime is taken back. -/
theorem spawnThread_false (b : Bridge) : b.spawnThread false = b := by
  rcases b with ⟨⟨phase, _, _⟩⟩
  cases phase <;> rfl

/-! ## What every change keeps -/

section Change

variable {b b' : Bridge} {e : WindowEvent}

/-- Phases do not count, so marking a window as running or idle is no matter of records. -/
theorem conserves_phase (p : Phase) : b.Conserves { b with window.phase := p } :=
  conserves_of_same rfl rfl rfl

/-- Threads that have not begun hold no records. -/
theorem conserves_waiting (n : Nat) : b.Conserves { b with waiting := n } :=
  conserves_of_same rfl rfl rfl

/-- No change loses a record. -/
theorem Change.conserves (h : b.Change e b') : b.Conserves b' := by
  have hloop := b.quiet_takeLoop.conserves
  -- What only moves the phase, the waiting threads or the journal leaves both counts as they were;
  -- each change of references or fragments has its own lemma.
  cases h with
  | aside h => exact h.conserves
  | call => exact conserves_phase _
  | begin h =>
      rw [h] at hloop
      exact hloop
  | turnAway h =>
      rw [h] at hloop
      exact hloop
  | spawn => exact conserves_phase _
  | create => exact conserves_waiting _
  | @refuse marked =>
      cases marked with
      | true => exact conserves_phase _
      | false => exact .refl b
  | @wake n _ => exact (conserves_phase _).trans (conserves_waiting n)
  | stop => exact (conserves_phase _).trans (conserves_note _ _)
  | terminate =>
      have hloop : b.Quiet { b with native := b.native.terminate } :=
        quiet_update (fun _ => rfl) fun _ => rfl
      exact hloop.conserves.trans (conserves_phase _)
  | bind => exact b.conserves_bind _ _
  | unbind => exact b.conserves_unbind _
  | bindNative hx => exact conserves_bindNative _ hx
  | unbindNative => exact b.conserves_unbindNative _
  | strike => exact b.conserves_strike _
  | hold hx => exact conserves_hold _ hx
  | holdNew => exact b.conserves_holdNew _ _
  | letGo => exact b.conserves_letGo _
  | beginCallback hx => exact conserves_beginCallback hx
  | endCallback hx => exact conserves_endCallback hx
  | schedule => exact b.conserves_schedule _
  | takeQueued h => exact conserves_takeQueued h
  | takeDraft h => exact conserves_takeDraft h
  | finishFragment hf => exact conserves_finishFragment hf
  | draft => exact b.conserves_draft _ _
  | postDraft hf => exact conserves_postDraft hf
  | discardDraft => exact b.conserves_discardDraft _

theorem Changes.conserves {events : List WindowEvent} (h : b.Changes events b') :
    b.Conserves b' := by
  induction h with
  | nil => exact .refl b
  | snoc _ hchange ih => exact ih.trans hchange.conserves

end Change

/-! ## Scripts -/

/-- From the first bridge the second one comes about by changes, and no fragment or callback is
begun or ended but those that are begun and ended in between. -/
structure Steady (b b' : Bridge) : Prop where
  changes : ∃ events, b.Changes events b'
  inHand : b'.inHand = b.inHand
  inProgress : b'.inProgress = b.inProgress

namespace Steady

variable {b b₁ b₂ : Bridge} {e : WindowEvent}

theorem refl (b : Bridge) : b.Steady b :=
  ⟨⟨[], .nil⟩, rfl, rfl⟩

/-- One change after the other. -/
theorem trans (h : b.Steady b₁) (h' : b₁.Steady b₂) : b.Steady b₂ := by
  rcases h.changes with ⟨events, hchanges⟩
  rcases h'.changes with ⟨events', hchanges'⟩
  exact ⟨⟨_, hchanges.trans hchanges'⟩, h'.inHand.trans h.inHand,
    h'.inProgress.trans h.inProgress⟩

/-- A change that is none of the window's business. -/
theorem of_change (h : b.Change e b₁) (hbusiness : b₁.business = b.business) : b.Steady b₁ :=
  ⟨⟨[e], h.changes⟩, congrArg (·.2.1) hbusiness, congrArg (·.2.2) hbusiness⟩

/-- A quiet change, of which the window sees nothing. -/
theorem of_quiet (h : b.Quiet b₁) : b.Steady b₁ :=
  of_change (.aside h) h.business

end Steady

/-- Results are kept apart from names and records. -/
theorem quiet_resolveNative (b : Bridge) (id : String) (result : CallResult) :
    b.Quiet (resolveNative id result b).2 := by
  unfold resolveNative
  cases hnative : b.native with
  | refusing e => rfl
  | headless l =>
      simp only [Native.resolve, Native.attempt, EventLoop.resolve]
      split
      · rfl
      · rename_i n hn
        split at hn
        · cases hn
          exact quiet_of_headless hnative rfl rfl
        · cases hn

/-- A result that comes in is no change of the picture. -/
theorem quiet_returnValue (b : Bridge) (id : String) (status : Int) (payload : String) :
    b.Quiet (Request.returnValue id status payload b).2 := by
  rw [Request.returnValue, Request.ofNative_snd]
  exact b.quiet_resolveNative id _

theorem quiet_takeResult (b : Bridge) (id : String) : b.Quiet (b.takeResult id).2 := by
  unfold takeResult
  split
  · rename_i hnative
    exact quiet_of_headless hnative rfl rfl
  · rfl

theorem Quiet.trans {b b₁ b₂ : Bridge} (h : b.Quiet b₁) (h' : b₁.Quiet b₂) : b.Quiet b₂ :=
  Eq.trans h' h

/-- A wait looks for results and does nothing else. -/
theorem quiet_waitResult (b : Bridge) (clock : Clock) (timeout : Nat) (id : String) :
    b.Quiet (b.waitResult clock timeout id).2 := by
  have hfirst := b.quiet_takeResult id
  unfold waitResult
  split
  · rfl
  · split
    · rename_i h
      rw [h] at hfirst
      exact hfirst
    · rename_i b₁ h
      rw [h] at hfirst
      exact hfirst.trans (b₁.quiet_takeResult id)

/-- A window that is terminated does not come back. -/
theorem steady_terminate (b : Bridge) : b.Steady (Request.terminate b).2 :=
  ⟨⟨_, Change.changes .terminate⟩, rfl, rfl⟩

/-- Whether or not it is turned away, a run that begins is none of what goes on around it. -/
theorem steady_startWindow (b : Bridge) : b.Steady b.startWindow.2 := by
  have hquiet := quiet_takeLoop (b.markWindow.2.note .loopStarted)
  exact ⟨b.changes_startWindow, congrArg Picture.inHand hquiet, congrArg Picture.inProgress hquiet⟩

/-- A thread that begins does what a run does. -/
theorem steady_wakeThread (b : Bridge) : b.Steady b.wakeThread.2 := by
  rcases b.wakeThread_cases with h | ⟨n, _, h⟩
  · rw [h]
    exact .refl b
  · -- one thread less waits, and apart from that a run begins
    have hstart := steady_startWindow { b with waiting := n }
    rw [← h] at hstart
    exact ⟨b.changes_wakeThread, hstart.inHand, hstart.inProgress⟩

theorem steady_spawnThread (b : Bridge) (created : Bool) : b.Steady (b.spawnThread created) := by
  refine ⟨b.changes_spawnThread created, ?_, ?_⟩
  · cases created with
    | true => rfl
    | false => rw [b.spawnThread_false]
  · cases created with
    | true => rfl
    | false => rw [b.spawnThread_false]

/-- Whatever a script asks of the window is done in changes. -/
theorem steady_action {f : ApiFunction} {args : List Value} {x : Request Unit}
    (h : f.action args = .ok (.request x)) (b : Bridge) : b.Steady (x b).2 := by
  rcases ApiFunction.action_cases h with ⟨foreign, function, rfl⟩ | ⟨foreign, rfl⟩ |
    ⟨source, rfl⟩ | ⟨id, status, payload, rfl⟩ | rfl | ⟨slot, function, rfl⟩
  · exact .of_change .bind (b.business_bind foreign function)
  · exact .of_change .unbind (b.business_unbind foreign)
  · exact .of_change .schedule (b.business_schedule source)
  · exact .of_quiet (b.quiet_returnValue id status payload)
  · exact b.steady_terminate
  · exact .of_quiet rfl

/-- A failure is noted at most. -/
theorem quiet_afterOutcome (r : Except HostError Unit) (b : Bridge) :
    b.Quiet (ApiFunction.afterOutcome r b) := by
  unfold ApiFunction.afterOutcome
  split <;> exact rfl

/-- Every function of the interface changes the bridge in steps. -/
theorem steady_api (f : ApiFunction) (args : List Value) (b : Bridge) :
    b.Steady (f.run args b).2 := by
  unfold ApiFunction.run
  rcases haction : f.action args with e | x | v
  · exact .refl b
  · exact (steady_action haction b).trans (.of_quiet (quiet_afterOutcome _ _))
  · exact .refl b

theorem steady_builtin (f : Builtin) (args : List Value) (b : Bridge) :
    b.Steady (f.run args b).2 := by
  cases f with
  | recorder r => exact .of_quiet rfl
  | probe => exact .refl b
  | probeRun =>
      show b.Steady (Builtin.runAgain b).2
      unfold Builtin.runAgain
      split
      · exact b.steady_startWindow
      · exact .refl b
  | api f => exact steady_api f args b

/-- Calls of native functions follow one another in changes. -/
theorem path_steady : Natives.Path Builtin.run Steady :=
  ⟨.refl, .trans, fun f args b => steady_builtin f args b⟩

/-- Wherever a script is, the bridge has come there by changes, and what is being run around the
script is still being run. -/
theorem steady_execution {m m' : Hosted Builtin Bridge} (h : Execution Builtin.run m m') :
    m.host.Steady m'.host :=
  execution_leads path_steady h

end Bridge

end Host
end ScriptHost
