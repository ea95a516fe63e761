import ScriptHost.Host.EventLoop

/-!
# Histories of an event loop

Whoever has a record may post it, and anyone may terminate the loop, at any time and on any thread,
also while the owner of the loop runs a record. Their turns and those of the owner come in any
order. A post takes two turns, since it looks at the loop and sends its record afterwards, all of
it under a lock that posts share; the owner closes the queue under the same lock by itself.

From what a single turn can do follows what holds after any number of them: the records that have
been handed over, together with those in the queue, are the records that were accepted, in the same
order. A loop that has been left has nothing in the queue, and never again accepts a record.
-/

namespace ScriptHost
namespace Host

variable {ρ : Type}

/-! ## Operations on the queue -/

namespace EventLoop

variable {l l' : EventLoop ρ} {r : ρ} {e : NativeError}

theorem isOpen_eq_true : l.isOpen = true ↔ l.closed = false ∧ l.isTerminated = false := by
  simp [isOpen]

/-- A loop refuses posts once it has been closed or told to end. -/
theorem isOpen_eq_false : l.isOpen = false ↔ l.closed = true ∨ l.isTerminated = true := by
  unfold isOpen
  cases l.closed <;> simp

/-- What is accepted goes to the end of the queue. -/
theorem send_eq_ok :
    l.send r = .ok l' ↔ l.queue.length < l.capacity ∧ l' = { l with queue := l.queue ++ [r] } := by
  unfold send
  split
  · constructor
    · intro h
      cases h
    · intro h
      omega
  · constructor
    · intro h
      cases h
      exact ⟨by omega, rfl⟩
    · rintro ⟨_, rfl⟩
      rfl

/-- Only a full queue refuses what is sent, and it always does. -/
theorem send_eq_error :
    l.send r = .error e ↔ l.capacity ≤ l.queue.length ∧ e = .canceled := by
  unfold send
  split
  · constructor
    · intro h
      cases h
      exact ⟨‹_›, rfl⟩
    · rintro ⟨_, rfl⟩
      rfl
  · constructor
    · intro h
      cases h
    · intro h
      omega

/-- What is taken is the head of the queue. -/
theorem next?_eq_some :
    l.next? = some (r, l') ↔ l.queue = r :: l'.queue ∧ l' = { l with queue := l'.queue } := by
  unfold next?
  split
  · simp [*]
  · rename_i r' rest hqueue
    rw [hqueue]
    constructor
    · intro h
      cases h
      exact ⟨rfl, rfl⟩
    · rintro ⟨h, hl⟩
      cases h
      rw [← hl]

theorem next?_eq_none : l.next? = none ↔ l.queue = [] := by
  unfold next?
  split <;> simp [*]

/-- Only a free loop can be taken over. -/
theorem enter?_eq_some :
    l.enter? = some l' ↔
      l.owned = false ∧ l' = { l with owned := true, phase := l.phase.start } := by
  unfold enter?
  cases l.owned with
  | true => simp
  | false => simp [eq_comm]

end EventLoop

/-! ## The owner -/

/-- Where the thread is that runs the loop. While it serves it looks for a record first, then
whether to stop, then it waits for a record or a wake-up; in the end it closes the queue and drains
what is left. -/
inductive Stage (ρ : Type)
  | away
  | serving
  | running (r : ρ)
  | checking
  | waiting
  | closing
  | draining
  | drainRunning (r : ρ)
  | leaving

namespace Stage

/-- Whether the owner has closed the queue and empties it. -/
def drains : Stage ρ → Bool
  | .draining => true
  | .drainRunning _ => true
  | _ => false

/-- The stages at which the queue has been closed. -/
def isShut : Stage ρ → Bool
  | .draining => true
  | .drainRunning _ => true
  | .leaving => true
  | _ => false

end Stage

/-- What the owner does without touching the loop. -/
inductive Moves (l : EventLoop ρ) : Stage ρ → Stage ρ → Prop
  | finish {r} : Moves l (.running r) .serving
  | check : l.next? = none → Moves l .serving .checking
  | stop : l.isTerminated = true → Moves l .checking .closing
  | wait : l.isTerminated = false → Moves l .checking .waiting
  | wake : Moves l .waiting .serving
  | drained {r} : Moves l (.drainRunning r) .draining
  | exhaust : l.next? = none → Moves l .draining .leaving

/-- Where the owner takes a record from the queue and runs it. -/
inductive Hands (r : ρ) : Stage ρ → Stage ρ → Prop
  | take : Hands r .serving (.running r)
  | receive : Hands r .waiting (.running r)
  | drain : Hands r .draining (.drainRunning r)

/-! ## Turns -/

/-- A loop with those who are at work on it: its owner, and the posts that have found it open and
hold the lock until their records are sent. -/
structure Scene (ρ : Type) where
  loop : EventLoop ρ
  stage : Stage ρ
  sending : List ρ

/-- Nobody owns the loop, and nobody has begun to post. -/
def Scene.start (capacity : Nat) : Scene ρ :=
  ⟨.new capacity, .away, []⟩

/-- What can be seen of a turn: how a post goes on or ends, when a record is handed over to be run,
and how a run of the loop begins and ends. A run that is turned away has returned at once. -/
inductive LoopEvent (ρ : Type)
  | admitted (r : ρ)
  | accepted (r : ρ)
  | refused (r : ρ) (e : NativeError)
  | handed (r : ρ)
  | entered
  | turnedAway
  | returned
  | other

open LoopEvent

/-- One thing that some thread does to the loop. A post looks whether the loop is open, and later
sends, with other turns in between; only the closing of the queue waits for all posts that are
between the two. -/
inductive Turn : Scene ρ → LoopEvent ρ → Scene ρ → Prop
  -- from here on the post has its share of the lock
  | allow {c r} : c.loop.isOpen = true → Turn c (admitted r) { c with sending := r :: c.sending }
  | refuse {c r} : c.loop.isOpen = false → Turn c (refused r .invalidState) c
  | accept {c r a b l} : c.sending = a ++ r :: b → c.loop.send r = .ok l →
      Turn c (accepted r) { c with loop := l, sending := a ++ b }
  -- the record goes back to whoever posted it
  | cancel {c r a b e} : c.sending = a ++ r :: b → c.loop.send r = .error e →
      Turn c (refused r e) { c with sending := a ++ b }
  | terminate {c} : Turn c other { c with loop := c.loop.terminate }
  | enter {c l} : c.loop.enter? = some l → Turn c entered { c with loop := l, stage := .serving }
  | turnAway {c} : c.loop.enter? = none → Turn c turnedAway c
  | move {c stage} : Moves c.loop c.stage stage → Turn c other { c with stage := stage }
  | hand {c r stage l} : Hands r c.stage stage → c.loop.next? = some (r, l) →
      Turn c (handed r) { c with loop := l, stage := stage }
  -- the lock as a whole: no post is under way
  | close {c} : c.stage = .closing → c.sending = [] →
      Turn c other { c with loop := c.loop.close, stage := .draining }
  | leave {c} : c.stage = .leaving →
      Turn c returned { c with loop := c.loop.leave, stage := .away }
  -- bindings and results have nothing to do with the queue
  | aside {c bindings pending results} :
      Turn c other { c with
        loop.bindings := bindings, loop.pending := pending, loop.results := results }

/-- Any number of turns with what can be seen of them, the latest last. -/
inductive Turns (c : Scene ρ) : List (LoopEvent ρ) → Scene ρ → Prop
  | nil : Turns c [] c
  | snoc {events c₁ e c₂} : Turns c events c₁ → Turn c₁ e c₂ → Turns c (events ++ [e]) c₂

/-! ## Histories -/

/-- The record that has come into the queue, if any. -/
def LoopEvent.accepted? : LoopEvent ρ → Option ρ
  | accepted r => some r
  | _ => none

/-- The record that has been handed to the owner, if any. -/
def LoopEvent.handed? : LoopEvent ρ → Option ρ
  | handed r => some r
  | _ => none

/-- The record of a post that has ended. -/
def LoopEvent.posted? : LoopEvent ρ → Option ρ
  | accepted r => some r
  | refused r _ => some r
  | _ => none

/-- The records that have been accepted, in this order. -/
def acceptedIn (events : List (LoopEvent ρ)) : List ρ :=
  events.filterMap accepted?

/-- The records that have been handed over, in this order. -/
def handedIn (events : List (LoopEvent ρ)) : List ρ :=
  events.filterMap handed?

def postedIn (events : List (LoopEvent ρ)) : List ρ :=
  events.filterMap posted?

section Histories

variable {events : List (LoopEvent ρ)} {r : ρ} {e : LoopEvent ρ}

theorem acceptedIn_concat :
    acceptedIn (events ++ [e]) = acceptedIn events ++ e.accepted?.toList := by
  rw [acceptedIn, List.filterMap_append]
  cases e <;> rfl

theorem handedIn_concat : handedIn (events ++ [e]) = handedIn events ++ e.handed?.toList := by
  rw [handedIn, List.filterMap_append]
  cases e <;> rfl

end Histories

/-! ## First in, first out -/

section Order

variable {events : List (LoopEvent ρ)} {c c' : Scene ρ} {e : LoopEvent ρ}

/-- A turn that accepts a record puts it last, and one that hands a record over takes the first. -/
theorem Turn.fifo (h : Turn c e c')
    (hc : acceptedIn events = handedIn events ++ c.loop.queue) :
    acceptedIn (events ++ [e]) = handedIn (events ++ [e]) ++ c'.loop.queue := by
  rw [acceptedIn_concat, handedIn_concat]
  -- a record comes in at the end of the queue and goes out at its front
  cases h with
  | @accept r _ _ _ _ hsend =>
      rcases EventLoop.send_eq_ok.1 hsend with ⟨_, rfl⟩
      calc
        acceptedIn events ++ [r]
            = handedIn events ++ c.loop.queue ++ [r] := by simp [hc]
        _ = handedIn events ++ [] ++ (c.loop.queue ++ [r]) := by simp
  | @hand r _ l _ hnext =>
      rcases EventLoop.next?_eq_some.1 hnext with ⟨hqueue, _⟩
      calc
        acceptedIn events ++ []
            = handedIn events ++ c.loop.queue := by simp [hc]
        _ = handedIn events ++ r :: l.queue := by simp [hqueue]
        _ = handedIn events ++ [r] ++ l.queue := by simp
  | enter henter =>
      rcases EventLoop.enter?_eq_some.1 henter with ⟨_, rfl⟩
      simpa [accepted?, handed?] using hc
  | _ =>
      simpa [accepted?, handed?, EventLoop.terminate, EventLoop.close, EventLoop.leave] using hc

/-- What has been accepted is what has been handed over, followed by what is still in the queue. -/
theorem Turns.fifo {capacity : Nat} (h : Turns (.start capacity) events c) :
    acceptedIn events = handedIn events ++ c.loop.queue := by
  induction h with
  | nil => rfl
  | snoc _ hturn ih => exact hturn.fifo ih

end Order

/-! ## What always holds -/

/-- What holds of a loop of the given capacity and of those at work on it. -/
structure Scene.Sound (capacity : Nat) (c : Scene ρ) : Prop where
  room : c.loop.capacity = max capacity 1
  bounded : c.loop.queue.length ≤ c.loop.capacity
  locked : c.loop.closed = true → c.sending = []
  owned : c.loop.owned = false ↔ c.stage = .away
  shut : c.stage.isShut = true → c.loop.closed = true
  emptied : c.loop.closed = true → c.stage.drains = false → c.loop.queue = []

section Sound

variable {capacity : Nat} {events : List (LoopEvent ρ)} {c c' : Scene ρ} {e : LoopEvent ρ}
variable {l : EventLoop ρ} {p q : Stage ρ} {r : ρ}

/-- Nothing has been done yet that could be unsound. -/
theorem Scene.sound_start : (Scene.start capacity : Scene ρ).Sound capacity := by
  refine ⟨rfl, Nat.zero_le _, ?_, ?_, ?_, ?_⟩
  · intro _
    rfl
  · exact ⟨fun _ => rfl, fun _ => rfl⟩
  · intro h
    cases h
  · intro _ _
    rfl

theorem Moves.not_away (h : Moves l p q) : p ≠ .away ∧ q ≠ .away := by
  cases h <;> exact ⟨nofun, nofun⟩

/-- The owner closes the queue in turns of its own. -/
theorem Moves.isShut (h : Moves l p q) : q.isShut = p.isShut := by
  cases h <;> rfl

/-- The owner drains the queue until nothing is left. -/
theorem Moves.drains (h : Moves l p q) (hq : q.drains = false) :
    p.drains = false ∨ l.queue = [] := by
  cases h with
  | drained => cases hq
  | exhaust hnext => exact .inr (EventLoop.next?_eq_none.1 hnext)
  | _ => exact .inl rfl

theorem Hands.not_away (h : Hands r p q) : p ≠ .away ∧ q ≠ .away := by
  cases h <;> exact ⟨nofun, nofun⟩

theorem Hands.isShut (h : Hands r p q) : q.isShut = p.isShut := by
  cases h <;> rfl

theorem Hands.drains (h : Hands r p q) : q.drains = p.drains := by
  cases h <;> rfl

/-- Every turn keeps what always holds. -/
theorem Turn.sound (h : Turn c e c') (hc : c.Sound capacity) : c'.Sound capacity := by
  cases h with
  | allow hopen =>
      refine ⟨hc.room, hc.bounded, ?_, hc.owned, hc.shut, hc.emptied⟩
      intro hclosed
      rw [(EventLoop.isOpen_eq_true.1 hopen).1] at hclosed
      cases hclosed
  | refuse hopen => exact hc
  | accept hsending hsend =>
      rcases EventLoop.send_eq_ok.1 hsend with ⟨hlt, rfl⟩
      -- a post that holds the lock keeps the loop from being closed
      have hopen : ¬ c.loop.closed = true := by
        intro hclosed
        have hnone := hc.locked hclosed
        rw [hsending] at hnone
        simp at hnone
      refine ⟨hc.room, ?_, fun h => absurd h hopen, hc.owned, hc.shut, fun h => absurd h hopen⟩
      rw [List.length_append]
      exact hlt
  | cancel hsending hsend =>
      refine ⟨hc.room, hc.bounded, ?_, hc.owned, hc.shut, hc.emptied⟩
      intro hclosed
      have hnone := hc.locked hclosed
      rw [hsending] at hnone
      simp at hnone
  | terminate => exact ⟨hc.room, hc.bounded, hc.locked, hc.owned, hc.shut, hc.emptied⟩
  | enter henter =>
      rcases EventLoop.enter?_eq_some.1 henter with ⟨hfree, rfl⟩
      -- nobody was there, so nothing was being drained
      have haway := hc.owned.1 hfree
      refine ⟨hc.room, hc.bounded, hc.locked, ⟨nofun, nofun⟩, nofun, ?_⟩
      intro hclosed _
      exact hc.emptied hclosed (by rw [haway]; rfl)
  | turnAway henter => exact hc
  | move hmoves =>
      rcases hmoves.not_away with ⟨hbefore, hafter⟩
      refine ⟨hc.room, hc.bounded, hc.locked, ?_, ?_, ?_⟩
      · exact ⟨fun h => absurd (hc.owned.1 h) hbefore, fun h => absurd h hafter⟩
      · rw [hmoves.isShut]
        exact hc.shut
      · intro hclosed hdrains
        rcases hmoves.drains hdrains with hdrains | hempty
        · exact hc.emptied hclosed hdrains
        · exact hempty
  | hand hhands hnext =>
      rcases EventLoop.next?_eq_some.1 hnext with ⟨hqueue, hl⟩
      rcases hhands.not_away with ⟨hbefore, hafter⟩
      rw [hl]
      refine ⟨hc.room, ?_, hc.locked, ?_, ?_, ?_⟩
      · have hbounded := hc.bounded
        rw [hqueue, List.length_cons] at hbounded
        exact Nat.le_of_succ_le hbounded
      · exact ⟨fun h => absurd (hc.owned.1 h) hbefore, fun h => absurd h hafter⟩
      · rw [hhands.isShut]
        exact hc.shut
      · intro hclosed hdrains
        -- outside the drain a closed loop has no record to hand over
        rw [hhands.drains] at hdrains
        rw [hc.emptied hclosed hdrains] at hqueue
        cases hqueue
  | close hstage hsending =>
      have howned : ¬ c.loop.owned = false := by
        rw [hc.owned, hstage]
        nofun
      refine ⟨hc.room, hc.bounded, fun _ => hsending, ?_, fun _ => rfl, nofun⟩
      exact ⟨fun h => absurd h howned, nofun⟩
  | leave hstage =>
      refine ⟨hc.room, hc.bounded, hc.locked, ⟨fun _ => rfl, fun _ => rfl⟩, nofun, ?_⟩
      intro hclosed _
      exact hc.emptied hclosed (by rw [hstage]; rfl)
  | aside => exact ⟨hc.room, hc.bounded, hc.locked, hc.owned, hc.shut, hc.emptied⟩

theorem Turns.sound (h : Turns (.start capacity) events c) : c.Sound capacity := by
  induction h with
  | nil => exact Scene.sound_start
  | snoc _ hturn ih => exact hturn.sound ih

end Sound

/-! ## Posts that are refused -/

section Refusals

variable {capacity : Nat} {c c' : Scene ρ} {r : ρ} {error : NativeError}

/-- A queue has never more records than there is room for. -/
theorem Scene.Sound.full_iff (hc : c.Sound capacity) :
    c.loop.capacity ≤ c.loop.queue.length ↔ c.loop.queue.length = max capacity 1 := by
  have hbounded := hc.bounded
  rw [hc.room] at hbounded ⊢
  omega

/-- A post is canceled if the queue is open and full, and only then. -/
theorem Scene.Sound.post_eq_canceled (hc : c.Sound capacity) :
    c.loop.post r = .error .canceled ↔
      c.loop.isOpen = true ∧ c.loop.queue.length = max capacity 1 := by
  unfold EventLoop.post
  split
  · rename_i hopen
    rw [EventLoop.send_eq_error, hc.full_iff]
    simp [hopen]
  · rename_i hopen
    simp [hopen]

/-- A post is invalid if the queue is shut, and only then. -/
theorem post_eq_invalidState {l : EventLoop ρ} :
    l.post r = .error .invalidState ↔ l.isOpen = false := by
  unfold EventLoop.post
  split
  · rename_i hopen
    rw [EventLoop.send_eq_error, hopen]
    constructor
    · intro h
      cases h.2
    · intro h
      cases h
  · rename_i hopen
    simp [hopen]

/-- A refusal tells the truth about the loop, and leaves it as it is. -/
theorem Turn.of_refused (h : Turn c (refused r error) c') (hc : c.Sound capacity) :
    c'.loop = c.loop ∧
      (error = .invalidState ∧ c.loop.isOpen = false ∨
        error = .canceled ∧ r ∈ c.sending ∧ c.loop.closed = false ∧
          c.loop.queue.length = max capacity 1) := by
  cases h with
  | refuse hopen => exact ⟨rfl, .inl ⟨rfl, hopen⟩⟩
  | cancel hsending hsend =>
      rcases EventLoop.send_eq_error.1 hsend with ⟨hfull, rfl⟩
      have hmem : r ∈ c.sending := by
        rw [hsending]
        simp
      have hclosed : c.loop.closed = false := by
        rw [← Bool.not_eq_true]
        intro hclosed
        rw [hc.locked hclosed] at hmem
        cases hmem
      exact ⟨rfl, .inr ⟨rfl, hmem, hclosed, hc.full_iff.1 hfull⟩⟩

/-- What is accepted was let in while the loop was open, and it is not closed yet. -/
theorem Turn.of_accepted (h : Turn c (accepted r) c') (hc : c.Sound capacity) :
    r ∈ c.sending ∧ c.loop.closed = false ∧ c.loop.queue.length < max capacity 1 := by
  cases h with
  | accept hsending hsend =>
      rcases EventLoop.send_eq_ok.1 hsend with ⟨hlt, _⟩
      have hmem : r ∈ c.sending := by
        rw [hsending]
        simp
      refine ⟨hmem, ?_, hc.room ▸ hlt⟩
      rw [← Bool.not_eq_true]
      intro hclosed
      rw [hc.locked hclosed] at hmem
      cases hmem

end Refusals

/-! ## Posts that nobody interrupts -/

section Posts

variable {c : Scene ρ} {l : EventLoop ρ} {r : ρ} {error : NativeError}

/-- A post that nobody interrupts takes two turns if it is accepted. -/
theorem turns_of_post_ok (h : c.loop.post r = .ok l) :
    Turns c [admitted r, accepted r] { c with loop := l } := by
  unfold EventLoop.post at h
  split at h
  · rename_i hopen
    exact .snoc (.snoc .nil (.allow hopen)) (.accept (a := []) (b := c.sending) rfl h)
  · cases h

/-- A post that is refused changes nothing, whether it is turned away at once or finds no room. -/
theorem turns_of_post_error (h : c.loop.post r = .error error) :
    ∃ events, Turns c (events ++ [refused r error]) c := by
  unfold EventLoop.post at h
  split at h
  · rename_i hopen
    exact ⟨[admitted r],
      .snoc (.snoc .nil (.allow hopen)) (.cancel (a := []) (b := c.sending) rfl h)⟩
  · rename_i hopen
    cases h
    exact ⟨[], .snoc .nil (.refuse (Bool.not_eq_true _ ▸ hopen))⟩

end Posts

/-! ## A loop that has been left -/

/-- Nothing is left to be run, and nothing will be accepted. -/
structure Scene.IsOver (c : Scene ρ) : Prop where
  closed : c.loop.closed = true
  queue : c.loop.queue = []
  sending : c.sending = []

/-- What can still happen on a loop that is over. -/
def LoopEvent.IsLate : LoopEvent ρ → Prop
  | admitted _ => False
  | accepted _ => False
  | refused _ error => error = .invalidState
  | handed _ => False
  | _ => True

section Over

variable {capacity : Nat} {events : List (LoopEvent ρ)} {c c' : Scene ρ} {e : LoopEvent ρ}

theorem Scene.IsOver.isOpen (hc : c.IsOver) : c.loop.isOpen = false :=
  EventLoop.isOpen_eq_false.2 (.inl hc.closed)

/-- After the end nothing happens to the loop but what is late. -/
theorem Turn.isOver (h : Turn c e c') (hc : c.IsOver) : c'.IsOver ∧ e.IsLate := by
  -- Nobody is sending any more, so nothing can be accepted or refused for want of room.
  have hnone {r : ρ} {before after : List ρ} (h : c.sending = before ++ r :: after) : False := by
    rw [hc.sending] at h
    simp at h
  cases h with
  | allow hopen =>
      rw [hc.isOpen] at hopen
      cases hopen
  | refuse => exact ⟨hc, rfl⟩
  | accept hsending => exact (hnone hsending).elim
  | cancel hsending => exact (hnone hsending).elim
  | hand _ hnext =>
      rcases EventLoop.next?_eq_some.1 hnext with ⟨hqueue, _⟩
      rw [hc.queue] at hqueue
      cases hqueue
  | enter henter =>
      rcases EventLoop.enter?_eq_some.1 henter with ⟨_, rfl⟩
      exact ⟨⟨hc.closed, hc.queue, hc.sending⟩, trivial⟩
  | close => exact ⟨⟨rfl, hc.queue, hc.sending⟩, trivial⟩
  | _ => exact ⟨⟨hc.closed, hc.queue, hc.sending⟩, trivial⟩

theorem Turns.isOver (h : Turns c events c') (hc : c.IsOver) :
    c'.IsOver ∧ ∀ e ∈ events, e.IsLate := by
  induction h with
  | nil => exact ⟨hc, nofun⟩
  | snoc _ hturn ih =>
      rcases ih with ⟨hover, hlate⟩
      rcases hturn.isOver hover with ⟨hover', hlate'⟩
      refine ⟨hover', ?_⟩
      intro e he
      rcases List.mem_append.1 he with he | he
      · exact hlate e he
      · rw [List.mem_singleton.1 he]
        exact hlate'

/-- A queue that has been closed is never open again. -/
theorem Turn.closed (h : Turn c e c') (hc : c.loop.closed = true) : c'.loop.closed = true := by
  cases h with
  | accept _ hsend =>
      rcases EventLoop.send_eq_ok.1 hsend with ⟨_, rfl⟩
      exact hc
  | enter henter =>
      rcases EventLoop.enter?_eq_some.1 henter with ⟨_, rfl⟩
      exact hc
  | hand _ hnext =>
      rw [(EventLoop.next?_eq_some.1 hnext).2]
      exact hc
  | close => rfl
  | _ => exact hc

theorem Turns.closed (h : Turns c events c') (hc : c.loop.closed = true) :
    c'.loop.closed = true := by
  induction h with
  | nil => exact hc
  | snoc _ hturn ih => exact hturn.closed ih

/-- Whoever returns from the loop leaves it closed and empty. -/
theorem Turn.of_returned (h : Turn c returned c') (hc : c.Sound capacity) : c'.IsOver := by
  cases h with
  | leave hstage =>
      -- leaving comes only after the close and the drain
      have hclosed : c.loop.closed = true := hc.shut (by rw [hstage]; rfl)
      exact ⟨hclosed, hc.emptied hclosed (by rw [hstage]; rfl), hc.locked hclosed⟩

end Over

/-! ## Records that are posted once -/

section Once

variable {events : List (LoopEvent ρ)} {r : ρ} {error : NativeError}

/-- Only what has been posted is accepted. -/
theorem acceptedIn_sublist (events : List (LoopEvent ρ)) :
    (acceptedIn events).Sublist (postedIn events) := by
  induction events with
  | nil => exact .slnil
  | cons e rest ih =>
      cases e with
      | accepted r => exact ih.cons_cons r
      | refused r error => exact ih.cons r
      | _ => exact ih

theorem mem_postedIn_of_refused (h : refused r error ∈ events) : r ∈ postedIn events :=
  List.mem_filterMap.2 ⟨_, h, rfl⟩

/-- A record that has been posted only once and refused has not been accepted. -/
theorem not_mem_acceptedIn (h : refused r error ∈ events) (honce : (postedIn events).Nodup) :
    r ∉ acceptedIn events := by
  induction events with
  | nil => cases h
  | cons e rest ih =>
      have hrest : (postedIn rest).Sublist (postedIn (e :: rest)) :=
        (List.sublist_cons_self e rest).filterMap _
      -- the refusal comes now or later; either way a second post would be one too many
      rcases List.mem_cons.1 h with rfl | hlater
      · intro hmem
        exact (List.nodup_cons.1 honce).1 ((acceptedIn_sublist rest).subset hmem)
      · have hnone := ih hlater (honce.sublist hrest)
        cases e with
        | accepted r' =>
            intro hmem
            rcases List.mem_cons.1 hmem with rfl | hmem
            · exact (List.nodup_cons.1 honce).1 (mem_postedIn_of_refused hlater)
            · exact hnone hmem
        | _ => exact hnone

end Once

/-! ## The law of the loop -/

/-- For a loop of any capacity and turns in any order: the records handed over so far and those in
the queue are the accepted ones in the order in which they were accepted, so that none is handed
over twice and, if every post is of a record of its own, none that was refused. A post is refused
exactly if the loop is not open or its queue is full, and the error tells which. When a run of the
loop returns, all that was ever accepted has been handed over, and nothing will be accepted or
handed over any more. -/
theorem accepted_records_are_handed_over (capacity : Nat) {events : List (LoopEvent ρ)}
    {c : Scene ρ} (h : Turns (.start capacity) events c) :
    acceptedIn events = handedIn events ++ c.loop.queue ∧
    ((postedIn events).Nodup → (handedIn events).Nodup ∧
      ∀ r error, refused r error ∈ events → r ∉ handedIn events) ∧
    (∀ r, (c.loop.post r = .error .invalidState ↔
          c.loop.isTerminated = true ∨ c.loop.closed = true) ∧
      (c.loop.post r = .error .canceled ↔
        (c.loop.isTerminated = false ∧ c.loop.closed = false) ∧
          c.loop.queue.length = max capacity 1)) ∧
    (∀ r error c', Turn c (refused r error) c' → c'.loop = c.loop ∧
      (error = .invalidState ∧ (c.loop.isTerminated = true ∨ c.loop.closed = true) ∨
        error = .canceled ∧ r ∈ c.sending ∧ c.loop.closed = false ∧
          c.loop.queue.length = max capacity 1)) ∧
    (∀ r c', Turn c (admitted r) c' →
      c.loop.isTerminated = false ∧ c.loop.closed = false) ∧
    (∀ r c', Turn c (accepted r) c' →
      r ∈ c.sending ∧ c.loop.closed = false ∧ c.loop.queue.length < max capacity 1) ∧
    ∀ c', Turn c returned c' →
      c'.loop.queue = [] ∧ acceptedIn events = handedIn events ∧
      ∀ later c'', Turns c' later c'' →
        (∀ e ∈ later, e.IsLate) ∧ ∀ r, c''.loop.post r = .error .invalidState := by
  have hfifo := h.fifo
  have hsound := h.sound
  have hclosed : c.loop.isOpen = false ↔ c.loop.isTerminated = true ∨ c.loop.closed = true := by
    rw [EventLoop.isOpen_eq_false, or_comm]
  have hopen : c.loop.isOpen = true ↔ c.loop.isTerminated = false ∧ c.loop.closed = false := by
    rw [EventLoop.isOpen_eq_true, and_comm]
  -- The order is the invariant `Turns.fifo`; the other parts are read off a single turn, or follow
  -- from the order.
  refine ⟨hfifo, ?_, ?_, ?_, ?_, ?_, ?_⟩
  · intro honce
    have hsub : (handedIn events).Sublist (acceptedIn events) := by
      rw [hfifo]
      exact List.sublist_append_left _ _
    refine ⟨honce.sublist (hsub.trans (acceptedIn_sublist events)), ?_⟩
    intro r error hrefused hmem
    exact not_mem_acceptedIn hrefused honce (hsub.subset hmem)
  · intro r
    exact ⟨post_eq_invalidState.trans hclosed, by rw [hsound.post_eq_canceled, hopen]⟩
  · intro r error c' hturn
    rw [← hclosed]
    exact hturn.of_refused hsound
  · intro r c' hturn
    cases hturn with
    | allow hadmit => exact hopen.1 hadmit
  · intro r c' hturn
    exact hturn.of_accepted hsound
  · intro c' hturn
    have hover := hturn.of_returned hsound
    -- A `run` that returns leaves the queue empty, so the order with this turn at its end says that
    -- all has been handed over.
    have hall : acceptedIn events = handedIn events :=
      calc
        acceptedIn events
            = acceptedIn (events ++ [returned]) := by simp [acceptedIn_concat, accepted?]
        _ = handedIn (events ++ [returned]) ++ c'.loop.queue := (Turns.snoc h hturn).fifo
        _ = handedIn events := by simp [hover.queue, handedIn_concat, handed?]
    refine ⟨hover.queue, hall, ?_⟩
    intro later c'' hlater
    rcases hlater.isOver hover with ⟨hover', hlate⟩
    exact ⟨hlate, fun r => post_eq_invalidState.2 hover'.isOpen⟩

/-- Two posts at once for a queue with room for one record, and a third one when it is too late. -/
theorem refused_records_stay_out :
    ∃ (c c' : Scene Nat) (events : List (LoopEvent Nat)),
      Turns (.start 0) events c ∧ Turn c returned c' ∧
      events = [admitted 1, admitted 2, accepted 1, refused 2 .canceled, other,
        refused 3 .invalidState, entered, handed 1, other, other, other, other, other] ∧
      acceptedIn events = handedIn events ∧
      ∀ r error, refused r error ∈ events → r ∉ handedIn events := by
  have h₁ := Turns.snoc (Turns.nil (c := Scene.start 0)) (Turn.allow (r := 1) rfl)
  have h₂ := h₁.snoc (Turn.allow (r := 2) rfl)
  have h₃ := h₂.snoc (.accept (a := [2]) (b := []) rfl rfl)
  -- The queue holds one record, so the second sender is refused.
  have h₄ := h₃.snoc (.cancel (a := []) (b := []) rfl rfl)
  have h₅ := h₄.snoc .terminate
  have h₆ := h₅.snoc (.refuse (r := 3) rfl)
  have h₇ := h₆.snoc (.enter rfl)
  have h₈ := h₇.snoc (.hand .take rfl)
  have h₉ := h₈.snoc (.move .finish)
  have h₁₀ := h₉.snoc (.move (.check rfl))
  have h₁₁ := h₁₀.snoc (.move (.stop rfl))
  have h₁₂ := h₁₁.snoc (.close rfl rfl)
  have h₁₃ := h₁₂.snoc (.move (.exhaust rfl))
  have hlaw := accepted_records_are_handed_over 0 h₁₃
  rcases hlaw with ⟨_, honce, _, _, _, _, hreturned⟩
  exact ⟨_, _, _, h₁₃, .leave rfl, rfl, (hreturned _ (.leave rfl)).2.1, (honce (by decide)).2⟩

end Host
end ScriptHost
