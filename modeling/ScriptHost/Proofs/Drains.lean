import ScriptHost.Proofs.Courses
import ScriptHost.Proofs.Runs

/-!
# How a loop works off its queue

A thread that runs the loop takes fragment after fragment from the queue and runs each of them to
its end. Once the loop is terminated and nothing can be posted to it any more, what is left in the
queue decides about the rest: the run is over when those fragments are, and not before.
-/

namespace ScriptHost

namespace Host

open Script Machine

variable {α β : Type}

/-- What is over within a budget ends in the same way within a larger one. -/
def Activity.IsMonotone (x : Nat → Activity α) : Prop :=
  ∀ n n' s r, n ≤ n' → x n s = some r → x n' s = some r

namespace Activity.IsMonotone

variable {x : Nat → Activity α} {f : α → Nat → Activity β}

/-- What takes no budget does not depend on it. -/
theorem const (x : Activity α) : IsMonotone fun _ => x :=
  fun _ _ _ _ _ h => h

/-- Two activities with the same budget. -/
theorem bind (hx : IsMonotone x) (hf : ∀ a, IsMonotone (f a)) :
    IsMonotone fun n => x n >>= fun a => f a n := by
  intro n n' s r hle h
  rcases Activity.bind_eq_some h with ⟨a, s₁, hfirst, hthen⟩
  exact (Activity.bind_of_some (hx n n' s _ hle hfirst)).trans (hf a n n' s₁ r hle hthen)

/-- A run that is over with some budget is over with every larger one. -/
theorem onMachine {run : Nat → Hosted Builtin Bridge → Option (α × Hosted Builtin Bridge)}
    (h : ∀ n n' m r, n ≤ n' → run n m = some r → run n' m = some r) :
    IsMonotone fun n => Session.onMachine (run n) := by
  intro n n' s r hle hrun
  cases hmachine : s.machine with
  | none =>
      simp only [Session.onMachine, hmachine] at hrun ⊢
      exact hrun
  | some vm =>
      simp only [Session.onMachine, hmachine] at hrun ⊢
      rcases Option.map_eq_some_iff.1 hrun with ⟨p, hp, rfl⟩
      rw [h n n' _ p hle hp]
      rfl

/-- An activity that is over has one end, whatever the budget. -/
theorem unique (hx : IsMonotone x) {n n' : Nat} {s : Session} {r r' : α × Session}
    (h : x n s = some r) (h' : x n' s = some r') : r = r' := by
  have hmax := hx n (max n n') s r (Nat.le_max_left n n') h
  rw [hx n' (max n n') s r' (Nat.le_max_right n n') h'] at hmax
  exact (Option.some.inj hmax).symm

end Activity.IsMonotone

theorem monotone_runCode (source : String) :
    Activity.IsMonotone fun n => Session.runCode n source := by
  have hrun : Activity.IsMonotone fun n => Session.onMachine (runSource Builtin.run n source) :=
    .onMachine fun _ _ _ _ hle h => runSource_mono h hle
  unfold Session.runCode
  refine .bind (.const get) fun s => ?_
  dsimp only
  split
  · exact .bind (.const _) fun _ => hrun
  · exact hrun

/-- A larger budget makes no difference to a fragment that ends. -/
theorem monotone_runFragment (f : Fragment) :
    Activity.IsMonotone fun n => Session.runFragment n f := by
  unfold Session.runFragment
  exact .bind (monotone_runCode f.source) fun _ => .const _

/-! ## One fragment -/

/-- What a fragment leaves of the bridge when its run has ended: an error is written down, and the
fragment is given up in any case. -/
def Bridge.endFragment (f : Fragment) (r : Except ScriptError Value) (b : Bridge) : Bridge :=
  match r with
  | .error e => (b.note (.fragmentFailed e)).finishFragment f
  | .ok _ => b.finishFragment f

/-- A fragment in hand is run to its end: its source is run as a unit of its own by the machine of
the session. Without a machine there is nothing to run. -/
inductive Session.Executes (f : Fragment) (s : Session) : Session → Prop
  | live {vm budget r m} : s.machine = some vm →
      runSource Builtin.run budget f.source
        ⟨vm, s.bridge.note (.codeStarted f.source.utf8ByteSize)⟩ = some (r, m) →
      Executes f s { s with machine := some m.vm, bridge := m.host.endFragment f r }
  | orphaned : s.machine = none →
      Executes f s { s with bridge := (s.bridge.note .fragmentOrphaned).finishFragment f }

section Fragments

variable {budget : Nat} {source : String} {f : Fragment} {s s' : Session} {vm : Vm Builtin}

/-- A source is run by the machine, and the result is told. -/
theorem runCode_of_machine (h : s.machine = some vm) :
    Session.runCode budget source s =
      (runSource Builtin.run budget source
          ⟨vm, s.bridge.note (.codeStarted source.utf8ByteSize)⟩).map
        fun ended =>
          (some ended.1, { s with machine := some ended.2.vm, bridge := ended.2.host }) := by
  have hget : (get : Activity Session) s = some (s, s) := rfl
  have hlive : s.isLive = true := by rw [Session.isLive, h]; rfl
  let noted : Session := { s with bridge := s.bridge.note (.codeStarted source.utf8ByteSize) }
  have hnote : Session.note (.codeStarted source.utf8ByteSize) s = some ((), noted) := rfl
  unfold Session.runCode
  refine (Activity.bind_of_some hget).trans ?_
  rw [if_pos hlive]
  refine (Activity.bind_of_some hnote).trans ?_
  show Session.onMachine _ noted = _
  simp only [Session.onMachine, noted, h]

/-- Without a machine nothing is run. -/
theorem runCode_of_none (h : s.machine = none) :
    Session.runCode budget source s = some (none, s) := by
  have hget : (get : Activity Session) s = some (s, s) := rfl
  have hlive : ¬ s.isLive = true := by simp [Session.isLive, h]
  unfold Session.runCode
  refine (Activity.bind_of_some hget).trans ?_
  rw [if_neg hlive]
  show Session.onMachine _ s = _
  simp only [Session.onMachine, h]

/-- To run a fragment is to run its source on the machine, if there is one; of the end only an error
is written down, and the fragment is given up. -/
theorem runFragment_of_machine (h : s.machine = some vm) :
    Session.runFragment budget f s =
      (runSource Builtin.run budget f.source
          ⟨vm, s.bridge.note (.codeStarted f.source.utf8ByteSize)⟩).map
        fun ended =>
          ((), { s with
            machine := some ended.2.vm
            bridge := ended.2.host.endFragment f ended.1 }) := by
  have hcode := @runCode_of_machine budget f.source s vm h
  unfold Session.runFragment
  -- Whether the budget was enough is the same question for the fragment as for its source.
  cases hrun : runSource Builtin.run budget f.source
      ⟨vm, s.bridge.note (.codeStarted f.source.utf8ByteSize)⟩ with
  | none =>
      rw [hrun] at hcode
      exact congrArg (Option.bind · _) hcode
  | some ended =>
      rw [hrun] at hcode
      refine (Activity.bind_of_some hcode).trans ?_
      rcases ended with ⟨e | v, m⟩ <;> rfl

/-- A fragment that has outlived its machine is given up. -/
theorem runFragment_of_none (h : s.machine = none) :
    Session.runFragment budget f s =
      some ((), { s with bridge := (s.bridge.note .fragmentOrphaned).finishFragment f }) := by
  unfold Session.runFragment
  exact Activity.bind_of_some (runCode_of_none h)

/-- With enough budget the fragment is executed, and nothing else happens. -/
theorem runFragment_iff :
    (∃ budget, Session.runFragment budget f s = some ((), s')) ↔ s.Executes f s' := by
  constructor
  · rintro ⟨budget, hrun⟩
    cases hmachine : s.machine with
    | none =>
        rw [runFragment_of_none hmachine] at hrun
        cases hrun
        exact .orphaned hmachine
    | some vm =>
        rw [runFragment_of_machine hmachine] at hrun
        rcases Option.map_eq_some_iff.1 hrun with ⟨⟨r, m⟩, hsource, heq⟩
        cases heq
        exact .live hmachine hsource
  · intro h
    cases h with
    | @live _ budget _ _ hmachine hsource =>
        refine ⟨budget, (runFragment_of_machine hmachine).trans ?_⟩
        rw [hsource]
        rfl
    | orphaned hmachine => exact ⟨0, runFragment_of_none hmachine⟩

/-- How a fragment ends does not depend on the budget. -/
theorem Session.Executes.unique {s₁ s₂ : Session} (h : s.Executes f s₁) (h' : s.Executes f s₂) :
    s₁ = s₂ := by
  rcases runFragment_iff.2 h with ⟨_, hrun⟩
  rcases runFragment_iff.2 h' with ⟨_, hrun'⟩
  cases (monotone_runFragment f).unique hrun hrun'
  rfl

/-- No fragment takes the machine away. -/
theorem Session.Executes.machine (h : s.Executes f s') (hlive : s.machine.isSome = true) :
    s'.machine.isSome = true := by
  cases h with
  | live => rfl
  | orphaned hmachine =>
      rw [hmachine] at hlive
      cases hlive

end Fragments

/-! ## Fragment after fragment -/

/-- The fragments are taken from the queue one after another, and each of them is run to its end. -/
inductive Session.WorksOff : List Fragment → Session → Session → Prop
  | nil {s} : WorksOff [] s s
  | cons {f fs s b s₁ s₂} : s.bridge.takeQueued? = some (f, b) →
      Executes f { s with bridge := b } s₁ → WorksOff fs s₁ s₂ → WorksOff (f :: fs) s s₂

namespace Session.WorksOff

variable {fs gs : List Fragment} {s s₁ s' : Session}

/-- First the one part of the queue, and then the other. -/
theorem append (h : WorksOff gs s s₁) (h' : WorksOff fs s₁ s') : WorksOff (gs ++ fs) s s' := by
  induction h with
  | nil => exact h'
  | cons htake hrun _ ih => exact .cons htake hrun (ih h')

/-- Of two that begin together, the one that goes on until nothing is left comes by where the other
one has stopped. -/
theorem split (h : WorksOff gs s s₁) (h' : WorksOff fs s s')
    (hempty : s'.bridge.takeQueued? = none) : ∃ rest, fs = gs ++ rest ∧ WorksOff rest s₁ s' := by
  -- Both take the oldest fragment first and run it alike, so they agree until the shorter one
  -- stops.
  induction h generalizing fs with
  | nil => exact ⟨fs, rfl, h'⟩
  | cons htake hrun _ ih =>
      cases h' with
      | nil =>
          rw [hempty] at htake
          cases htake
      | cons htake' hrun' hrest' =>
          rw [htake] at htake'
          cases htake'
          cases hrun.unique hrun'
          rcases ih hrest' with ⟨rest, rfl, hrest⟩
          exact ⟨rest, rfl, hrest⟩

/-- What is done to the bridge meanwhile takes just these fragments from the queue. -/
theorem course (h : WorksOff fs s s') : s.bridge.Course fs s'.bridge := by
  induction h with
  | nil => exact .nil
  | cons htake hrun _ ih =>
      rcases runFragment_iff.2 hrun with ⟨budget, hrun⟩
      have hscript := (along_runFragment Bridge.allows_silent _ _ _ () _ hrun).1
      exact ((Bridge.Act.take htake).course.trans hscript).trans ih

/-- The machine is there for all of them. -/
theorem machine (h : WorksOff fs s s') (hlive : s.machine.isSome = true) :
    s'.machine.isSome = true := by
  induction h with
  | nil => exact hlive
  | cons _ hrun _ ih => exact ih (hrun.machine hlive)

end Session.WorksOff

/-! ## Pumping -/

theorem takeUp_of_none {take : Bridge → Option (Fragment × Bridge)} {s : Session}
    (h : take s.bridge = none) : Session.takeUp take s = some (none, s) := by
  simp only [Session.takeUp, Session.onBridge, h]

theorem takeUp_of_some {take : Bridge → Option (Fragment × Bridge)} {s : Session} {f : Fragment}
    {b : Bridge} (h : take s.bridge = some (f, b)) :
    Session.takeUp take s = some (some f, { s with bridge := b }) := by
  simp only [Session.takeUp, Session.onBridge, h]

variable {budget n count : Nat} {fs gs : List Fragment} {s s₀ s₁ s' : Session}

theorem pump_of_none (h : s.bridge.takeQueued? = none) :
    Session.pump budget n s = some (0, s) := by
  cases n with
  | zero =>
      unfold Session.pump
      exact Activity.bind_of_some (takeUp_of_none h)
  | succ n =>
      unfold Session.pump
      exact Activity.bind_of_some (takeUp_of_none h)

/-- One fragment, and then the rest. -/
theorem pump_of_some {f : Fragment} {b : Bridge} (h : s.bridge.takeQueued? = some (f, b))
    (hrun : Session.runFragment budget f { s with bridge := b } = some ((), s₁))
    (hrest : Session.pump budget n s₁ = some (count, s')) :
    Session.pump budget (n + 1) s = some (count + 1, s') := by
  unfold Session.pump
  refine (Activity.bind_of_some (takeUp_of_some h)).trans ?_
  refine (Activity.bind_of_some hrun).trans ?_
  exact Activity.bind_of_some hrest

/-- A pump that is over has emptied the queue, fragment after fragment. -/
theorem pump_worksOff (h : Session.pump budget n s = some (count, s')) :
    ∃ fs, s.WorksOff fs s' ∧ s'.bridge.takeQueued? = none := by
  induction n generalizing s count with
  | zero =>
      cases htake : s.bridge.takeQueued? with
      | none =>
          rw [pump_of_none htake] at h
          cases h
          exact ⟨[], .nil, htake⟩
      | some taken =>
          unfold Session.pump at h
          rw [Activity.bind_of_some (takeUp_of_some htake)] at h
          cases h
  | succ n ih =>
      cases htake : s.bridge.takeQueued? with
      | none =>
          rw [pump_of_none htake] at h
          cases h
          exact ⟨[], .nil, htake⟩
      -- A fragment that is run may queue others; they are taken in the turns that follow.
      | some taken =>
          rcases taken with ⟨f, b⟩
          unfold Session.pump at h
          rw [Activity.bind_of_some (takeUp_of_some htake)] at h
          rcases Activity.bind_eq_some h with ⟨_, s₁, hrun, hthen⟩
          rcases Activity.bind_eq_some hthen with ⟨_, s₂, hrest, hlast⟩
          cases hlast
          rcases ih hrest with ⟨fs, hfs, hempty⟩
          exact ⟨f :: fs, .cons htake (runFragment_iff.1 ⟨_, hrun⟩) hfs, hempty⟩

/-- With enough of a budget the queue is emptied if each fragment comes to its end. -/
theorem Session.WorksOff.pump (h : s.WorksOff fs s') (hempty : s'.bridge.takeQueued? = none) :
    ∃ least, ∀ budget n, least ≤ budget → fs.length ≤ n →
      Session.pump budget n s = some (fs.length, s') := by
  induction h with
  | nil => exact ⟨0, fun _ _ _ _ => pump_of_none hempty⟩
  | @cons f fs s b s₁ s₂ htake hrun _ ih =>
      rcases ih hempty with ⟨least, hleast⟩
      rcases runFragment_iff.2 hrun with ⟨own, hrun⟩
      -- One budget that is enough for this fragment and for each of those behind it.
      refine ⟨max own least, fun budget n hbudget hn => ?_⟩
      rcases n with _ | n
      · cases hn
      · have hrun' := monotone_runFragment f own budget _ _ (by omega) hrun
        exact pump_of_some htake hrun' (hleast budget n (by omega) (by simpa using hn))

/-! ## Larger budgets -/

/-- A larger budget makes no difference to a queue that has been emptied. -/
theorem pump_mono {budget' n' : Nat} (hbudget : budget ≤ budget') (hn : n ≤ n')
    (h : Session.pump budget n s = some (count, s')) :
    Session.pump budget' n' s = some (count, s') := by
  induction n generalizing s n' count with
  | zero =>
      cases htake : s.bridge.takeQueued? with
      | none => rwa [pump_of_none htake] at h ⊢
      | some taken =>
          unfold Session.pump at h
          rw [Activity.bind_of_some (takeUp_of_some htake)] at h
          cases h
  | succ n ih =>
      cases htake : s.bridge.takeQueued? with
      | none => rwa [pump_of_none htake] at h ⊢
      | some taken =>
          rcases taken with ⟨f, b⟩
          unfold Session.pump at h
          rw [Activity.bind_of_some (takeUp_of_some htake)] at h
          rcases Activity.bind_eq_some h with ⟨_, s₁, hrun, hthen⟩
          rcases Activity.bind_eq_some hthen with ⟨_, s₂, hrest, hlast⟩
          cases hlast
          rcases n' with _ | n'
          · cases hn
          · have hrun' := monotone_runFragment f budget budget' _ _ hbudget hrun
            exact pump_of_some htake hrun' (ih (Nat.le_of_succ_le_succ hn) hrest)

theorem monotone_pump : Activity.IsMonotone fun n => Session.pump n n :=
  fun _ _ _ _ hle h => pump_mono hle hle h

theorem monotone_serve : Activity.IsMonotone Session.serve := by
  have hshutDown : Activity.IsMonotone Session.shutDown :=
    .bind (.const _) fun _ => .bind monotone_pump fun _ => .const _
  refine .bind monotone_pump fun _ => .bind (.const get) fun s => ?_
  split
  · exact .bind hshutDown fun _ => .const _
  · exact .const _

theorem monotone_run : Activity.IsMonotone Session.run := by
  have hserveToEnd : Activity.IsMonotone Session.serveToEnd :=
    .bind monotone_serve fun _ => .const _
  refine .bind (.const _) fun started => ?_
  cases started with
  | false => exact .const _
  | true => exact .bind hserveToEnd fun _ => .const _

end Host
end ScriptHost
