import ScriptHost.Proofs.Conservation

/-!
# When a window counts as running

A run marks the window before it asks for the loop, and a spawn marks it before its thread is there.
If no thread can be created, the spawn takes its mark back; but if a run finds the loop taken it is
turned away, and the mark stays. So a window may count as running although no call that is to run it
is under way. If no run has been turned away since the window was marked, then there is such a call:
its thread has not begun, it has not asked for the loop, or it has the loop and has not returned.
-/

namespace ScriptHost
namespace Host

open Script Machine WindowEvent

/-! ## Phases -/

/-- A call that marks the window, with what it has been told about that. -/
def WindowEvent.mark? : WindowEvent → Option Bool
  | called marked => some marked
  | spawning marked => some marked
  | woken marked => some marked
  | _ => none

/-- A running window is idle afterwards: a run has returned, or a spawn has taken its mark back. -/
def WindowEvent.Rests : WindowEvent → Prop
  | ended => True
  | refused marked => marked = true
  | _ => False

/-- What becomes of the phase of a window with a change. -/
inductive PhaseStep (p : Phase) (e : WindowEvent) : Phase → Prop
  | mark : e.mark? = some (p == .idle) → PhaseStep p e p.start
  | rest : e.Rests → PhaseStep p e p.stop
  | terminate : PhaseStep p e .terminated
  | stay : e.mark? = none → ¬ e.Rests → PhaseStep p e p

/-- What is none of the window's business leaves its phase. -/
theorem PhaseStep.of_business {b b' : Bridge} (h : b'.business = b.business) :
    PhaseStep b.window.phase other b'.window.phase := by
  have hphase : b'.window.phase = b.window.phase := congrArg Prod.fst h
  exact hphase ▸ .stay rfl id

namespace Bridge

/-- A run that asks for the loop does nothing more to the window. -/
theorem phase_takeLoop {b b' : Bridge} {started : Bool} (h : b.takeLoop = (started, b')) :
    b'.window.phase = b.window.phase := by
  have hquiet := congrArg Picture.phase b.quiet_takeLoop
  rwa [h] at hquiet

/-- Every change does one of these things to the phase. -/
theorem Change.phase {b b' : Bridge} {e : WindowEvent} (h : b.Change e b') :
    PhaseStep b.window.phase e b'.window.phase := by
  cases h with
  | aside h => exact .of_business h.business
  | call => exact .mark rfl
  | begin h => exact phase_takeLoop h ▸ .stay rfl id
  | turnAway h => exact phase_takeLoop h ▸ .stay rfl id
  | stop => exact .rest trivial
  | terminate => exact .terminate
  | spawn => exact .mark rfl
  | create => exact .stay rfl id
  | @refuse marked =>
      cases marked with
      | true => exact .rest rfl
      | false => exact .stay rfl Bool.false_ne_true
  | wake => exact .mark rfl
  | bind => exact .of_business (b.business_bind _ _)
  | unbind => exact .of_business (b.business_unbind _)
  | bindNative => exact .of_business (b.business_bindNative _ _)
  | unbindNative => exact .of_business (b.business_unbindNative _)
  | strike => exact .of_business (b.business_strike _)
  | hold => exact .of_business (b.business_hold _ _)
  | holdNew => exact .of_business (b.business_holdNew _ _)
  | letGo => exact .of_business (b.business_letGo _)
  | beginCallback => exact .stay rfl id
  | @endCallback x _ =>
      -- the binding is out of progress before it is released
      exact .of_business (b := { b with inProgress := b.inProgress.erase x }) (business_release _ x)
  | schedule => exact .of_business (b.business_schedule _)
  | takeQueued h =>
      rcases takeQueued?_eq_some.1 h with ⟨_, _, _, _, rfl⟩
      exact .stay rfl id
  | takeDraft h =>
      rcases takeDraft?_eq_some.1 h with ⟨_, rfl⟩
      exact .stay rfl id
  | finishFragment => exact .stay rfl id
  | draft => exact .of_business (b.business_draft _ _)
  | postDraft => exact .of_business (b.business_postDraft _ _)
  | discardDraft => exact .of_business (b.business_discardDraft _)

end Bridge

/-! ## Calls that are under way -/

/-- Where a call is that is to run the window. -/
inductive CallStage
  -- its thread is being created, and begins later if there can be one
  | spawning (marked : Bool)
  | ready
  -- it has marked the window and has not asked for the loop
  | asking
  | looping
  deriving DecidableEq

/-- The calls that are under way after a change. Only one that is turned away, that can have no
thread or that has returned is so no more. -/
def WindowEvent.goOn (calls : List CallStage) : WindowEvent → List CallStage
  | called _ => .asking :: calls
  | spawning marked => .spawning marked :: calls
  | woken _ => .asking :: calls.erase .ready
  | created marked => .ready :: calls.erase (.spawning marked)
  | refused marked => calls.erase (.spawning marked)
  | began => .looping :: calls.erase .asking
  | turnedAway => calls.erase .asking
  | ended => calls.erase .looping
  | other => calls

/-- The calls that are under way after all these changes. -/
def underWay (events : List WindowEvent) : List CallStage :=
  events.foldl WindowEvent.goOn []

theorem underWay_concat (events : List WindowEvent) (e : WindowEvent) :
    underWay (events ++ [e]) = e.goOn (underWay events) := by
  rw [underWay, List.foldl_append]
  rfl

/-- A spawn that has found the window marked has not marked it, and takes nothing back. -/
def CallStage.Vouches (c : CallStage) : Prop :=
  c ≠ .spawning false

section Calls

variable {calls : List CallStage} {e : WindowEvent}

/-- A call that vouches for the mark goes on, unless the window comes to rest or a run is turned
away. -/
theorem vouches_goOn (h : ∃ c ∈ calls, c.Vouches) (hrests : ¬ e.Rests) (haway : e ≠ turnedAway) :
    ∃ c ∈ e.goOn calls, c.Vouches := by
  rcases h with ⟨c, hc, hvouches⟩
  cases e with
  | called => exact ⟨.asking, List.mem_cons_self, nofun⟩
  | spawning marked => exact ⟨c, List.mem_cons_of_mem _ hc, hvouches⟩
  | woken => exact ⟨.asking, List.mem_cons_self, nofun⟩
  | created => exact ⟨.ready, List.mem_cons_self, nofun⟩
  | refused marked =>
      cases marked with
      | true => exact absurd rfl hrests
      | false => exact ⟨c, (List.mem_erase_of_ne hvouches).2 hc, hvouches⟩
  | began => exact ⟨.looping, List.mem_cons_self, nofun⟩
  | turnedAway => exact absurd rfl haway
  | ended => exact absurd trivial hrests
  | other => exact ⟨c, hc, hvouches⟩

end Calls

/-! ## Marks that have not been taken back -/

/-- A run or a spawn has marked the window while it was idle, and the window has not come to rest
since. One of the calls is still under way, or a run has been turned away in the meantime. -/
def RunningSince (events : List WindowEvent) : Prop :=
  ∃ earlier e later, events = earlier ++ e :: later ∧ e.mark? = some true ∧
    (∀ x ∈ later, ¬ x.Rests) ∧
    ((∃ c ∈ underWay events, c.Vouches) ∨ turnedAway ∈ later)

/-- The mark stays until the window comes to rest. -/
theorem RunningSince.snoc {events : List WindowEvent} {e : WindowEvent} (h : RunningSince events)
    (he : ¬ e.Rests) : RunningSince (events ++ [e]) := by
  rcases h with ⟨earlier, e', later, heq, hmark, hlater, hcalls⟩
  refine ⟨earlier, e', later ++ [e], by simp [heq], hmark, fun x hx => ?_, ?_⟩
  · rcases List.mem_append.1 hx with hx | hx
    · exact hlater x hx
    · rwa [List.mem_singleton.1 hx]
  · by_cases haway : e = turnedAway
    · exact .inr (by simp [haway])
    · rcases hcalls with hcalls | hmem
      · rw [underWay_concat]
        exact .inl (vouches_goOn hcalls he haway)
      · exact .inr (List.mem_append_left _ hmem)

end Host
end ScriptHost
