import ScriptHost.Machine.Invoke
import ScriptHost.Proofs.Evaluation
import ScriptHost.Proofs.Stepping

/-!
# Runs that follow an evaluation

A run goes, stops with an error or lasts. It follows an evaluation if it goes where the evaluation
ends, stops with its error in the same world, or lasts at least as many steps as the evaluation had
fuel; all of this unless the machine runs out of room first, which an evaluation knows nothing of.
The rules below build runs that follow a whole tree from runs that follow its parts.
-/

namespace ScriptHost
namespace Machine

open Script Evaluation

variable {ν σ α β : Type}

/-- What an evaluation sees of a machine. -/
def Hosted.world (m : Hosted ν σ) : World σ :=
  ⟨m.vm.globals, m.host⟩

section Runs

variable (natives : Natives ν σ) (depth : Nat)

/-! ## Runs -/

/-- So many steps lead from one machine to another, each taken above the given depth. -/
inductive Goes : Nat → Hosted ν σ → Hosted ν σ → Prop
  | refl {m} : Goes 0 m m
  | next {k m m₁ m₂} : depth < m.vm.stack.frames.size → step natives m = (.ok (), m₁) →
      Goes k m₁ m₂ → Goes (k + 1) m m₂

/-- The run ends with the error in the given world. -/
def Stops (m : Hosted ν σ) (e : ScriptError) (w : World σ) : Prop :=
  ∃ k m₁ m₂, Goes natives depth k m m₁ ∧ depth < m₁.vm.stack.frames.size ∧
    step natives m₁ = (.error e, m₂) ∧ m₂.world = w

/-- The errors of a machine that has no more room. -/
def IsLimit : ScriptError → Prop
  | .stackOverflow => True
  | .callDepthExceeded _ => True
  | _ => False

/-- The run stops because of a limit. -/
def Exceeds (m : Hosted ν σ) : Prop :=
  ∃ e w, IsLimit e ∧ Stops natives depth m e w

/-- The run takes at least `n` steps. -/
def Lasts (n : Nat) (m : Hosted ν σ) : Prop :=
  ∃ k m', n ≤ k ∧ Goes natives depth k m m'

/-- The run from `m` follows an evaluation that has ended in this way. -/
def Follows (n : Nat) (m : Hosted ν σ) (post : α → World σ → Hosted ν σ → Prop) :
    Option (Except ScriptError α × World σ) → Prop
  -- an evaluation that needs more fuel tells only how long the run lasts
  | none => Exceeds natives depth m ∨ Lasts natives depth n m
  | some (.ok a, w) => Exceeds natives depth m ∨ ∃ k m', Goes natives depth k m m' ∧ post a w m'
  | some (.error e, w) => Exceeds natives depth m ∨ Stops natives depth m e w

end Runs

section Rules

variable {natives : Natives ν σ} {depth n k : Nat} {m m' : Hosted ν σ}
variable {post : α → World σ → Hosted ν σ → Prop} {w : World σ}

theorem Goes.trans {j : Nat} {m₁ m₂ : Hosted ν σ} (h : Goes natives depth j m m₁)
    (h' : Goes natives depth k m₁ m₂) : Goes natives depth (j + k) m m₂ := by
  induction h with
  | refl => rwa [Nat.zero_add]
  | next habove hstep _ ih =>
      rw [Nat.add_right_comm]
      exact .next habove hstep (ih h')

/-- A run that goes on and then stops. -/
theorem Goes.stops {e : ScriptError} (h : Goes natives depth k m m')
    (hstops : Stops natives depth m' e w) : Stops natives depth m e w := by
  rcases hstops with ⟨j, m₁, m₂, hgoes, hrest⟩
  exact ⟨k + j, m₁, m₂, h.trans hgoes, hrest⟩

theorem Goes.exceeds (h : Goes natives depth k m m') (hexceeds : Exceeds natives depth m') :
    Exceeds natives depth m := by
  rcases hexceeds with ⟨e, w, hlimit, hstops⟩
  exact ⟨e, w, hlimit, h.stops hstops⟩

/-- A run that goes on and then lasts. -/
theorem Goes.lasts (h : Goes natives depth k m m') (hlasts : Lasts natives depth n m') :
    Lasts natives depth (k + n) m := by
  rcases hlasts with ⟨j, m₁, hle, hgoes⟩
  exact ⟨k + j, m₁, Nat.add_le_add_left hle k, h.trans hgoes⟩

/-- What lasts long lasts for a shorter while. -/
theorem Lasts.mono {n' : Nat} (h : Lasts natives depth n m) (hle : n' ≤ n) :
    Lasts natives depth n' m := by
  rcases h with ⟨k, m', hk, hgoes⟩
  exact ⟨k, m', Nat.le_trans hle hk, hgoes⟩

/-! ## Rules -/

/-- A run that exceeds a limit follows anything. -/
theorem follows_of_exceeds {out : Option (Except ScriptError α × World σ)}
    (h : Exceeds natives depth m) : Follows natives depth n m post out := by
  rcases out with _ | ⟨_ | _, _⟩ <;> exact .inl h

/-- An evaluation that is done. -/
theorem follows_done {a : α} (h : post a w m) :
    Follows natives depth n m post (some (.ok a, w)) :=
  .inr ⟨0, m, .refl, h⟩

/-- What follows an evaluation after some steps follows it from before them. The steps count. -/
theorem Goes.follows {out : Option (Except ScriptError α × World σ)}
    (h : Goes natives depth k m m') (hfollows : Follows natives depth n m' post out) :
    Follows natives depth (k + n) m post out := by
  rcases out with _ | ⟨_ | a, w⟩
  · exact hfollows.imp h.exceeds h.lasts
  · exact hfollows.imp h.exceeds h.stops
  · refine hfollows.imp h.exceeds ?_
    rintro ⟨j, m₁, hgoes, hpost⟩
    exact ⟨k + j, m₁, h.trans hgoes, hpost⟩

/-- A run follows with less fuel as well. -/
theorem Follows.mono {out : Option (Except ScriptError α × World σ)} {n' : Nat}
    (h : Follows natives depth n m post out) (hle : n' ≤ n) :
    Follows natives depth n' m post out := by
  rcases out with _ | ⟨_ | a, w⟩
  · exact h.imp_right fun hlasts => hlasts.mono hle
  · exact h
  · exact h

/-- Steps that are not counted. -/
theorem Goes.follows_same {out : Option (Except ScriptError α × World σ)}
    (h : Goes natives depth k m m') (hfollows : Follows natives depth n m' post out) :
    Follows natives depth n m post out :=
  (h.follows hfollows).mono (Nat.le_add_left n k)

/-- One evaluation after the other. -/
theorem follows_bind {post' : β → World σ → Hosted ν σ → Prop} {x : Evaluation σ α}
    {f : α → Evaluation σ β} (hx : Follows natives depth n m post (x w))
    (hf : ∀ a w' m', post a w' m' → Follows natives depth n m' post' (f a w')) :
    Follows natives depth n m post' ((x >>= f) w) := by
  have hbind : (x >>= f) w =
      match x w with
      | none => none
      | some (.ok a, w) => f a w
      | some (.error e, w) => some (.error e, w) :=
    rfl
  rw [hbind]
  rcases hout : x w with _ | ⟨_ | a, w'⟩ <;> rw [hout] at hx
  · exact hx
  · exact hx
  · -- the second part goes on from where the first one has gone
    rcases hx with hexceeds | ⟨k, m', hgoes, hpost⟩
    · exact follows_of_exceeds hexceeds
    · exact hgoes.follows_same (hf a w' m' hpost)

/-- Steps of the machine after the evaluation has ended. -/
theorem Follows.then_goes {post' : α → World σ → Hosted ν σ → Prop}
    {out : Option (Except ScriptError α × World σ)} (h : Follows natives depth n m post out)
    (hgoes : ∀ a w m', post a w m' → ∃ k m'', Goes natives depth k m' m'' ∧ post' a w m'') :
    Follows natives depth n m post' out := by
  rcases out with _ | ⟨_ | a, w⟩
  · exact h
  · exact h
  · refine h.imp_right ?_
    rintro ⟨k, m', hfirst, hpost⟩
    rcases hgoes a w m' hpost with ⟨j, m'', hthen, hpost'⟩
    exact ⟨k + j, m'', hfirst.trans hthen, hpost'⟩

theorem follows_map {post' : β → World σ → Hosted ν σ → Prop} {x : Evaluation σ α} {f : α → β}
    (hx : Follows natives depth n m post (x w))
    (hf : ∀ a w' m', post a w' m' → post' (f a) w' m') :
    Follows natives depth n m post' ((x >>= fun a => pure (f a)) w) :=
  follows_bind hx fun a w' m' h => follows_done (hf a w' m' h)

theorem goes_of_step (habove : depth < m.vm.stack.frames.size)
    (hstep : step natives m = (.ok (), m')) : Goes natives depth 1 m m' :=
  .next habove hstep .refl

/-- An instruction that fails with the evaluation. -/
theorem follows_fails {e : ScriptError} (habove : depth < m.vm.stack.frames.size)
    (hstep : step natives m = (.error e, m')) :
    Follows natives depth n m post (some (.error e, m'.world)) :=
  .inr ⟨0, m, m', .refl, habove, hstep, rfl⟩

/-- An instruction that fails because of a limit. -/
theorem exceeds_of_step {e : ScriptError} (habove : depth < m.vm.stack.frames.size)
    (hstep : step natives m = (.error e, m')) (he : IsLimit e) : Exceeds natives depth m :=
  ⟨e, _, he, 0, m, m', .refl, habove, hstep, rfl⟩

/-! ## Loops over instructions -/

/-- The budget pays for the instructions. -/
theorem Goes.runUntil_add (h : Goes natives depth k m m') (budget : Nat) :
    runUntil natives depth (k + budget) m = runUntil natives depth budget m' := by
  induction h with
  | refl => rw [Nat.zero_add]
  | next habove hstep _ ih =>
      rw [Nat.add_right_comm, runUntil_of_step habove hstep, ih]

/-- A run that goes further than the budget is not over within it. -/
theorem Goes.runUntil_of_lt (h : Goes natives depth k m m') {budget : Nat} (hlt : budget < k) :
    runUntil natives depth budget m = none := by
  -- every step is taken above the depth, so the budget is used up by steps alone
  induction h generalizing budget with
  | refl => omega
  | next habove hstep _ ih =>
      cases budget with
      | zero => rw [runUntil, if_neg (Nat.not_le.2 habove)]
      | succ budget =>
          rw [runUntil_of_step habove hstep]
          exact ih (by omega)

/-- A longer budget changes nothing about a run that is over. -/
theorem runUntil_mono {budget budget' : Nat} {r : Except ScriptError Unit × Hosted ν σ}
    (h : runUntil natives depth budget m = some r) (hle : budget ≤ budget') :
    runUntil natives depth budget' m = some r := by
  induction budget generalizing m budget' with
  | zero =>
      unfold runUntil at h ⊢
      split at h
      · rw [if_pos ‹_›, h]
      · cases h
  | succ budget ih =>
      cases budget' with
      | zero => omega
      | succ budget' =>
          unfold runUntil at h ⊢
          split at h
          · rw [if_pos ‹_›, h]
          · rw [if_neg ‹_›]
            rcases hstep : step natives m with ⟨_ | _, m'⟩
            · rw [hstep] at h
              exact h
            · rw [hstep] at h
              exact ih h (by omega)

/-- Where a run ends does not depend on the budget. -/
theorem runUntil_unique {budget budget' : Nat} {ended ended' : Except ScriptError Unit × Hosted ν σ}
    (h : runUntil natives depth budget m = some ended)
    (h' : runUntil natives depth budget' m = some ended') : ended = ended' := by
  have hmax := runUntil_mono h (Nat.le_max_left budget budget')
  rw [runUntil_mono h' (Nat.le_max_right budget budget')] at hmax
  exact (Option.some.inj hmax).symm

/-- A run that stops does so within some budget. -/
theorem Stops.runUntil {e : ScriptError} (h : Stops natives depth m e w) :
    ∃ budget m', runUntil natives depth budget m = some (.error e, m') ∧ m'.world = w := by
  rcases h with ⟨k, m₁, m₂, hgoes, habove, hstep, hworld⟩
  refine ⟨k + 1, m₂, ?_, hworld⟩
  rw [hgoes.runUntil_add, runUntil_of_error habove hstep]

/-! ## Runs that are over -/

/-- How a run is over that follows an evaluation with this end. -/
def Arrives (post : α → World σ → Hosted ν σ → Prop) :
    Except ScriptError α × World σ → Except ScriptError Unit × Hosted ν σ → Prop
  | (.ok a, w), (.ok (), m) => post a w m
  | (.error e, w), (.error e', m) => e' = e ∧ m.world = w
  | _, _ => False

/-- The result of a machine that had no more room. -/
def IsOverflow : Except ScriptError α → Prop
  | .ok _ => False
  | .error e => IsLimit e

/-- An evaluation that ends has a run that is over in the same way or for want of room. -/
theorem Follows.ends {final : Except ScriptError α × World σ}
    (h : Follows natives depth n m post (some final))
    (hpost : ∀ a w m', post a w m' → m'.vm.stack.frames.size ≤ depth) :
    ∃ budget ended, runUntil natives depth budget m = some ended ∧
      (IsOverflow ended.1 ∨ Arrives post final ended) := by
  have hlimit (hexceeds : Exceeds natives depth m) :
      ∃ budget ended, runUntil natives depth budget m = some ended ∧
        (IsOverflow ended.1 ∨ Arrives post final ended) := by
    rcases hexceeds with ⟨e, w, he, hstops⟩
    rcases hstops.runUntil with ⟨budget, m', hrun, _⟩
    exact ⟨budget, _, hrun, .inl he⟩
  rcases final with ⟨e | a, w⟩
  · rcases h with hexceeds | hstops
    · exact hlimit hexceeds
    · rcases hstops.runUntil with ⟨budget, m', hrun, hworld⟩
      exact ⟨budget, _, hrun, .inr ⟨rfl, hworld⟩⟩
  · rcases h with hexceeds | ⟨k, m', hgoes, hend⟩
    · exact hlimit hexceeds
    · refine ⟨k + 0, (.ok (), m'), ?_, .inr hend⟩
      rw [hgoes.runUntil_add, runUntil_of_le (hpost a w m' hend)]

/-- A run that is over within fewer steps than there was fuel has an evaluation that ends. -/
theorem Follows.ended {out : Option (Except ScriptError α × World σ)} {budget : Nat}
    {ended : Except ScriptError Unit × Hosted ν σ} (h : Follows natives depth n m post out)
    (hpost : ∀ a w m', post a w m' → m'.vm.stack.frames.size ≤ depth)
    (hrun : runUntil natives depth budget m = some ended) (hlt : budget < n) :
    IsOverflow ended.1 ∨ ∃ final, out = some final ∧ Arrives post final ended := by
  cases out with
  | none =>
      rcases h with ⟨e, w, he, hstops⟩ | ⟨k, m', hle, hgoes⟩
      · rcases hstops.runUntil with ⟨budget', m', hrun', _⟩
        rw [runUntil_unique hrun hrun']
        exact .inl he
      · -- the run would have lasted longer than the budget
        rw [hgoes.runUntil_of_lt (Nat.lt_of_lt_of_le hlt hle)] at hrun
        cases hrun
  | some final =>
      rcases h.ends hpost with ⟨budget', ended', hrun', hends⟩
      rw [runUntil_unique hrun hrun']
      exact hends.imp_right fun harrives => ⟨final, rfl, harrives⟩

end Rules

/-! ## Larger budgets -/

section Budgets

variable {natives : Natives ν σ} {m : Hosted ν σ} {budget budget' : Nat}

/-- A larger budget makes no difference to a source that ends. -/
theorem runSource_mono {source : String}
    {r : Except ScriptError Value × Hosted ν σ}
    (h : runSource natives budget source m = some r) (hle : budget ≤ budget') :
    runSource natives budget' source m = some r := by
  unfold runSource at h ⊢
  rcases hbegin : beginSource source m with ⟨e | mark, m₁⟩
  · simp only [hbegin] at h
    exact h
  · simp only [hbegin] at h
    cases hrun : runUntil natives mark.frames budget m₁ with
    | none =>
        rw [hrun] at h
        cases h
    | some ended =>
        rw [hrun] at h
        simp only [runUntil_mono hrun hle]
        exact h

theorem invoke_mono {name : String} {args : List String} {r : Invocation × Hosted ν σ}
    (h : invoke natives budget name args m = some r) (hle : budget ≤ budget') :
    invoke natives budget' name args m = some r := by
  unfold invoke at h ⊢
  split
  · rename_i hempty
    rwa [if_pos hempty] at h
  · rename_i hname
    rw [if_neg hname] at h
    cases hvm : m.vm.loadFunction name with
    | none =>
        rw [hvm] at h
        exact h
    | some vm =>
        rw [hvm] at h
        -- Only the loop of the call asks for the budget.
        unfold completeCall at h ⊢
        rcases hbegin : beginCall natives args { m with vm := vm } with ⟨e | _, m₁⟩
        · simp only [hbegin] at h ⊢
          exact h
        · simp only [hbegin] at h ⊢
          cases hrun : runUntil natives m.vm.mark.frames budget m₁ with
          | none =>
              rw [hrun] at h
              cases h
          | some ended =>
              rw [hrun] at h
              rw [runUntil_mono hrun hle]
              exact h

end Budgets

end Machine
end ScriptHost
