import ScriptHost.Host.Session
import ScriptHost.Proofs.NativeCalls

/-!
# What leaves the queue alone

Most of what a window asks of its native side is about names and results, and has nothing to do with
the queue of the loop or with who runs it. Here are those requests, and all the requests that a
script can make.
-/

namespace ScriptHost
namespace Host

open Script Machine

/-! ## Operations aside -/

/-- The second loop differs from the first one at most in bindings and results. -/
def EventLoop.Aside {ρ : Type} (l l' : EventLoop ρ) : Prop :=
  ∃ bindings pending results,
    l' = { l with bindings := bindings, pending := pending, results := results }

/-- The same of native sides. -/
def Native.Aside (n n' : Native) : Prop :=
  ∀ l, n = .headless l → ∃ l', n' = .headless l' ∧ l.Aside l'

namespace Native.Aside

variable {n n₁ n₂ : Native}

theorem refl (n : Native) : n.Aside n :=
  fun l h => ⟨l, h, _, _, _, rfl⟩

theorem trans (h : n.Aside n₁) (h' : n₁.Aside n₂) : n.Aside n₂ := by
  rintro l rfl
  rcases h l rfl with ⟨l₁, rfl, bindings, pending, results, rfl⟩
  rcases h' _ rfl with ⟨l₂, rfl, bindings', pending', results', rfl⟩
  exact ⟨_, rfl, bindings', pending', results', rfl⟩

/-- What leaves the queue of the loop alone leaves that of the native side alone. -/
theorem attempt {op : EventLoop Fragment → Except NativeError (EventLoop Fragment)}
    (hop : ∀ l l', op l = .ok l' → l.Aside l') (h : n.attempt op = .ok n₁) : n.Aside n₁ := by
  rintro l rfl
  cases hl : op l with
  | error e =>
      simp only [Native.attempt, hl] at h
      cases h
  | ok l' =>
      simp only [Native.attempt, hl] at h
      cases h
      exact ⟨l', rfl, hop l l' hl⟩

/-- A name is bound without a look at the queue. -/
theorem bind {name : String} {x : Binding} (h : n.bind name x = .ok n₁) : n.Aside n₁ := by
  refine attempt ?_ h
  intro l l' hl
  unfold EventLoop.bind at hl
  split at hl
  · cases hl
  · cases hl
    exact ⟨_, _, _, rfl⟩

theorem unbind {name : String} (h : n.unbind name = .ok n₁) : n.Aside n₁ := by
  refine attempt ?_ h
  intro l l' hl
  unfold EventLoop.unbind at hl
  split at hl
  · cases hl
    exact ⟨_, _, _, rfl⟩
  · cases hl

/-- A result comes in without a look at the queue. -/
theorem resolve {id : String} {result : CallResult} (h : n.resolve id result = .ok n₁) :
    n.Aside n₁ := by
  refine attempt ?_ h
  intro l l' hl
  unfold EventLoop.resolve at hl
  split at hl
  · cases hl
    exact ⟨_, _, _, rfl⟩
  · cases hl

end Native.Aside

/-! ## The bridge -/

namespace Bridge

variable (b : Bridge) (x : Binding) (name : String)

/-- A release concerns the ledger alone. -/
@[simp]
theorem native_release : (b.release x).native = b.native := by
  unfold release
  split <;> rfl

@[simp]
theorem native_releaseAny (x : Option Binding) : (b.releaseAny x).native = b.native := by
  cases x with
  | none => rfl
  | some x => exact b.native_release x

/-- The registry is the window's own. -/
@[simp]
theorem native_enroll : (b.enroll name x).native = b.native := by
  simp [enroll]

@[simp]
theorem native_strike : (b.strike name).native = b.native := by
  simp [strike]

/-- Whether the name is bound or refused. -/
theorem aside_bindNative : b.native.Aside (bindNative name x b).2.native := by
  unfold bindNative
  cases h : b.native.bind name x with
  | error e => exact Native.Aside.refl _
  | ok n => exact Native.Aside.bind h

/-- Whether the name is unbound or unknown. -/
theorem aside_unbindNative : b.native.Aside (unbindNative name b).2.native := by
  unfold unbindNative
  cases h : b.native.unbind name with
  | error e => exact Native.Aside.refl _
  | ok n =>
      dsimp only
      rw [native_releaseAny]
      exact Native.Aside.unbind h

/-- Whether the result is accepted or refused. -/
theorem aside_resolveNative (id : String) (result : CallResult) :
    b.native.Aside (resolveNative id result b).2.native := by
  unfold resolveNative
  cases h : b.native.resolve id result with
  | error e => exact Native.Aside.refl _
  | ok n => exact Native.Aside.resolve h

/-- A call only makes its id wait. -/
theorem aside_expectResult (id : String) : b.native.Aside (b.expectResult id).native := by
  intro l hl
  refine ⟨l.expectResult id, ?_, _, _, _, rfl⟩
  show b.native.update _ = _
  rw [hl]
  rfl

/-- Whoever takes a result takes no record. -/
theorem aside_takeResult (id : String) : b.native.Aside (b.takeResult id).2.native := by
  unfold takeResult
  split
  · rename_i l hl
    rw [hl]
    rintro l' ⟨⟩
    exact ⟨_, rfl, _, _, _, rfl⟩
  · exact Native.Aside.refl _

end Bridge

/-! ## Requests -/

namespace Request

variable (b : Bridge) (name function : String)

/-- A window that binds a name leaves the queue alone. -/
theorem aside_bind : b.native.Aside (Request.bind name function b).2.native := by
  have h := (b.newBinding function).2.aside_bindNative (b.newBinding function).1 name
  unfold Request.bind
  dsimp only
  split
  · rename_i hbind
    rw [hbind] at h
    rw [Bridge.native_release]
    exact h
  · rename_i hbind
    rw [hbind] at h
    rw [Bridge.native_enroll]
    exact h

/-- Only the error of a request is put differently. -/
theorem ofNative_snd {α : Type} (x : Attempt NativeError Bridge α) :
    (ofNative x b).2 = (x b).2 := by
  unfold ofNative
  split <;> simp [*]

/-- A window that unbinds one does too. -/
theorem aside_unbind : b.native.Aside (Request.unbind name b).2.native := by
  have h := b.aside_unbindNative name
  rw [← ofNative_snd] at h
  unfold Request.unbind
  rw [Attempt.bind_apply]
  rcases hfirst : ofNative (Bridge.unbindNative name) b with ⟨e | _, b₁⟩
  · rw [hfirst] at h
    exact h
  · rw [hfirst] at h
    show b.native.Aside (b₁.strike name).native
    rw [Bridge.native_strike]
    exact h

theorem aside_returnValue (id : String) (status : Int) (payload : String) :
    b.native.Aside (Request.returnValue id status payload b).2.native := by
  unfold Request.returnValue
  rw [ofNative_snd]
  exact b.aside_resolveNative id _

end Request

/-! ## Native functions -/

/-- What has succeeded as a whole has succeeded in its last part. -/
theorem bind_eq_ok {ε α β : Type} {x : Except ε α} {f : α → Except ε β} {v : β}
    (h : (x >>= f) = .ok v) : ∃ a, f a = .ok v := by
  cases x with
  | error e => cases h
  | ok a => exact ⟨a, h⟩

/-- All that a script can ask of its window by calling a function. -/
theorem ApiFunction.action_cases {f : ApiFunction} {args : List Value} {x : Request Unit}
    (h : f.action args = .ok (.request x)) :
    (∃ foreign function, x = Request.bind foreign function) ∨
    (∃ foreign, x = Request.unbind foreign) ∨
    (∃ source, x = Request.schedule source) ∨
    (∃ id status payload, x = Request.returnValue id status payload) ∨
    x = Request.terminate ∨
    ∃ slot function, x = Request.setHandler slot function := by
  -- a call with other arguments than those asked for is no request
  unfold ApiFunction.action at h
  split at h
  · rcases bind_eq_ok h with ⟨foreign, h⟩
    rcases bind_eq_ok h with ⟨function, h⟩
    cases h
    exact .inl ⟨foreign, function, rfl⟩
  · cases h
  · rcases bind_eq_ok h with ⟨foreign, h⟩
    cases h
    exact .inr (.inl ⟨foreign, rfl⟩)
  · cases h
  · rcases bind_eq_ok h with ⟨source, h⟩
    cases h
    exact .inr (.inr (.inl ⟨source, rfl⟩))
  · cases h
  · rcases bind_eq_ok h with ⟨id, h⟩
    rcases bind_eq_ok h with ⟨status, h⟩
    rcases bind_eq_ok h with ⟨payload, h⟩
    cases h
    exact .inr (.inr (.inr (.inl ⟨id, _, payload, rfl⟩)))
  · cases h
  · cases h
    exact .inr (.inr (.inr (.inr (.inl rfl))))
  · cases h
  · rename_i slot _
    rcases bind_eq_ok h with ⟨function, h⟩
    cases h
    exact .inr (.inr (.inr (.inr (.inr ⟨slot, function, rfl⟩))))
  all_goals cases h

theorem ApiFunction.native_afterOutcome (r : Except HostError Unit) (b : Bridge) :
    (afterOutcome r b).native = b.native := by
  unfold afterOutcome
  split <;> rfl

end Host
end ScriptHost
