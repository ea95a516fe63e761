import ScriptHost.Proofs.Conservation

/-!
# Windows over any native side

A window asks its native side first and goes on only if that agrees, so what is left behind by a
refusal depends on what the native side leaves behind, and on nothing else of it. Here the native
side is any system with the four operations; the two of the bridge are an instance. If its failing
operations leave it as it was, a request that is refused has changed nothing, and of the records
that were created for it none is left.
-/

namespace ScriptHost
namespace Host

open Script Machine Store

/-! ## Systems under a window -/

/-- A post that is refused hands the record back. -/
structure Rejected where
  error : NativeError
  record : Fragment

/-- A system with states of any type. Besides its operations it is told which bindings it refers to
in a state, and which of them a name stands for. -/
structure NativeSide (τ : Type) where
  bind : String → Binding → Attempt NativeError τ Unit
  unbind : String → Attempt NativeError τ Unit
  post : Fragment → Attempt Rejected τ Unit
  resolve : String → CallResult → Attempt NativeError τ Unit
  terminate : τ → τ
  bindings : τ → List Binding
  boundTo? : τ → String → Option Binding

variable {τ : Type}

/-- What fails leaves the system as it was and hands back what it was given. No operation makes the
system refer to a binding that it did not have and was not given. -/
structure NativeSide.Lawful (side : NativeSide τ) : Prop where
  bind_error : ∀ name x n e, (side.bind name x n).1 = .error e → (side.bind name x n).2 = n
  unbind_error : ∀ name n e, (side.unbind name n).1 = .error e → (side.unbind name n).2 = n
  post_error : ∀ f n r, (side.post f n).1 = .error r → (side.post f n).2 = n ∧ r.record = f
  resolve_error : ∀ id result n e, (side.resolve id result n).1 = .error e →
    (side.resolve id result n).2 = n
  bind_refers : ∀ name x n, side.bindings (side.bind name x n).2 ⊆ x :: side.bindings n
  unbind_refers : ∀ name n, side.bindings (side.unbind name n).2 ⊆ side.bindings n
  post_refers : ∀ f n, side.bindings (side.post f n).2 ⊆ side.bindings n
  resolve_refers : ∀ id result n, side.bindings (side.resolve id result n).2 ⊆ side.bindings n
  terminate_refers : ∀ n, side.bindings (side.terminate n) ⊆ side.bindings n

/-! ## Windows -/

/-- A window on a system; `elsewhere` are the references to bindings that callers and callbacks in
progress have. -/
structure Front (τ : Type) where
  window : Window
  native : τ
  ledger : Ledger
  elsewhere : List Binding

namespace Front

variable (side : NativeSide τ)

/-- Every reference to a binding, wherever it is. -/
def references (w : Front τ) : List Binding :=
  w.window.registry.values ++ side.bindings w.native ++ w.elsewhere

def count (f : Ledger → Ledger) (w : Front τ) : Front τ :=
  { w with ledger := f w.ledger }

/-- A binding to which nothing refers is gone. -/
def release (x : Binding) (w : Front τ) : Front τ :=
  if (w.references side).any fun y => y.id == x.id then w
  else w.count fun l => { l with bindingsDropped := l.bindingsDropped + 1 }

def releaseAny : Option Binding → Front τ → Front τ
  | none, w => w
  | some x, w => w.release side x

/-- Bindings are numbered one after the other. -/
def newBinding (function : String) (w : Front τ) : Binding × Front τ :=
  (⟨w.ledger.bindingsCreated, normalizeName function⟩,
    w.count fun l => { l with bindingsCreated := l.bindingsCreated + 1 })

/-- Nothing refers to a binding that has not been created. -/
def IsNumbered (w : Front τ) : Prop :=
  ∀ x ∈ w.references side, x.id < w.ledger.bindingsCreated

end Front

/-! ## Calls of a window -/

/-- What callers and scripts ask of a window. -/
inductive WindowCall
  | bind (name function : String)
  | unbind (name : String)
  | schedule (source : String)
  | returnValue (id : String) (status : Int) (payload : String)
  | setHandler (slot : HandlerSlot) (function : String)
  | terminate

namespace WindowCall

variable (side : NativeSide τ)

/-- What the native side answers to its part of a call. -/
def asked (w : Front τ) : WindowCall → Except NativeError Unit
  | .bind name function =>
      (side.bind name (w.newBinding function).1 w.native).1
  | .unbind name => (side.unbind name w.native).1
  | .schedule source => (side.post ⟨source⟩ w.native).1.mapError Rejected.error
  | .returnValue id status payload => (side.resolve id ⟨status, payload⟩ w.native).1
  | .setHandler _ _ => .ok ()
  | .terminate => .ok ()

/-- The call of a window on such a system. -/
def perform : WindowCall → Attempt HostError (Front τ) Unit
  | .bind name function => fun w =>
      let (x, w) := w.newBinding function
      match side.bind name x w.native with
      | (.error e, n) => (.error (.native e), { w with native := n }.release side x)
      | (.ok (), n) =>
          (.ok (), { w with
            native := n
            window.registry := w.window.registry.insert name x }.releaseAny side
              (w.window.registry.get? name))
  | .unbind name => fun w =>
      match side.unbind name w.native with
      | (.error e, n) => (.error (.native e), { w with native := n })
      | (.ok (), n) =>
          let w' := { w with native := n }.releaseAny side (side.boundTo? w.native name)
          (.ok (), { w' with
            window.registry := w'.window.registry.erase name }.releaseAny side
              (w'.window.registry.get? name))
  | .schedule source => fun w =>
      let w := w.count fun l => { l with dispatchesCreated := l.dispatchesCreated + 1 }
      match side.post ⟨source⟩ w.native with
      | (.ok (), n) => (.ok (), { w with native := n })
      | (.error r, n) =>
          (.error (.native r.error), { w with native := n }.count fun l =>
            { l with dispatchesDropped := l.dispatchesDropped + 1 })
  | .returnValue id status payload => fun w =>
      match side.resolve id ⟨status, payload⟩ w.native with
      | (.error e, n) => (.error (.native e), { w with native := n })
      | (.ok (), n) => (.ok (), { w with native := n })
  | .setHandler slot function => fun w =>
      (.ok (), { w with window.handlers := w.window.handlers.set slot function })
  | .terminate => fun w =>
      (.ok (), { w with window.phase := .terminated, native := side.terminate w.native })

/-- The same call as a request to a bridge. -/
def request : WindowCall → Request Unit
  | .bind name function => Request.bind name function
  | .unbind name => Request.unbind name
  | .schedule source => Request.schedule source
  | .returnValue id status payload => Request.returnValue id status payload
  | .setHandler slot function => Request.setHandler slot function
  | .terminate => Request.terminate

end WindowCall

namespace Front

variable (side : NativeSide τ)

/-- A caller that has no machine any more does not get as far as the native side. -/
def dispatch (live : Bool) (source : String) : Attempt HostError (Front τ) Unit :=
  if live then (WindowCall.schedule source).perform side else Attempt.fail .vmUnavailable

/-- Nothing has been created, and nothing is referred to. -/
structure IsFresh (w : Front τ) : Prop where
  ledger : w.ledger = {}
  references : w.references side = []

/-- The windows that come about from calls, from runs that begin and end, and from whatever the
system, the callers and the callbacks in progress do with bindings that have been created. -/
inductive Reached (start : Front τ) : Front τ → Prop
  | refl : Reached start start
  | call {w} (c : WindowCall) : Reached start w → Reached start (c.perform side w).2
  | phase {w} (p : Phase) : Reached start w → Reached start { w with window.phase := p }
  | other {w n l xs} : Reached start w → w.ledger.bindingsCreated ≤ l.bindingsCreated →
      (∀ x ∈ side.bindings n ++ xs, x.id < l.bindingsCreated) →
      Reached start { w with native := n, ledger := l, elsewhere := xs }

end Front

/-- A script calls a function of its window. If the arguments are wrong no call of the window is
made, and neither is one for a constant. -/
inductive ApiFunction.RunsOn (side : NativeSide τ) (f : ApiFunction) (args : List Value)
    (w : Front τ) : Except ScriptError Value → Front τ → Prop
  | wrong {e} : f.action args = .error e → RunsOn side f args w (.error e) w
  | value {v} : f.action args = .ok (.value v) → RunsOn side f args w (.ok v) w
  | call {c : WindowCall} : f.action args = .ok (.request c.request) →
      RunsOn side f args w (.ok (codeValue (outcomeCode (c.perform side w).1)))
        (c.perform side w).2

/-- Whatever a script requests is a call of the window. -/
theorem ApiFunction.exists_call {f : ApiFunction} {args : List Value} {x : Request Unit}
    (h : f.action args = .ok (.request x)) : ∃ c : WindowCall, x = c.request := by
  rcases action_cases h with ⟨foreign, function, rfl⟩ | ⟨foreign, rfl⟩ | ⟨source, rfl⟩ |
    ⟨id, status, payload, rfl⟩ | rfl | ⟨slot, function, rfl⟩
  · exact ⟨.bind foreign function, rfl⟩
  · exact ⟨.unbind foreign, rfl⟩
  · exact ⟨.schedule source, rfl⟩
  · exact ⟨.returnValue id status payload, rfl⟩
  · exact ⟨.terminate, rfl⟩
  · exact ⟨.setHandler slot function, rfl⟩

/-- Every call of the interface comes to an end, over any system. -/
theorem ApiFunction.exists_runsOn (side : NativeSide τ) (f : ApiFunction) (args : List Value)
    (w : Front τ) : ∃ r w', f.RunsOn side args w r w' := by
  rcases haction : f.action args with e | x | v
  · exact ⟨_, _, .wrong haction⟩
  · rcases exists_call haction with ⟨c, rfl⟩
    exact ⟨_, _, .call haction⟩
  · exact ⟨_, _, .value haction⟩

/-- What a script is told of a success. -/
def ApiFunction.success : Except ScriptError Value :=
  .ok (codeValue NativeError.okCode)

/-- Why a script has not been told of a success. -/
inductive ApiFunction.Refusal (side : NativeSide τ) (f : ApiFunction) (args : List Value)
    (w : Front τ) : Except ScriptError Value → Prop
  | wrong {e} : f.action args = .error e → Refusal side f args w (.error e)
  | constant {v} : f.action args = .ok (.value v) → Refusal side f args w (.ok v)
  | native {c : WindowCall} {e} : f.action args = .ok (.request c.request) →
      c.asked side w = .error e → Refusal side f args w (.ok (codeValue e.code))

/-! ## References are created -/

section Numbers

variable {side : NativeSide τ} {w w' : Front τ} {x : Binding}

/-- A release concerns the ledger alone. -/
theorem Front.releaseAny_eq (side : NativeSide τ) (old : Option Binding) (w : Front τ) :
    ∃ n, w.releaseAny side old =
      w.count fun l => { l with bindingsDropped := l.bindingsDropped + n } := by
  rcases old with _ | x
  · exact ⟨0, rfl⟩
  · rw [releaseAny, release]
    split
    · exact ⟨0, rfl⟩
    · exact ⟨1, rfl⟩

namespace Front.IsNumbered

/-- Numbers stay what they are when a binding is released. -/
theorem releaseAny (hw : w.IsNumbered side) (old : Option Binding) :
    (w.releaseAny side old).IsNumbered side := by
  rcases w.releaseAny_eq side old with ⟨n, heq⟩
  rw [heq]
  exact hw

/-- A native side that refers to nothing new. -/
theorem onNative (hw : w.IsNumbered side) {n : τ} (h : side.bindings n ⊆ side.bindings w.native) :
    { w with native := n }.IsNumbered side := by
  intro y hy
  refine hw y ?_
  simp only [references, List.mem_append] at hy ⊢
  exact hy.imp_left (Or.imp_right (@h y))

/-- A registry that refers to nothing new. -/
theorem onRegistry (hw : w.IsNumbered side) {registry : Table Binding}
    (h : registry.values ⊆ w.window.registry.values) :
    { w with window.registry := registry }.IsNumbered side := by
  intro y hy
  refine hw y ?_
  simp only [references, List.mem_append] at hy ⊢
  exact hy.imp_left (Or.imp_left (@h y))

/-- The native side and the registry refer to a new binding at most. -/
theorem withNew (hw : w.IsNumbered side) {n : τ} {registry : Table Binding} (function : String)
    (hn : side.bindings n ⊆ (w.newBinding function).1 :: side.bindings w.native)
    (hregistry : registry.values ⊆ (w.newBinding function).1 :: w.window.registry.values) :
    { (w.newBinding function).2 with
      native := n, window.registry := registry }.IsNumbered side := by
  intro y hy
  have hmem : y ∈ (w.newBinding function).1 :: w.references side := by
    simp only [references, List.mem_append, List.mem_cons] at hy ⊢
    rcases hy with (hy | hy) | hy
    · exact (List.mem_cons.1 (hregistry hy)).imp_right fun hy => .inl (.inl hy)
    · exact (List.mem_cons.1 (hn hy)).imp_right fun hy => .inl (.inr hy)
    · exact .inr (.inr hy)
  show y.id < w.ledger.bindingsCreated + 1
  rcases List.mem_cons.1 hmem with rfl | hold
  · exact Nat.lt_succ_self _
  · exact (hw y hold).trans (Nat.lt_succ_self _)

end Front.IsNumbered

/-- Only the value that is inserted is new. -/
theorem values_insert_subset (t : Table Binding) (name : String) (x : Binding) :
    (t.insert name x).values ⊆ x :: t.values := by
  intro y hy
  rcases Table.mem_values.1 hy with ⟨own, hown⟩
  rw [Table.get?_insert] at hown
  split at hown
  · cases hown
    exact List.mem_cons_self
  · exact List.mem_cons_of_mem _ (Table.mem_values.2 ⟨own, hown⟩)

theorem values_erase_subset (t : Table Binding) (name : String) :
    (t.erase name).values ⊆ t.values := by
  intro y hy
  rcases Table.mem_values.1 hy with ⟨own, hown⟩
  rw [Table.get?_erase] at hown
  split at hown
  · cases hown
  · exact Table.mem_values.2 ⟨own, hown⟩

/-- Whoever the calls come from, what is referred to has been created. -/
theorem WindowCall.isNumbered_perform (hside : side.Lawful) (c : WindowCall)
    (hw : w.IsNumbered side) : (c.perform side w).2.IsNumbered side := by
  cases c with
  | bind name function =>
      have hrefers := hside.bind_refers name (w.newBinding function).1
        (w.newBinding function).2.native
      unfold perform
      dsimp only
      rcases hbind : side.bind name (w.newBinding function).1 (w.newBinding function).2.native with
        ⟨e | _, n⟩
      · -- Refused: the new reference is given back, as it was never stored.
        rw [hbind] at hrefers
        exact .releaseAny (hw.withNew function hrefers (List.subset_cons_self _ _)) (some _)
      · -- Bound: the reference goes to both tables, and the one the registry held before is given
        -- back.
        rw [hbind] at hrefers
        exact .releaseAny (hw.withNew function hrefers (values_insert_subset _ _ _)) _
  | unbind name =>
      have hrefers := hside.unbind_refers name w.native
      unfold perform
      dsimp only
      rcases hunbind : side.unbind name w.native with ⟨e | _, n⟩
      · rw [hunbind] at hrefers
        exact hw.onNative hrefers
      · rw [hunbind] at hrefers
        have hnative := (hw.onNative hrefers).releaseAny (side.boundTo? w.native name)
        exact .releaseAny (hnative.onRegistry (values_erase_subset _ _)) _
  | schedule source =>
      have hrefers := hside.post_refers ⟨source⟩ w.native
      unfold perform Front.count
      dsimp only
      rcases hpost : side.post ⟨source⟩ w.native with ⟨r | _, n⟩
      · rw [hpost] at hrefers
        exact hw.onNative hrefers
      · rw [hpost] at hrefers
        exact hw.onNative hrefers
  | returnValue id status payload =>
      have hrefers := hside.resolve_refers id ⟨status, payload⟩ w.native
      unfold perform
      dsimp only
      rcases hresolve : side.resolve id ⟨status, payload⟩ w.native with ⟨e | _, n⟩
      · rw [hresolve] at hrefers
        exact hw.onNative hrefers
      · rw [hresolve] at hrefers
        exact hw.onNative hrefers
  | setHandler slot function => exact hw
  | terminate => exact Front.IsNumbered.onNative hw (hside.terminate_refers w.native)

/-- By induction over the calls. -/
theorem Front.Reached.isNumbered {start : Front τ} (hside : side.Lawful)
    (hstart : start.IsFresh side) (h : Reached side start w) : w.IsNumbered side := by
  induction h with
  | refl =>
      intro x hx
      rw [hstart.references] at hx
      cases hx
  | call c _ ih => exact c.isNumbered_perform hside ih
  | phase p _ ih => exact ih
  -- of the references only those of the registry are from before
  | @other w n l xs _ hcreated hxs ih =>
      intro x hx
      simp only [references, List.append_assoc, List.mem_append] at hx
      rcases hx with hx | hx
      · have hregistry : x ∈ w.references side := by
          simp only [references, List.mem_append]
          exact .inl (.inl hx)
        exact Nat.lt_of_lt_of_le (ih x hregistry) hcreated
      · exact hxs x (List.mem_append.2 hx)

end Numbers

/-! ## What a refusal leaves -/

/-- Nothing has changed but the ledger, and by that as many records of each kind are there. -/
structure Front.Unchanged (w w' : Front τ) : Prop where
  same : w' = { w with ledger := w'.ledger }
  liveBindings : w'.ledger.liveBindings = w.ledger.liveBindings
  liveDispatches : w'.ledger.liveDispatches = w.ledger.liveDispatches

section Refusals

variable {side : NativeSide τ} {w : Front τ}

theorem Front.Unchanged.refl (w : Front τ) : w.Unchanged w :=
  ⟨rfl, rfl, rfl⟩

/-- A call of a window fails just where the native side does, and with its error. -/
theorem WindowCall.perform_fst (side : NativeSide τ) (c : WindowCall) (w : Front τ) :
    (c.perform side w).1 = (c.asked side w).mapError HostError.native := by
  cases c with
  | bind name function =>
      unfold perform asked
      dsimp only
      rcases hbind : side.bind name (w.newBinding function).1 (w.newBinding function).2.native with
        ⟨e | _, n⟩
      all_goals
        have hasked : side.bind name (w.newBinding function).1 w.native = _ := hbind
        rw [hasked]
        rfl
  | unbind name =>
      unfold perform asked
      dsimp only
      rcases side.unbind name w.native with ⟨e | _, n⟩ <;> rfl
  | schedule source =>
      unfold perform asked Front.count
      dsimp only
      rcases side.post ⟨source⟩ w.native with ⟨r | _, n⟩ <;> rfl
  | returnValue id status payload =>
      unfold perform asked
      dsimp only
      rcases side.resolve id ⟨status, payload⟩ w.native with ⟨e | _, n⟩ <;> rfl
  | setHandler slot function => rfl
  | terminate => rfl

/-- A new binding is nowhere yet, so it is dropped when the native side does not take it. -/
theorem Front.release_new (hw : w.IsNumbered side) (function : String) :
    (w.newBinding function).2.release side (w.newBinding function).1 =
      { w with ledger := { w.ledger with
        bindingsCreated := w.ledger.bindingsCreated + 1
        bindingsDropped := w.ledger.bindingsDropped + 1 } } := by
  have hnone : ((w.newBinding function).2.references side).any
      (fun y => y.id == (w.newBinding function).1.id) = false := by
    refine List.any_eq_false.2 fun y hy => ?_
    have hlt : y.id < w.ledger.bindingsCreated := hw y hy
    simpa [newBinding] using Nat.ne_of_lt hlt
  rw [release, hnone]
  rfl

/-- Where the native side leaves itself alone, the window has changed nothing else. -/
theorem WindowCall.unchanged_perform (hside : side.Lawful) (hw : w.IsNumbered side)
    {c : WindowCall} {e : HostError} (h : (c.perform side w).1 = .error e) :
    w.Unchanged (c.perform side w).2 := by
  cases c with
  | bind name function =>
      unfold perform at h ⊢
      dsimp only at h ⊢
      rcases hbind : side.bind name (w.newBinding function).1 (w.newBinding function).2.native with
        ⟨e | _, n⟩
      · have hn := hside.bind_error name _ _ e (congrArg Prod.fst hbind)
        rw [hbind] at hn
        cases hn
        -- whether the new binding is dropped is decided by who refers to it, and nobody does
        show w.Unchanged ((w.newBinding function).2.release side (w.newBinding function).1)
        rw [Front.release_new hw]
        exact ⟨rfl, Nat.add_sub_add_right _ 1 _, rfl⟩
      · rw [hbind] at h
        cases h
  | unbind name =>
      unfold perform at h ⊢
      dsimp only at h ⊢
      rcases hunbind : side.unbind name w.native with ⟨e | _, n⟩
      · have hn := hside.unbind_error name _ e (congrArg Prod.fst hunbind)
        rw [hunbind] at hn
        cases hn
        exact .refl w
      · rw [hunbind] at h
        cases h
  | schedule source =>
      unfold perform Front.count at h ⊢
      dsimp only at h ⊢
      rcases hpost : side.post ⟨source⟩ w.native with ⟨r | _, n⟩
      · have hn := (hside.post_error ⟨source⟩ _ r (congrArg Prod.fst hpost)).1
        rw [hpost] at hn
        cases hn
        exact ⟨rfl, rfl, Nat.add_sub_add_right _ 1 _⟩
      · rw [hpost] at h
        cases h
  | returnValue id status payload =>
      unfold perform at h ⊢
      dsimp only at h ⊢
      rcases hresolve : side.resolve id ⟨status, payload⟩ w.native with ⟨e | _, n⟩
      · have hn := hside.resolve_error id _ _ e (congrArg Prod.fst hresolve)
        rw [hresolve] at hn
        cases hn
        exact .refl w
      · rw [hresolve] at h
        cases h
  | setHandler slot function => cases h
  | terminate => cases h

/-- What comes of a dispatch is up to the native side, unless the machine is gone. -/
theorem Front.dispatch_fst (side : NativeSide τ) (w : Front τ) (live : Bool) (source : String) :
    (dispatch side live source w).1 =
      if live then ((WindowCall.schedule source).asked side w).mapError HostError.native
      else .error .vmUnavailable := by
  cases live with
  | true => exact (WindowCall.schedule source).perform_fst side w
  | false => rfl

/-- A dispatch that fails leaves the window as it was. -/
theorem Front.unchanged_dispatch (hside : side.Lawful) (hw : w.IsNumbered side) {live : Bool}
    {source : String} {e : HostError} (h : (dispatch side live source w).1 = .error e) :
    w.Unchanged (dispatch side live source w).2 := by
  cases live with
  | true =>
      have hlive : dispatch side true source = (WindowCall.schedule source).perform side :=
        if_pos rfl
      rw [hlive] at h ⊢
      exact WindowCall.unchanged_perform hside hw h
  | false => exact .refl w

/-- The code of a failure is never that of success. -/
theorem ApiFunction.failure_ne_success (e : NativeError) :
    .ok (codeValue e.code) ≠ ApiFunction.success := by
  cases e <;> decide +kernel

/-- A script that is not told of a success is told why: its arguments were wrong, it asked for a
constant, or the native side has refused its part of a call. -/
theorem ApiFunction.RunsOn.refusal {f : ApiFunction} {args : List Value} {w' : Front τ}
    {r : Except ScriptError Value} (h : f.RunsOn side args w r w')
    (hr : r ≠ ApiFunction.success) : f.Refusal side args w r := by
  cases h with
  | wrong haction => exact .wrong haction
  | value haction => exact .constant haction
  | @call c haction =>
      have howns := c.perform_fst side w
      cases hasked : c.asked side w with
      | error e =>
          rw [howns, hasked]
          exact .native haction hasked
      | ok _ =>
          rw [howns, hasked] at hr
          exact absurd rfl hr

/-- A call of the interface that does not succeed leaves the window as it was. -/
theorem ApiFunction.RunsOn.unchanged {f : ApiFunction} {args : List Value} {w' : Front τ}
    {r : Except ScriptError Value} (h : f.RunsOn side args w r w') (hside : side.Lawful)
    (hw : w.IsNumbered side) (hr : r ≠ ApiFunction.success) : w.Unchanged w' := by
  cases h with
  | wrong => exact .refl w
  | value => exact .refl w
  | @call c =>
      cases hc : (c.perform side w).1 with
      | error e => exact c.unchanged_perform hside hw hc
      | ok _ =>
          rw [hc] at hr
          exact absurd rfl hr

end Refusals

/-! ## Windows on lawful systems -/

/-- A refusal of any kind has the reason that the native side gives, and has changed nothing. A
machine whose script is refused keeps its globals and its functions. -/
structure Front.RefusesCleanly (side : NativeSide τ) (w : Front τ) : Prop where
  own (c : WindowCall) : (c.perform side w).1 = (c.asked side w).mapError HostError.native
  calls {c : WindowCall} {e : HostError} : (c.perform side w).1 = .error e →
    w.Unchanged (c.perform side w).2
  ownDispatch (live : Bool) (source : String) : (Front.dispatch side live source w).1 =
    if live then ((WindowCall.schedule source).asked side w).mapError HostError.native
    else .error .vmUnavailable
  dispatch {live : Bool} {source : String} {e : HostError} :
    (Front.dispatch side live source w).1 = .error e →
      w.Unchanged (Front.dispatch side live source w).2
  answers (f : ApiFunction) (args : List Value) : ∃ r w', f.RunsOn side args w r w'
  scripts {f : ApiFunction} {args : List Value} {r : Except ScriptError Value} {w' : Front τ} :
    f.RunsOn side args w r w' → r ≠ ApiFunction.success →
      w.Unchanged w' ∧ f.Refusal side args w r
  told {f : ApiFunction} {args : List Value} {c : WindowCall} {e : NativeError} :
    f.action args = .ok (.request c.request) → c.asked side w = .error e →
      ∃ w', f.RunsOn side args w (.ok (ApiFunction.codeValue e.code)) w' ∧
        .ok (ApiFunction.codeValue e.code) ≠ ApiFunction.success
  machines {ν : Type} {natives : Natives ν (Front τ)} {native : ν} {f : ApiFunction} :
    (∀ args w, f.RunsOn side args w (natives native args w).1 (natives native args w).2) →
    ∀ (base : Nat) (m : Hosted ν (Front τ)), m.host = w →
      (natives native (argumentsFrom base m) w).1 ≠ ApiFunction.success →
      w.Unchanged (Step.callNative natives native base m).2.host ∧
      (Step.callNative natives native base m).2.vm.globals = m.vm.globals ∧
      (Step.callNative natives native base m).2.vm.functions = m.vm.functions

/-- A window whose bindings are numbered refuses cleanly. -/
theorem Front.IsNumbered.refusesCleanly {side : NativeSide τ} {w : Front τ} (hside : side.Lawful)
    (hw : w.IsNumbered side) : w.RefusesCleanly side where
  own c := c.perform_fst side w
  calls h := WindowCall.unchanged_perform hside hw h
  ownDispatch live source := w.dispatch_fst side live source
  dispatch h := Front.unchanged_dispatch hside hw h
  answers f args := f.exists_runsOn side args w
  scripts h hr := ⟨h.unchanged hside hw hr, h.refusal hr⟩
  told {_ _ c e} haction hasked := by
    have howns := c.perform_fst side w
    rw [hasked] at howns
    have hanswer : ApiFunction.outcomeCode (c.perform side w).1 = e.code := by
      rw [howns]
      rfl
    refine ⟨(c.perform side w).2, ?_, ApiFunction.failure_ne_success e⟩
    rw [← hanswer]
    exact .call haction
  machines {_ natives native _} hruns base m hm hr := by
    rcases callNative_keeps natives native base m with ⟨hhost, hglobals, hfunctions⟩
    rw [hhost, hm]
    exact ⟨(hruns (argumentsFrom base m) w).unchanged hside hw hr, hglobals, hfunctions⟩

end Host
end ScriptHost
