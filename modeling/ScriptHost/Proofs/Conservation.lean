import ScriptHost.Proofs.Operations

/-!
# The ledger is conserved

Whatever is done with a session, what has been created and not dropped is somewhere; so nothing is
left in the ledger when everything has been given up.
-/

namespace ScriptHost

namespace Store.Table

variable {α : Type}

/-- Erasing names one after the other leaves the entries under other names. -/
theorem entries_foldl_erase (names : List String) (t : Table α) :
    (names.foldl erase t).entries = t.entries.filter fun e => !names.contains e.1 := by
  induction names generalizing t with
  | nil => simp
  | cons name rest ih =>
      rw [List.foldl_cons, ih]
      show (t.entries.filter fun e => e.1 != name).filter _ = _
      rw [List.filter_filter]
      refine List.filter_congr fun e _ => ?_
      rw [List.contains_cons, Bool.not_or, Bool.and_comm]
      rfl

/-- Nothing is left once every name has been erased. -/
theorem entries_foldl_erase_names (t : Table α) : (t.names.foldl erase t).entries = [] := by
  rw [entries_foldl_erase]
  refine List.filter_eq_nil_iff.2 fun e he => ?_
  have hmem : e.1 ∈ t.names := List.mem_map.2 ⟨e, he, rfl⟩
  simp [hmem]

theorem erase_of_none {t : Table α} {name : String} (h : t.get? name = none) :
    t.erase name = t := by
  have hentries : (t.erase name).entries = t.entries := by
    refine List.filter_eq_self.2 fun e he => bne_iff_ne.2 ?_
    rintro rfl
    exact not_mem_names h (List.mem_map.2 ⟨e, he, rfl⟩)
  cases t
  unfold erase at hentries ⊢
  congr

end Store.Table

namespace Host

open Script Machine Store

/-! ## The beginning -/

/-- A headless loop that has not been touched, or a system that refuses. -/
def Native.IsFresh (n : Native) : Prop :=
  (∃ capacity, n = .headless (.new capacity)) ∨ ∃ e, n = .refusing e

/-- A session at its beginning, with whatever functions the machine has. -/
def Session.IsFresh (s : Session) : Prop :=
  ∃ native : Native, native.IsFresh ∧ s.bridge = { native := native }

namespace Bridge

/-- In the beginning the books are in order, since there is nothing. -/
theorem balanced_fresh {native : Native} (h : native.IsFresh) :
    Balanced { native := native } := by
  have hnone : alive { native := native } = ∅ := by
    rcases h with ⟨capacity, rfl⟩ | ⟨e, rfl⟩ <;> rfl
  have hqueue : native.queue = [] := by
    rcases h with ⟨capacity, rfl⟩ | ⟨e, rfl⟩ <;> rfl
  unfold Balanced
  rw [hnone]
  refine ⟨rfl, fun i hi => ?_, ?_⟩
  · cases hi
  · show 0 = 0 + (native.queue.length + 0 + 0)
    rw [hqueue]
    rfl

/-! ## Giving everything up -/

/-- Nothing has been created, and nothing has come to a place where it was not before. -/
structure Shrinks (b b' : Bridge) : Prop where
  bindingsCreated : b'.ledger.bindingsCreated = b.ledger.bindingsCreated
  dispatchesCreated : b'.ledger.dispatchesCreated = b.ledger.dispatchesCreated
  registry : b'.window.registry.entries ⊆ b.window.registry.entries
  bindings : b'.native.bindings ⊆ b.native.bindings
  queue : b'.native.queue ⊆ b.native.queue
  held : b'.held.entries ⊆ b.held.entries
  drafts : b'.drafts.entries ⊆ b.drafts.entries
  inHand : b'.inHand = b.inHand
  inProgress : b'.inProgress = b.inProgress

/-- The second bridge comes about from the first one by changes that only give up. -/
def Fades (b b' : Bridge) : Prop :=
  (∃ events, b.Changes events b') ∧ b.Shrinks b'

section Fades

variable {b b₁ b₂ : Bridge}

theorem Fades.refl (b : Bridge) : b.Fades b :=
  ⟨⟨[], .nil⟩, rfl, rfl, fun _ => id, fun _ => id, fun _ => id, fun _ => id, fun _ => id, rfl, rfl⟩

/-- One thing after the other is given up. -/
theorem Fades.trans (h : b.Fades b₁) (h' : b₁.Fades b₂) : b.Fades b₂ := by
  rcases h with ⟨⟨events, hchanges⟩, h⟩
  rcases h' with ⟨⟨events', hchanges'⟩, h'⟩
  exact ⟨⟨_, hchanges.trans hchanges'⟩, h'.1.trans h.1, h'.2.trans h.2,
    fun _ hx => h.3 (h'.3 hx), fun _ hx => h.4 (h'.4 hx), fun _ hx => h.5 (h'.5 hx),
    fun _ hx => h.6 (h'.6 hx), fun _ hx => h.7 (h'.7 hx), h'.8.trans h.8, h'.9.trans h.9⟩

/-- A release refers to nothing anew. -/
theorem shrinks_releaseAny (b : Bridge) (old : Option Binding) : b.Shrinks (b.releaseAny old) := by
  rcases b.releaseAny_eq old with ⟨n, heq⟩
  rw [heq]
  exact ⟨rfl, rfl, fun _ => id, fun _ => id, fun _ => id, fun _ => id, fun _ => id, rfl, rfl⟩

variable (b)

/-- A name of the registry is given up. -/
theorem fades_strike (name : String) : b.Fades (b.strike name) := by
  have h := shrinks_releaseAny { b with window.registry := b.window.registry.erase name }
    (b.binding? name)
  exact ⟨⟨_, Change.changes .strike⟩,
    { h with registry := fun _ hx => List.mem_of_mem_filter (h.registry hx) }⟩

/-- A caller gives up what it holds. -/
theorem fades_letGo (slot : String) : b.Fades (b.letGo slot) := by
  have h := shrinks_releaseAny { b with held := b.held.erase slot } (b.held.get? slot)
  exact ⟨⟨_, Change.changes .letGo⟩,
    { h with held := fun _ hx => List.mem_of_mem_filter (h.held hx) }⟩

theorem fades_discardDraft (slot : String) : b.Fades (b.discardDraft slot) := by
  refine ⟨⟨_, Change.changes .discardDraft⟩, ?_⟩
  unfold discardDraft
  split
  · exact ⟨rfl, rfl, fun _ => id, fun _ => id, fun _ => id, fun _ => id,
      fun _ hx => List.mem_of_mem_filter hx, rfl, rfl⟩
  · exact (Fades.refl b).2

/-- A name of the native side is given up. -/
theorem fades_unbindNative (name : String) : b.Fades (unbindNative name b).2 := by
  refine ⟨⟨_, Change.changes .unbindNative⟩, ?_⟩
  unfold unbindNative
  cases hunbind : b.native.unbind name with
  | error e => exact (Fades.refl b).2
  | ok n =>
      rcases native_unbind_eq_ok name hunbind with ⟨l, hl, rfl⟩
      have h := shrinks_releaseAny { b with native := .headless { l with
        bindings := l.bindings.erase name } } (b.native.boundTo? name)
      refine { h with bindings := fun x hx => ?_, queue := fun f hf => ?_ }
      · have hx := h.bindings hx
        rcases List.mem_map.1 hx with ⟨e, he, rfl⟩
        rw [hl]
        exact List.mem_map.2 ⟨e, List.mem_of_mem_filter he, rfl⟩
      · rw [hl]
        exact h.queue hf

/-- Gives up the oldest fragment of the queue without running it. -/
def dropNext (b : Bridge) : Bridge :=
  match b.takeQueued? with
  | none => b
  | some (f, b) => b.finishFragment f

/-- The queue is empty, or its first record is taken. -/
theorem dropNext_cases : (b.native.queue = [] ∧ b.dropNext = b) ∨
    ∃ f l rest, b.native = .headless l ∧ l.queue = f :: rest ∧
      b.takeQueued? = some (f, { b with
        native := .headless { l with queue := rest }, inHand := f :: b.inHand }) := by
  cases hqueue : b.native.queue with
  | nil =>
      refine .inl ⟨rfl, ?_⟩
      have hnone : b.takeQueued? = none := by
        refine Option.eq_none_iff_forall_ne_some.2 ?_
        rintro ⟨f, b'⟩ htake
        rcases takeQueued?_eq_some.1 htake with ⟨l, rest, hnative, hcons, _⟩
        rw [hnative] at hqueue
        cases hcons.symm.trans hqueue
      simp [dropNext, hnone]
  | cons f rest =>
      cases hnative : b.native with
      | refusing e =>
          rw [hnative] at hqueue
          cases hqueue
      | headless l =>
          rw [hnative] at hqueue
          exact .inr ⟨f, l, rest, rfl, hqueue,
            takeQueued?_eq_some.2 ⟨l, rest, hnative, hqueue, rfl⟩⟩

/-- The queue gives up its first record. -/
theorem queue_dropNext : b.dropNext.native.queue = b.native.queue.tail := by
  rcases b.dropNext_cases with ⟨hqueue, heq⟩ | ⟨f, l, rest, hnative, hqueue, htake⟩
  · rw [heq, hqueue, List.tail_nil]
  · rw [dropNext, htake, hnative]
    show rest = l.queue.tail
    rw [hqueue, List.tail_cons]

theorem fades_dropNext : b.Fades b.dropNext := by
  rcases b.dropNext_cases with ⟨_, heq⟩ | ⟨f, l, rest, hnative, hqueue, htake⟩
  · rw [heq]
    exact .refl b
  · -- Taken from the queue and finished at once: it was in hand in between only.
    have hchanges := (Change.takeQueued htake).changes.snoc (.finishFragment List.mem_cons_self)
    have hbindings : b.native.bindings = l.bindings.values := by
      rw [hnative]
      rfl
    have hrest : rest ⊆ b.native.queue := by
      rw [hnative]
      show rest ⊆ l.queue
      rw [hqueue]
      exact List.subset_cons_self f rest
    rw [dropNext, htake]
    exact ⟨⟨_, hchanges⟩, rfl, rfl, fun _ => id, hbindings ▸ fun _ => id, hrest, fun _ => id,
      fun _ => id, List.erase_cons_head (a := f) b.inHand, rfl⟩

end Fades

/-! ### All of it -/

section DropAll

variable {α : Type} {f : Bridge → String → Bridge} {g : Bridge → Bridge}

theorem fades_foldl (h : ∀ (b : Bridge) x, b.Fades (f b x)) (l : List String) (b : Bridge) :
    b.Fades (l.foldl f b) := by
  induction l generalizing b with
  | nil => exact .refl b
  | cons x rest ih => exact (h b x).trans (ih _)

theorem fades_iterate (h : ∀ b : Bridge, b.Fades (g b)) (n : Nat) (b : Bridge) :
    b.Fades (g^[n] b) := by
  induction n generalizing b with
  | zero => exact .refl b
  | succ n ih => exact (h b).trans (ih _)

/-- What erases the names of a table one after another leaves it empty. -/
theorem entries_foldl {t : Bridge → Table α} (h : ∀ b x, t (f b x) = (t b).erase x) (b : Bridge) :
    (t ((t b).names.foldl f b)).entries = [] := by
  have hfold (l : List String) (b : Bridge) : t (l.foldl f b) = l.foldl Table.erase (t b) := by
    induction l generalizing b with
    | nil => rfl
    | cons x rest ih => rw [List.foldl_cons, ih, h, List.foldl_cons]
  rw [hfold]
  exact Table.entries_foldl_erase_names _

/-- The window gives up its registry. -/
def dropWindow (b : Bridge) : Bridge :=
  b.window.registry.names.foldl (fun b name => b.strike name) b

/-- The loop gives up what is in its queue. -/
def dropQueue (b : Bridge) : Bridge :=
  dropNext^[b.native.queue.length] b

/-- The table of foreign names; a system that refuses has none. -/
def nativeTable (b : Bridge) : Table Binding :=
  match b.native.headless? with
  | some l => l.bindings
  | none => .empty

/-- The native side gives up its names. -/
def dropTable (b : Bridge) : Bridge :=
  b.nativeTable.names.foldl (fun b name => (unbindNative name b).2) b

/-- Callers give up the bindings they hold. -/
def dropHeld (b : Bridge) : Bridge :=
  b.held.names.foldl (fun b slot => b.letGo slot) b

/-- Callers give up their drafts. -/
def dropDrafts (b : Bridge) : Bridge :=
  b.drafts.names.foldl (fun b slot => b.discardDraft slot) b

/-- The window is dropped, then the native side, then all that callers keep. -/
def dropAll (b : Bridge) : Bridge :=
  b.dropWindow.dropQueue.dropTable.dropHeld.dropDrafts

variable (b : Bridge)

theorem fades_dropWindow : b.Fades b.dropWindow :=
  fades_foldl fades_strike _ b

theorem fades_dropQueue : b.Fades b.dropQueue :=
  fades_iterate fades_dropNext _ b

theorem fades_dropTable : b.Fades b.dropTable :=
  fades_foldl fades_unbindNative _ b

theorem fades_dropHeld : b.Fades b.dropHeld :=
  fades_foldl fades_letGo _ b

theorem fades_dropDrafts : b.Fades b.dropDrafts :=
  fades_foldl fades_discardDraft _ b

/-- No name is left in the registry. -/
theorem registry_dropWindow : b.dropWindow.window.registry.entries = [] := by
  refine entries_foldl (t := fun b => b.window.registry) (fun b name => ?_) b
  rcases releaseAny_eq { b with window.registry := b.window.registry.erase name }
    (b.binding? name) with ⟨n, heq⟩
  rw [strike, heq]
  rfl

/-- No record is left in the queue. -/
theorem queue_dropQueue : b.dropQueue.native.queue = [] := by
  have hiterate (n : Nat) (b : Bridge) : (dropNext^[n] b).native.queue = b.native.queue.drop n := by
    induction n generalizing b with
    | zero => rfl
    | succ n ih => rw [Function.iterate_succ_apply, ih, queue_dropNext, List.drop_tail]
  rw [dropQueue, hiterate, List.drop_length]

theorem nativeTable_unbindNative (name : String) :
    (unbindNative name b).2.nativeTable = b.nativeTable.erase name := by
  unfold unbindNative
  cases hnative : b.native with
  | refusing e =>
      have hempty : b.nativeTable = .empty := by simp [nativeTable, hnative, Native.headless?]
      rw [hempty]
      exact hempty
  | headless l =>
      have htable : b.nativeTable = l.bindings := by simp [nativeTable, hnative, Native.headless?]
      cases hbound : l.bindings.get? name with
      -- A name without a binding is refused, and erasing it would do nothing.
      | none =>
          have hrefused : (Native.headless l).unbind name = .error .notFound := by
            simp [Native.unbind, Native.attempt, EventLoop.unbind,
              Table.contains_eq_false_iff.2 hbound, Except.map]
          rw [hrefused, htable, Table.erase_of_none hbound]
      | some x =>
          have hgone : (Native.headless l).unbind name =
              .ok (.headless { l with bindings := l.bindings.erase name }) := by
            simp [Native.unbind, Native.attempt, EventLoop.unbind, Table.contains, hbound,
              Except.map]
          rw [hgone, htable]
          simp [nativeTable, Native.headless?]

/-- No name is left on the native side. -/
theorem bindings_dropTable : b.dropTable.native.bindings = [] := by
  have hentries : b.dropTable.nativeTable.entries = [] :=
    entries_foldl (t := nativeTable) (fun b name => b.nativeTable_unbindNative name) b
  have hvalues (b : Bridge) : b.native.bindings = b.nativeTable.values := by
    unfold nativeTable Native.bindings
    cases b.native <;> rfl
  rw [hvalues, Table.values, hentries, List.map_nil]

theorem held_dropHeld : b.dropHeld.held.entries = [] := by
  refine entries_foldl (t := fun b => b.held) (fun b slot => ?_) b
  rcases releaseAny_eq { b with held := b.held.erase slot } (b.held.get? slot) with ⟨n, heq⟩
  rw [letGo, heq]
  rfl

theorem drafts_dropDrafts : b.dropDrafts.drafts.entries = [] := by
  refine entries_foldl (t := fun b => b.drafts) (fun b slot => ?_) b
  cases hdraft : b.drafts.get? slot with
  | none => rw [discardDraft_of_none hdraft, Table.erase_of_none hdraft]
  | some f =>
      rw [discardDraft_of_some hdraft]
      rfl

/-- All of it is given up by one thing after the other. -/
theorem fades_dropAll : b.Fades b.dropAll :=
  b.fades_dropWindow.trans <| (fades_dropQueue _).trans <| (fades_dropTable _).trans <|
    (fades_dropHeld _).trans (fades_dropDrafts _)

/-- Nothing is left in the end, as long as nothing is going on. -/
theorem nothing_left (hb : b.Holding [] []) :
    b.dropAll.references = [] ∧ b.dropAll.fragmentsHeld = 0 := by
  -- what one step has emptied stays empty in the steps after it
  have hregistry : b.dropAll.window.registry.entries = [] := by
    have hrest : b.dropWindow.Fades b.dropAll := (fades_dropQueue _).trans <|
      (fades_dropTable _).trans <| (fades_dropHeld _).trans (fades_dropDrafts _)
    exact List.subset_nil.1 (b.registry_dropWindow ▸ hrest.2.registry)
  have hqueue : b.dropAll.native.queue = [] := by
    have hrest : b.dropWindow.dropQueue.Fades b.dropAll :=
      (fades_dropTable _).trans <| (fades_dropHeld _).trans (fades_dropDrafts _)
    exact List.subset_nil.1 (b.dropWindow.queue_dropQueue ▸ hrest.2.queue)
  have hbindings : b.dropAll.native.bindings = [] := by
    have hrest : b.dropWindow.dropQueue.dropTable.Fades b.dropAll :=
      (fades_dropHeld _).trans (fades_dropDrafts _)
    exact List.subset_nil.1 (b.dropWindow.dropQueue.bindings_dropTable ▸ hrest.2.bindings)
  have hheld : b.dropAll.held.entries = [] := by
    have hrest : b.dropWindow.dropQueue.dropTable.dropHeld.Fades b.dropAll := fades_dropDrafts _
    exact List.subset_nil.1 (held_dropHeld _ ▸ hrest.2.held)
  have hdrafts : b.dropAll.drafts.entries = [] := drafts_dropDrafts _
  have hinHand := b.fades_dropAll.2.inHand.trans hb.inHand
  have hinProgress := b.fades_dropAll.2.inProgress.trans hb.inProgress
  constructor
  · simp [references, Table.values, hregistry, hbindings, hheld, hinProgress]
  · simp [fragmentsHeld, Table.size, hqueue, hdrafts, hinHand]

end DropAll

/-! ### The ledger in the end -/

/-- A list without repetitions is as long as the set has elements. -/
theorem length_eraseDups (l : List Nat) : l.eraseDups.length = l.toFinset.card := by
  -- `eraseDups` goes on with a filtered list, which is no part of the list it started from.
  induction hn : l.length using Nat.strong_induction_on generalizing l with
  | _ n ih =>
      cases l with
      | nil => rfl
      | cons a as =>
          have hrest : (a :: as).toFinset = insert a (as.filter fun b => !b == a).toFinset := by
            ext i
            by_cases h : i = a <;> simp [h]
          have hnew : a ∉ (as.filter fun b => !b == a).toFinset := by simp
          have hshorter : (as.filter fun b => !b == a).length < n := by
            have hle := List.length_filter_le (fun b => !b == a) as
            rw [List.length_cons] at hn
            omega
          rw [List.eraseDups_cons, List.length_cons, hrest, Finset.card_insert_of_notMem hnew,
            ih _ hshorter _ rfl]

/-- What is given up in the end is just what has been created and not dropped. -/
theorem Balanced.finalLedger {b : Bridge} (h : b.Balanced) :
    b.finalLedger.bindingsDropped = b.ledger.bindingsCreated ∧
    b.finalLedger.dispatchesDropped = b.ledger.dispatchesCreated := by
  constructor
  · show b.ledger.bindingsDropped + (b.references.map Binding.id).eraseDups.length = _
    rw [length_eraseDups]
    exact h.bindings.symm
  · exact h.dispatches.symm

/-- With nothing left, whatever was created has been dropped. -/
theorem Balanced.all_dropped {b : Bridge} (h : b.Balanced) (hreferences : b.references = [])
    (hfragments : b.fragmentsHeld = 0) :
    b.ledger.bindingsCreated = b.ledger.bindingsDropped ∧
    b.ledger.dispatchesCreated = b.ledger.dispatchesDropped := by
  have hbindings := h.bindings
  have hdispatches := h.dispatches
  rw [alive, hreferences] at hbindings
  rw [hfragments] at hdispatches
  exact ⟨hbindings, hdispatches⟩

/-- To drop one thing after another comes to the ledger that is reckoned all at once. -/
theorem Balanced.ledger_dropAll {b : Bridge} (h : b.Balanced) (hb : b.Holding [] []) :
    b.dropAll.ledger = b.finalLedger := by
  rcases b.fades_dropAll with ⟨⟨events, hchanges⟩, hshrinks⟩
  rcases b.nothing_left hb with ⟨hreferences, hfragments⟩
  -- With no references and no fragments left, the balance says that all that was created is
  -- dropped.
  have hdropped := (hchanges.conserves.balanced h).all_dropped hreferences hfragments
  rw [hshrinks.bindingsCreated, hshrinks.dispatchesCreated] at hdropped
  rcases hledger : b.dropAll.ledger with ⟨bindingsCreated, bindingsDropped, dispatchesCreated,
    dispatchesDropped⟩
  have hcreated := hshrinks.bindingsCreated
  have hcreated' := hshrinks.dispatchesCreated
  rw [hledger] at hdropped hcreated hcreated'
  have hfinal := h.finalLedger
  rw [Bridge.finalLedger] at hfinal ⊢
  simp only [Ledger.mk.injEq]
  exact ⟨hcreated, hdropped.1.symm.trans hfinal.1.symm, hcreated',
    hdropped.2.symm.trans hfinal.2.symm⟩

end Bridge

/-! ## The law -/

namespace Bridge

/-- By the ledger as many fragments are there as wait in the queue, are kept by callers or are
run. -/
def ShowsFragments (b : Bridge) (running : Nat) : Prop :=
  b.ledger.dispatchesCreated =
    b.ledger.dispatchesDropped + (b.native.queue.length + b.drafts.size + running)

/-- By the ledger as many bindings are there as are referred to from the registry, the table of
foreign names, a caller or a callback in progress. -/
def ShowsBindings (b : Bridge) : Prop :=
  b.ledger.bindingsCreated = b.ledger.bindingsDropped + b.alive.card

/-- What the books say of fragments. -/
theorem Balanced.showsFragments {b : Bridge} {fs : List Fragment} (h : b.Balanced)
    (hb : b.inHand = fs) : b.ShowsFragments fs.length := by
  have hdispatches := h.dispatches
  rwa [fragmentsHeld, hb] at hdispatches

/-- Whoever takes a fragment up has it in hand until its script is over. -/
theorem Change.takes {b b' : Bridge} {f : Fragment}
    (h : b.takeQueued? = some (f, b') ∨ ∃ slot, b.takeDraft? slot = some (f, b')) :
    b.Change .other b' ∧ b'.inHand = f :: b.inHand := by
  rcases h with h | ⟨slot, h⟩
  · rcases takeQueued?_eq_some.1 h with ⟨_, _, _, _, rfl⟩
    exact ⟨.takeQueued h, rfl⟩
  · rcases takeDraft?_eq_some.1 h with ⟨_, rfl⟩
    exact ⟨.takeDraft h, rfl⟩

end Bridge

/-- The bridge of a session that has been reached has come about by changes, and nothing is going
on. -/
theorem Session.Reached.changes {start s : Session} {fs : List Fragment} {xs : List Binding}
    (h : start.Reached s) (hstart : start.bridge.Holding fs xs) :
    (∃ events, start.bridge.Changes events s.bridge) ∧ s.bridge.Holding fs xs := by
  induction h with
  | refl => exact ⟨⟨[], .nil⟩, hstart⟩
  | step _ hperform ih =>
      rcases ih with ⟨⟨events, hchanges⟩, hs⟩
      rcases keeps_perform _ _ _ hs () _ hperform with ⟨⟨events', hchanges'⟩, hs'⟩
      exact ⟨⟨_, hchanges.trans hchanges'⟩, hs'⟩

/-- Between any two operations the ledger shows the fragments that wait or are kept, and the
bindings that are referred to. Each operation goes step by step, and no counter ever goes back.
After every step, and wherever a script is in between, the ledger also shows the fragments in hand
and the bindings whose callbacks are in progress; so a script that is run as a fragment counts as
one more. When the window, the native side and all that callers keep have been dropped, everything
that was created has been dropped. -/
theorem ledger_is_conserved {start s : Session} (hstart : start.IsFresh) (h : start.Reached s) :
    (s.bridge.inHand = [] ∧ s.bridge.inProgress = [] ∧ s.bridge.ShowsFragments 0 ∧
      s.bridge.ShowsBindings) ∧
    (∀ (op : Operation) (budget : Nat) (s' : Session), op.perform budget s = some ((), s') →
      ∃ events, s.bridge.Changes events s'.bridge) ∧
    (∀ (events : List WindowEvent) (b : Bridge), s.bridge.Changes events b →
      s.bridge.ledger.Le b.ledger ∧ b.ShowsFragments b.inHand.length ∧ b.ShowsBindings ∧
      (∀ (vm : Vm Builtin) (m : Hosted Builtin Bridge), Execution Builtin.run ⟨vm, b⟩ m →
        b.ledger.Le m.host.ledger ∧ m.host.ShowsFragments b.inHand.length ∧
        m.host.ShowsBindings) ∧
      ∀ (f : Fragment) (b' : Bridge),
        b.takeQueued? = some (f, b') ∨ (∃ slot, b.takeDraft? slot = some (f, b')) →
        ∀ (n : Notice) (vm : Vm Builtin) (m : Hosted Builtin Bridge),
          Execution Builtin.run ⟨vm, b'.note n⟩ m →
          m.host.ShowsFragments (b.inHand.length + 1)) ∧
    (s.bridge.dropAll.references = [] ∧ s.bridge.dropAll.fragmentsHeld = 0 ∧
      s.bridge.dropAll.ledger = s.bridge.finalLedger ∧
      s.bridge.finalLedger.bindingsCreated = s.bridge.finalLedger.bindingsDropped ∧
      s.bridge.finalLedger.dispatchesCreated = s.bridge.finalLedger.dispatchesDropped) := by
  rcases hstart with ⟨native, hnative, hbridge⟩
  have hholding : start.bridge.Holding [] [] := by
    rw [hbridge]
    exact ⟨rfl, rfl⟩
  rcases h.changes hholding with ⟨⟨events, hchanges⟩, hs⟩
  have hbalanced : s.bridge.Balanced :=
    hchanges.conserves.balanced (hbridge ▸ Bridge.balanced_fresh hnative)
  -- a script leaves in hand what was in hand when it began
  have hscript {events : List WindowEvent} {b : Bridge} (hb : s.bridge.Changes events b)
      {vm : Vm Builtin} {m : Hosted Builtin Bridge} (hm : Execution Builtin.run ⟨vm, b⟩ m) :
      b.ledger.Le m.host.ledger ∧ m.host.ShowsFragments b.inHand.length ∧ m.host.ShowsBindings := by
    have hsteady := Bridge.steady_execution hm
    rcases hsteady.changes with ⟨events', hchanges'⟩
    have hbalanced' := (hb.trans hchanges').conserves.balanced hbalanced
    exact ⟨hchanges'.conserves.grows, hbalanced'.showsFragments hsteady.inHand,
      hbalanced'.bindings⟩
  refine ⟨⟨hs.inHand, hs.inProgress, hbalanced.showsFragments hs.inHand, hbalanced.bindings⟩,
    ?_, ?_, ?_⟩
  · intro op budget s' hperform
    exact (keeps_perform budget op s hs () s' hperform).1
  · intro events b hb
    have hbalanced' := hb.conserves.balanced hbalanced
    refine ⟨hb.conserves.grows, hbalanced'.showsFragments rfl, hbalanced'.bindings,
      fun vm m hm => hscript hb hm, fun f b' htake n vm m hm => ?_⟩
    rcases Bridge.Change.takes htake with ⟨htaken, hinHand⟩
    have hnoted : b'.Change .other (b'.note n) := .aside rfl
    have hshows := (hscript ((hb.snoc htaken).snoc hnoted) hm).2.1
    have hlength : (b'.note n).inHand.length = b.inHand.length + 1 := congrArg List.length hinHand
    rwa [hlength] at hshows
  · rcases s.bridge.nothing_left hs with ⟨hreferences, hfragments⟩
    have hfinal := hbalanced.finalLedger
    exact ⟨hreferences, hfragments, hbalanced.ledger_dropAll hs, hfinal.1.symm, hfinal.2.symm⟩

/-- A binding that a caller keeps outlives its name. -/
theorem kept_binding_is_counted :
    ∃ start s : Session, start.IsFresh ∧ start.Reached s ∧
      s.bridge.ledger = ⟨1, 0, 1, 0⟩ ∧ s.bridge.window.registry.size = 0 ∧
      s.bridge.ShowsFragments 0 ∧ s.bridge.ShowsBindings ∧
      s.bridge.dropAll.ledger = ⟨1, 1, 1, 1⟩ := by
  let start : Session := ⟨none, { native := .headless (.new 4) }, false⟩
  have hstart : start.IsFresh := ⟨_, .inl ⟨4, rfl⟩, rfl⟩
  -- bound, kept by a caller and unbound again, while a fragment waits
  let ops : List Operation := [.bind "f" "g", .hold "f" "kept", .unbind "f", .schedule "r = 1"]
  have hover : ((Operation.performAll 0 ops start).map fun (_, s) =>
      (s.bridge.ledger, s.bridge.window.registry.size, s.bridge.finalLedger)) =
      some (⟨1, 0, 1, 0⟩, 0, ⟨1, 1, 1, 1⟩) := by
    decide +kernel
  rcases Option.map_eq_some_iff.1 hover with ⟨⟨_, s⟩, hperform, heq⟩
  simp only [Prod.mk.injEq] at heq
  rcases heq with ⟨hledger, hsize, hfinal⟩
  have hs : start.Reached s := Session.Reached.refl.performAll hperform
  rcases ledger_is_conserved hstart hs with
    ⟨⟨_, _, hfragments, hbindings⟩, _, _, _, _, hdropped, _⟩
  exact ⟨start, s, hstart, hs, hledger, hsize, hfragments, hbindings, hdropped.trans hfinal⟩

end Host
end ScriptHost
