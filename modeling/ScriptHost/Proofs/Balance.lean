import Mathlib.Data.Finset.Card
import ScriptHost.Proofs.Asides
import ScriptHost.Proofs.LoopTurns

/-!
# The balance of records

A record that has been created and not dropped is somewhere: a binding wherever something refers to
it, a fragment with its holder. Every operation of the bridge keeps the two in balance. While an
operation has a binding in hand that is not put down yet, or has just taken a reference away, the
ledger owes for more bindings than the bridge refers to; a release settles this.
-/

namespace ScriptHost

namespace Store.Table

variable {α : Type} {t : Table α} {name : String} {v : α}

/-- In a list without repeated names every entry is found. -/
theorem lookup_eq_some_iff {l : List (String × α)} (hl : (l.map Prod.fst).Nodup) :
    lookup name l = some v ↔ (name, v) ∈ l := by
  induction l with
  | nil => simp [lookup]
  | cons e rest ih =>
      rcases e with ⟨k, w⟩
      rw [List.map_cons, List.nodup_cons] at hl
      by_cases hk : k = name
      · subst hk
        have hrest : (k, v) ∉ rest := fun h => hl.1 (List.mem_map.2 ⟨_, h, rfl⟩)
        simp [lookup, hrest, eq_comm]
      · simp [lookup, hk, Ne.symm hk, ih hl.2]

theorem get?_eq_some_iff : t.get? name = some v ↔ (name, v) ∈ t.entries :=
  lookup_eq_some_iff t.distinct

/-- The values of a table are those under its names. -/
theorem mem_values : v ∈ t.values ↔ ∃ name, t.get? name = some v := by
  simp [values, get?_eq_some_iff]

/-- What a table does not contain is not found. -/
theorem contains_eq_false_iff : t.contains name = false ↔ t.get? name = none := by
  simp [contains]

theorem not_mem_names (h : t.get? name = none) : name ∉ t.names := by
  intro hmem
  rcases List.mem_map.1 hmem with ⟨⟨_, w⟩, hw, rfl⟩
  cases h.symm.trans (get?_eq_some_iff.2 hw)

/-- A new name makes a table larger by one. -/
theorem size_insert_of_none (h : t.get? name = none) : (t.insert name v).size = t.size + 1 := by
  have hput {l : List (String × α)} (hl : name ∉ l.map Prod.fst) :
      (put name v l).length = l.length + 1 := by
    induction l with
    | nil => rfl
    | cons e rest ih =>
        rw [List.map_cons, List.mem_cons, not_or] at hl
        simp [put, Ne.symm hl.1, ih hl.2]
  exact hput (not_mem_names h)

/-- A name that is erased makes it smaller by one. -/
theorem size_erase_of_some (h : t.get? name = some v) : (t.erase name).size + 1 = t.size := by
  have hfilter {l : List (String × α)} (hl : (l.map Prod.fst).Nodup) (hmem : (name, v) ∈ l) :
      (l.filter fun e => e.1 != name).length + 1 = l.length := by
    induction l with
    | nil => cases hmem
    | cons e rest ih =>
        rw [List.map_cons, List.nodup_cons] at hl
        rcases List.mem_cons.1 hmem with rfl | hmem
        · -- the other entries have other names
          have hrest : rest.filter (fun e => e.1 != name) = rest := by
            refine List.filter_eq_self.2 fun e he => bne_iff_ne.2 ?_
            rintro rfl
            exact hl.1 (List.mem_map.2 ⟨e, he, rfl⟩)
          simp [hrest]
        · have hne : e.1 ≠ name := by
            rintro rfl
            exact hl.1 (List.mem_map.2 ⟨_, hmem, rfl⟩)
          simp [hne, ih hl.2 hmem]
  exact hfilter t.distinct (get?_eq_some_iff.1 h)

end Store.Table

namespace Host

open Store

/-! ## Bindings that are referred to -/

/-- The ids of the bindings in a list. -/
def idsOf (l : List Binding) : Finset Nat :=
  (l.map Binding.id).toFinset

/-- Every id in question is that of a binding. -/
theorem mem_idsOf {l : List Binding} {i : Nat} : i ∈ idsOf l ↔ ∃ x ∈ l, x.id = i := by
  simp [idsOf]

theorem idsOf_append (l l' : List Binding) : idsOf (l ++ l') = idsOf l ∪ idsOf l' := by
  simp [idsOf]

/-- Writing over an entry refers to the new binding and no longer to the old one, if there was. -/
theorem idsOf_insert (t : Table Binding) (name : String) (x : Binding) :
    idsOf (t.insert name x).values ∪ idsOf (t.get? name).toList = insert x.id (idsOf t.values) := by
  -- The binding that the name had before need not be gone: it may have a second name. So it stands
  -- on the left, and not as a difference on the right.
  ext i
  simp only [Finset.mem_union, Finset.mem_insert, mem_idsOf, Table.mem_values, Table.get?_insert,
    Option.mem_toList]
  constructor
  · rintro (⟨y, ⟨name', hy⟩, rfl⟩ | ⟨y, hy, rfl⟩)
    · split at hy
      · cases hy
        exact .inl rfl
      · exact .inr ⟨y, ⟨name', hy⟩, rfl⟩
    · exact .inr ⟨y, ⟨name, hy⟩, rfl⟩
  · rintro (rfl | ⟨y, ⟨name', hy⟩, rfl⟩)
    · exact .inl ⟨x, ⟨name, if_pos rfl⟩, rfl⟩
    · by_cases hname : name = name'
      · subst hname
        exact .inr ⟨y, hy, rfl⟩
      · exact .inl ⟨y, ⟨name', by rw [if_neg hname, hy]⟩, rfl⟩

/-- What is erased was under the name that is erased. -/
theorem idsOf_erase (t : Table Binding) (name : String) :
    idsOf (t.erase name).values ∪ idsOf (t.get? name).toList = idsOf t.values := by
  ext i
  simp only [Finset.mem_union, mem_idsOf, Table.mem_values, Table.get?_erase, Option.mem_toList]
  constructor
  · rintro (⟨y, ⟨name', hy⟩, rfl⟩ | ⟨y, hy, rfl⟩)
    · split at hy
      · cases hy
      · exact ⟨y, ⟨name', hy⟩, rfl⟩
    · exact ⟨y, ⟨name, hy⟩, rfl⟩
  · rintro ⟨y, ⟨name', hy⟩, rfl⟩
    by_cases hname : name = name'
    · subst hname
      exact .inr ⟨y, hy, rfl⟩
    · exact .inl ⟨y, ⟨name', by rw [if_neg hname, hy]⟩, rfl⟩

/-! ## The counts -/

/-- No counter has gone back. -/
structure Ledger.Le (l l' : Ledger) : Prop where
  bindingsCreated : l.bindingsCreated ≤ l'.bindingsCreated
  bindingsDropped : l.bindingsDropped ≤ l'.bindingsDropped
  dispatchesCreated : l.dispatchesCreated ≤ l'.dispatchesCreated
  dispatchesDropped : l.dispatchesDropped ≤ l'.dispatchesDropped

namespace Ledger

theorem Le.refl (l : Ledger) : l.Le l :=
  ⟨Nat.le_refl _, Nat.le_refl _, Nat.le_refl _, Nat.le_refl _⟩

theorem Le.trans {l l' l'' : Ledger} (h : l.Le l') (h' : l'.Le l'') : l.Le l'' :=
  ⟨h.1.trans h'.1, h.2.trans h'.2, h.3.trans h'.3, h.4.trans h'.4⟩

end Ledger

namespace Bridge

/-- The bindings that something refers to. -/
def alive (b : Bridge) : Finset Nat :=
  idsOf b.references

/-- The number of fragments that wait in the queue, are kept by a caller or are being run. -/
def fragmentsHeld (b : Bridge) : Nat :=
  b.native.queue.length + b.drafts.size + b.inHand.length

/-- By the ledger just these bindings are alive, and as many fragments as there are. -/
structure AccountsFor (b : Bridge) (ids : Finset Nat) : Prop where
  bindings : b.ledger.bindingsCreated = b.ledger.bindingsDropped + ids.card
  known : ∀ i ∈ ids, i < b.ledger.bindingsCreated
  dispatches : b.ledger.dispatchesCreated = b.ledger.dispatchesDropped + b.fragmentsHeld

/-- What has been created and not dropped is somewhere. -/
def Balanced (b : Bridge) : Prop :=
  b.AccountsFor b.alive

/-- The second bridge is in balance if the first one is, and no counter has gone back. -/
structure Conserves (b b' : Bridge) : Prop where
  balanced : b.Balanced → b'.Balanced
  grows : b.ledger.Le b'.ledger

section Accounts

variable {b b' b'' : Bridge} {x : Binding} {ids : Finset Nat}

theorem Conserves.refl (b : Bridge) : b.Conserves b :=
  ⟨id, .refl _⟩

/-- What is kept by two things is kept by one after the other. -/
theorem Conserves.trans (h : b.Conserves b') (h' : b'.Conserves b'') : b.Conserves b'' :=
  ⟨fun hb => h'.balanced (h.balanced hb), h.grows.trans h'.grows⟩

/-- A binding is alive if one of the places refers to it. -/
theorem mem_alive {i : Nat} : i ∈ b.alive ↔ i ∈ idsOf b.window.registry.values ∨
    i ∈ idsOf b.native.bindings ∨ i ∈ idsOf b.held.values ∨ i ∈ idsOf b.inProgress := by
  simp [alive, references, idsOf_append]

/-- A bridge refers to just the bindings that are alive. -/
theorem refersTo_iff : b.refersTo x = true ↔ x.id ∈ b.alive := by
  simp [refersTo, alive, mem_idsOf]

/-- The books depend on the ledger and on the holders alone. -/
theorem AccountsFor.congr (h : b.AccountsFor ids) (hledger : b'.ledger = b.ledger)
    (hheld : b'.fragmentsHeld = b.fragmentsHeld) : b'.AccountsFor ids :=
  ⟨hledger ▸ h.bindings, hledger ▸ h.known, by rw [hledger, hheld, h.dispatches]⟩

/-- Nothing happens to records where neither the ledger nor what it counts is touched. -/
theorem conserves_of_same (hledger : b'.ledger = b.ledger) (halive : b'.alive = b.alive)
    (hheld : b'.fragmentsHeld = b.fragmentsHeld) : b.Conserves b' := by
  refine ⟨fun hb => ?_, hledger ▸ .refl _⟩
  have haccounts := AccountsFor.congr hb hledger hheld
  rwa [← halive] at haccounts

/-! ## Releases -/

/-- A release touches nothing but one counter. -/
theorem releaseAny_eq (b : Bridge) (old : Option Binding) :
    ∃ n, b.releaseAny old =
      b.count fun l => { l with bindingsDropped := l.bindingsDropped + n } := by
  rcases old with _ | x
  · exact ⟨0, rfl⟩
  · rw [releaseAny, release]
    split
    · exact ⟨0, rfl⟩
    · exact ⟨1, rfl⟩

/-- A release counts at most one binding more as dropped. -/
theorem le_releaseAny (b : Bridge) (old : Option Binding) :
    b.ledger.Le (b.releaseAny old).ledger := by
  rcases b.releaseAny_eq old with ⟨n, heq⟩
  rw [heq]
  exact ⟨Nat.le_refl _, Nat.le_add_right _ n, Nat.le_refl _, Nat.le_refl _⟩

/-- After a reference has been taken away the binding is dropped if it was the last one. -/
theorem balanced_releaseAny {old : Option Binding}
    (h : b.AccountsFor (b.alive ∪ idsOf old.toList)) : (b.releaseAny old).Balanced := by
  rcases old with _ | x
  · have hnone : b.alive ∪ idsOf (none : Option Binding).toList = b.alive := Finset.union_empty _
    rwa [hnone] at h
  · have hone : b.alive ∪ idsOf (some x).toList = insert x.id b.alive := Finset.union_comm _ _
    rw [hone] at h
    rw [releaseAny, release]
    -- The binding is dropped with its last reference only.
    by_cases hrefers : b.refersTo x = true
    · rw [if_pos hrefers]
      rwa [Finset.insert_eq_of_mem (refersTo_iff.1 hrefers)] at h
    · rw [if_neg hrefers]
      have hcount := h.bindings
      rw [Finset.card_insert_of_notMem (mt refersTo_iff.2 hrefers)] at hcount
      refine ⟨?_, fun i hi => h.known i (Finset.mem_insert_of_mem hi), h.dispatches⟩
      show b.ledger.bindingsCreated = b.ledger.bindingsDropped + 1 + b.alive.card
      omega

/-- A binding has been put somewhere, or taken away from somewhere, and what was there before is
released. -/
theorem AccountsFor.settle {old : Option Binding} (h : b.AccountsFor ids)
    (hledger : b'.ledger = b.ledger) (hheld : b'.fragmentsHeld = b.fragmentsHeld)
    (halive : b'.alive ∪ idsOf old.toList = ids) : (b'.releaseAny old).Balanced :=
  balanced_releaseAny (halive ▸ h.congr hledger hheld)

/-- A place that gives up what it has held settles the books with a release. -/
theorem conserves_settle {old : Option Binding} (hledger : b'.ledger = b.ledger)
    (hheld : b'.fragmentsHeld = b.fragmentsHeld)
    (halive : b'.alive ∪ idsOf old.toList = b.alive) : b.Conserves (b'.releaseAny old) :=
  ⟨fun hb => AccountsFor.settle hb hledger hheld halive, hledger ▸ le_releaseAny b' old⟩

end Accounts

/-! ## Bindings -/

section Bindings

variable (b : Bridge) (x : Binding) (name slot function : String)

/-- A new binding is in the hand of whoever has asked for it, and unlike all that are alive. -/
theorem accounts_newBinding (hb : b.Balanced) :
    (b.newBinding function).2.AccountsFor (insert (b.newBinding function).1.id b.alive) := by
  have hnew : b.ledger.bindingsCreated ∉ b.alive := fun h => Nat.lt_irrefl _ (hb.known _ h)
  refine ⟨?_, ?_, hb.dispatches⟩
  · show b.ledger.bindingsCreated + 1 = b.ledger.bindingsDropped + (insert _ b.alive).card
    rw [newBinding, Finset.card_insert_of_notMem hnew, hb.bindings, Nat.add_assoc]
  · intro i hi
    rcases Finset.mem_insert.1 hi with rfl | hi
    · exact Nat.lt_succ_self _
    · exact Nat.lt_succ_of_lt (hb.known i hi)

/-- A new binding is counted. -/
theorem le_newBinding : b.ledger.Le (b.newBinding function).2.ledger :=
  ⟨Nat.le_succ _, Nat.le_refl _, Nat.le_refl _, Nat.le_refl _⟩

/-- The registry holds the new binding instead of the old one. -/
theorem alive_enrolled :
    { b with window.registry := b.window.registry.insert name x }.alive ∪
        idsOf (b.binding? name).toList = insert x.id b.alive := by
  ext i
  have h := Finset.ext_iff.1 (idsOf_insert b.window.registry name x) i
  simp only [Finset.mem_union, Finset.mem_insert, mem_alive, binding?] at h ⊢
  grind

theorem alive_held :
    { b with held := b.held.insert slot x }.alive ∪ idsOf (b.held.get? slot).toList =
      insert x.id b.alive := by
  ext i
  have h := Finset.ext_iff.1 (idsOf_insert b.held slot x) i
  simp only [Finset.mem_union, Finset.mem_insert, mem_alive] at h ⊢
  grind

variable {b x}

/-- The books are in order once the new binding is in the registry. -/
theorem balanced_enroll (h : b.AccountsFor (insert x.id b.alive)) : (b.enroll name x).Balanced :=
  h.settle rfl rfl (b.alive_enrolled x name)

theorem balanced_hold (h : b.AccountsFor (insert x.id b.alive)) : (b.hold slot x).Balanced :=
  h.settle rfl rfl (b.alive_held x slot)

/-- No count shrinks when a name is enrolled. -/
theorem le_enroll : b.ledger.Le (b.enroll name x).ledger :=
  le_releaseAny { b with window.registry := b.window.registry.insert name x } _

theorem le_hold : b.ledger.Le (b.hold slot x).ledger :=
  le_releaseAny { b with held := b.held.insert slot x } _

/-- What some place refers to is alive. -/
theorem mem_alive_of_mem (hx : x ∈ b.references) : x.id ∈ b.alive :=
  mem_idsOf.2 ⟨x, hx, rfl⟩

/-- To hold what is already referred to somewhere is to share it. -/
theorem conserves_hold (hx : x ∈ b.references) : b.Conserves (b.hold slot x) := by
  refine ⟨fun hb => balanced_hold slot ?_, le_hold slot⟩
  rwa [Finset.insert_eq_of_mem (mem_alive_of_mem hx)]

variable (b)

/-- A new binding goes to its caller at once. -/
theorem conserves_holdNew : b.Conserves (b.holdNew slot function).2 :=
  ⟨fun hb => balanced_hold slot (b.accounts_newBinding function hb),
    (b.le_newBinding function).trans (le_hold slot)⟩

/-- The registry gives up a binding. -/
theorem conserves_strike : b.Conserves (b.strike name) := by
  refine conserves_settle rfl rfl ?_
  ext i
  have h := Finset.ext_iff.1 (idsOf_erase b.window.registry name) i
  simp only [Finset.mem_union, mem_alive, binding?] at h ⊢
  grind

/-- A caller gives up a binding. -/
theorem conserves_letGo : b.Conserves (b.letGo slot) := by
  refine conserves_settle rfl rfl ?_
  ext i
  have h := Finset.ext_iff.1 (idsOf_erase b.held slot) i
  simp only [Finset.mem_union, mem_alive] at h ⊢
  grind

/-! ### Callbacks -/

variable {b}

/-- A callback holds a binding that is alive already. -/
theorem conserves_beginCallback (hx : x ∈ b.references) : b.Conserves (b.beginCallback x) := by
  refine conserves_of_same rfl ?_ rfl
  ext i
  have hids : i ∈ idsOf (x :: b.inProgress) ↔ i = x.id ∨ i ∈ idsOf b.inProgress := by
    simp [mem_idsOf, eq_comm]
  have hshared : i = x.id → i ∈ b.alive := by
    rintro rfl
    exact mem_alive_of_mem hx
  simp only [mem_alive, beginCallback, hids] at hshared ⊢
  grind

theorem conserves_endCallback (hx : x ∈ b.inProgress) : b.Conserves (b.endCallback x) := by
  show b.Conserves (releaseAny (some x) { b with inProgress := b.inProgress.erase x })
  refine conserves_settle rfl rfl ?_
  ext i
  have hids : i ∈ idsOf b.inProgress ↔ i ∈ idsOf (b.inProgress.erase x) ∨ i = x.id := by
    rw [idsOf, idsOf, List.mem_toFinset, List.mem_toFinset,
      ((List.perm_cons_erase hx).map Binding.id).mem_iff]
    simp [or_comm]
  have hold : i ∈ idsOf (some x).toList ↔ i = x.id := by
    simp [mem_idsOf, eq_comm]
  simp only [Finset.mem_union, mem_alive, hids, hold]
  grind

/-! ### The native table -/

/-- Only a headless side binds names, and only new ones. -/
theorem native_bind_eq_ok {n n' : Native} (h : n.bind name x = .ok n') :
    ∃ l, n = .headless l ∧ l.bindings.get? name = none ∧
      n' = .headless { l with bindings := l.bindings.insert name x } := by
  cases n with
  | refusing e => cases h
  | headless l =>
      simp only [Native.bind, Native.attempt, EventLoop.bind] at h
      split at h
      · cases h
      · rename_i hnew
        cases h
        exact ⟨l, rfl, Table.contains_eq_false_iff.1 (Bool.not_eq_true _ ▸ hnew), rfl⟩

/-- Only a headless side unbinds names. -/
theorem native_unbind_eq_ok {n n' : Native} (h : n.unbind name = .ok n') :
    ∃ l, n = .headless l ∧ n' = .headless { l with bindings := l.bindings.erase name } := by
  cases n with
  | refusing e => cases h
  | headless l =>
      simp only [Native.unbind, Native.attempt, EventLoop.unbind] at h
      split at h
      · cases h
        exact ⟨l, rfl, rfl⟩
      · cases h

/-- What the native side agrees to is put into its table; otherwise nothing happens. -/
theorem bindNative_cases (b : Bridge) (x : Binding) (name : String) :
    (∃ e, bindNative name x b = (.error e, b)) ∨
    ∃ b', bindNative name x b = (.ok (), b') ∧ b'.ledger = b.ledger ∧
      b'.fragmentsHeld = b.fragmentsHeld ∧ b'.alive = insert x.id b.alive := by
  unfold bindNative
  cases hbind : b.native.bind name x with
  | error e => exact .inl ⟨e, rfl⟩
  | ok n =>
      rcases native_bind_eq_ok name hbind with ⟨l, hl, hnone, rfl⟩
      refine .inr ⟨_, rfl, rfl, ?_, ?_⟩
      · simp [fragmentsHeld, hl, Native.queue, Native.headless?]
      · ext i
        have h := Finset.ext_iff.1 (idsOf_insert l.bindings name x) i
        have hbefore : b.native.bindings = l.bindings.values := by
          rw [hl]
          rfl
        have hafter : (Native.headless { l with bindings := l.bindings.insert name x }).bindings =
            (l.bindings.insert name x).values :=
          rfl
        have hold : i ∈ idsOf (l.bindings.get? name).toList ↔ False := by
          simp [hnone, mem_idsOf]
        simp only [Finset.mem_union, Finset.mem_insert, mem_alive, hbefore, hafter, hold] at h ⊢
        grind

/-- The native side refers to a binding more, or refuses it. -/
theorem conserves_bindNative (hx : x ∈ b.references) :
    b.Conserves (bindNative name x b).2 := by
  rcases bindNative_cases b x name with ⟨e, herror⟩ | ⟨b', hok, hledger, hheld, halive⟩
  · rw [herror]
    exact .refl b
  · rw [hok]
    rw [Finset.insert_eq_of_mem (mem_alive_of_mem hx)] at halive
    exact conserves_of_same hledger halive hheld

variable (b)

/-- The native side gives up a binding, or knows none of that name. -/
theorem conserves_unbindNative : b.Conserves (unbindNative name b).2 := by
  unfold unbindNative
  cases hunbind : b.native.unbind name with
  | error e => exact .refl b
  | ok n =>
      rcases native_unbind_eq_ok name hunbind with ⟨l, hl, rfl⟩
      refine conserves_settle rfl ?_ ?_
      · simp [fragmentsHeld, hl, Native.queue, Native.headless?]
      · ext i
        have h := Finset.ext_iff.1 (idsOf_erase l.bindings name) i
        have hbefore : b.native.bindings = l.bindings.values := by
          rw [hl]
          rfl
        have hafter : (Native.headless { l with bindings := l.bindings.erase name }).bindings =
            (l.bindings.erase name).values :=
          rfl
        have hold : b.native.boundTo? name = l.bindings.get? name := by
          rw [hl]
          rfl
        simp only [Finset.mem_union, mem_alive, hbefore, hafter, hold] at h ⊢
        grind

/-! ### Requests -/

/-- A window's binding is shared between the native table and the registry, or given up. -/
theorem conserves_bind : b.Conserves (Request.bind name function b).2 := by
  have hle := b.le_newBinding function
  unfold Request.bind
  dsimp only
  rcases bindNative_cases (b.newBinding function).2 (b.newBinding function).1 name with
    ⟨e, herror⟩ | ⟨b', hok, hledger, hheld, halive⟩
  · -- Refused: the new binding was never referred to from elsewhere, so it is dropped.
    rw [herror]
    refine ⟨fun hb => ?_, hle.trans (le_releaseAny _ (some (b.newBinding function).1))⟩
    have hgiven : (b.newBinding function).2.alive ∪ idsOf (some (b.newBinding function).1).toList =
        insert (b.newBinding function).1.id b.alive :=
      Finset.union_comm _ _
    exact (b.accounts_newBinding function hb).settle rfl rfl hgiven
  · -- Accepted: the reference that was handed over now stands in the native table.
    rw [hok]
    dsimp only
    refine ⟨fun hb => ?_, (hledger ▸ hle).trans (le_enroll (b := b'.note _) name)⟩
    refine balanced_enroll name ?_
    have haccounts := (b.accounts_newBinding function hb).congr hledger hheld
    have hshared : insert (b.newBinding function).1.id b'.alive = b'.alive := by
      rw [halive, Finset.insert_idem]
    show AccountsFor _ (insert (b.newBinding function).1.id b'.alive)
    rw [hshared, halive]
    exact haccounts.congr rfl rfl

/-- The journal holds no records. -/
theorem conserves_note (n : Notice) : b.Conserves (b.note n) :=
  conserves_of_same rfl rfl rfl

/-- The registry gives up its binding after the native side has. -/
theorem conserves_unbind : b.Conserves (Request.unbind name b).2 := by
  have hfirst := b.conserves_unbindNative name
  rw [← Request.ofNative_snd] at hfirst
  unfold Request.unbind
  rw [Attempt.bind_apply]
  rcases hnative : Request.ofNative (unbindNative name) b with ⟨e | _, b₁⟩
  · rw [hnative] at hfirst
    exact hfirst
  · rw [hnative] at hfirst
    exact (hfirst.trans (b₁.conserves_strike name)).trans (conserves_note _ _)

end Bindings

/-! ## Fragments -/

section Fragments

variable {b b' : Bridge}

/-- So many fragments have been created and dropped, and the holders have gained the difference. -/
theorem conserves_fragments {m n : Nat}
    (hledger : b'.ledger = { b.ledger with
      dispatchesCreated := b.ledger.dispatchesCreated + m
      dispatchesDropped := b.ledger.dispatchesDropped + n })
    (halive : b'.alive = b.alive) (hheld : b'.fragmentsHeld + n = b.fragmentsHeld + m) :
    b.Conserves b' := by
  refine ⟨fun hb => ?_, ?_⟩
  · have hcount := hb.dispatches
    refine ⟨?_, ?_, ?_⟩
    · rw [hledger, halive]
      exact hb.bindings
    · rw [hledger, halive]
      exact hb.known
    · rw [hledger]
      show b.ledger.dispatchesCreated + m = b.ledger.dispatchesDropped + n + b'.fragmentsHeld
      omega
  · rw [hledger]
    exact ⟨Nat.le_refl _, Nat.le_refl _, Nat.le_add_right _ _, Nat.le_add_right _ _⟩

/-- Only a headless side accepts records. -/
theorem native_post_eq_ok {n n' : Native} {f : Fragment} (h : n.post f = .ok n') :
    ∃ l, n = .headless l ∧ n' = .headless { l with queue := l.queue ++ [f] } := by
  cases n with
  | refusing e => cases h
  | headless l =>
      simp only [Native.post, Native.attempt, EventLoop.post] at h
      split at h
      · cases hsend : l.send f with
        | error e =>
            rw [hsend] at h
            cases h
        | ok l' =>
            rw [hsend] at h
            cases h
            exact ⟨l, rfl, by rw [(EventLoop.send_eq_ok.1 hsend).2]⟩
      · cases h

/-- What the native side agrees to comes to the end of its queue; otherwise nothing happens. -/
theorem postNative_cases (b : Bridge) (f : Fragment) :
    (∃ e, postNative f b = (.error e, b)) ∨
    ∃ b', postNative f b = (.ok (), b') ∧ b'.ledger = b.ledger ∧ b'.alive = b.alive ∧
      b'.fragmentsHeld = b.fragmentsHeld + 1 ∧ b'.drafts = b.drafts ∧ b'.inHand = b.inHand := by
  unfold postNative
  cases hpost : b.native.post f with
  | error e => exact .inl ⟨e, rfl⟩
  | ok n =>
      rcases native_post_eq_ok hpost with ⟨l, hl, rfl⟩
      refine .inr ⟨_, rfl, rfl, ?_, ?_, rfl, rfl⟩
      · simp [alive, references, hl, Native.bindings, Native.headless?]
      · simp only [fragmentsHeld, hl, Native.queue, Native.headless?, List.length_append,
          List.length_singleton]
        omega

/-- A fragment is queued, or dropped at once if it is refused. -/
theorem conserves_schedule (b : Bridge) (source : String) :
    b.Conserves (Request.schedule source b).2 := by
  unfold Request.schedule
  dsimp only
  rcases postNative_cases (b.newFragment source).2 ⟨source⟩ with
    ⟨e, herror⟩ | ⟨b', hok, hledger, halive, hheld, -⟩
  · have hrefused : (b.newFragment source).1 = ⟨source⟩ := rfl
    rw [hrefused, herror]
    exact conserves_fragments (m := 1) (n := 1) rfl rfl rfl
  · have haccepted : (b.newFragment source).1 = ⟨source⟩ := rfl
    rw [haccepted, hok]
    exact conserves_fragments (m := 1) (n := 0) hledger halive hheld

/-! ### Fragments that are run -/

/-- Whoever takes a fragment has it in hand. -/
theorem takeQueued?_eq_some {f : Fragment} :
    b.takeQueued? = some (f, b') ↔ ∃ l rest, b.native = .headless l ∧ l.queue = f :: rest ∧
      b' = { b with native := .headless { l with queue := rest }, inHand := f :: b.inHand } := by
  unfold takeQueued?
  cases b.native with
  | refusing e =>
      constructor
      · intro h
        cases h
      · rintro ⟨l, rest, hl, _⟩
        cases hl
  | headless l =>
      constructor
      · intro h
        rcases Option.map_eq_some_iff.1 h with ⟨⟨_, l'⟩, hnext, heq⟩
        rcases EventLoop.next?_eq_some.1 hnext with ⟨hqueue, hl'⟩
        cases heq
        exact ⟨l, l'.queue, rfl, hqueue, by rw [← hl']⟩
      · rintro ⟨l, rest, hl, hqueue, rfl⟩
        cases hl
        have hnext : l.next? = some (f, { l with queue := rest }) :=
          EventLoop.next?_eq_some.2 ⟨hqueue, rfl⟩
        simp [hnext]

theorem takeDraft?_eq_some {f : Fragment} {slot : String} :
    b.takeDraft? slot = some (f, b') ↔ b.drafts.get? slot = some f ∧
      b' = { b with drafts := b.drafts.erase slot, inHand := f :: b.inHand } := by
  simp only [takeDraft?, Option.map_eq_some_iff, Prod.mk.injEq]
  constructor
  · rintro ⟨f', hdraft, rfl, rfl⟩
    exact ⟨hdraft, rfl⟩
  · rintro ⟨hdraft, rfl⟩
    exact ⟨f, hdraft, rfl, rfl⟩

/-- A fragment goes from the queue to the hand. -/
theorem conserves_takeQueued {f : Fragment} (h : b.takeQueued? = some (f, b')) :
    b.Conserves b' := by
  rcases takeQueued?_eq_some.1 h with ⟨l, rest, hnative, hqueue, rfl⟩
  refine conserves_of_same rfl ?_ ?_
  · simp [alive, references, hnative, Native.bindings, Native.headless?]
  · simp only [fragmentsHeld, hnative, Native.queue, Native.headless?, hqueue, List.length_cons]
    omega

theorem conserves_takeDraft {slot : String} {f : Fragment}
    (h : b.takeDraft? slot = some (f, b')) : b.Conserves b' := by
  rcases takeDraft?_eq_some.1 h with ⟨hdraft, rfl⟩
  refine conserves_of_same rfl rfl ?_
  have hsize := Table.size_erase_of_some hdraft
  simp only [fragmentsHeld, List.length_cons]
  omega

/-- A fragment in hand is given up once. -/
theorem conserves_finishFragment {f : Fragment} (hf : f ∈ b.inHand) :
    b.Conserves (b.finishFragment f) := by
  refine conserves_fragments (m := 0) (n := 1) rfl rfl ?_
  have hlength := List.length_erase_add_one hf
  simp only [fragmentsHeld, finishFragment, dropFragment, count]
  omega

/-! ### Fragments that callers keep -/

theorem discardDraft_of_none {slot : String} (h : b.drafts.get? slot = none) :
    b.discardDraft slot = b := by
  have hnone : b.drafts.contains slot = false := Table.contains_eq_false_iff.2 h
  simp [discardDraft, hnone]

/-- A draft that is there is dropped. -/
theorem discardDraft_of_some {slot : String} {f : Fragment} (h : b.drafts.get? slot = some f) :
    b.discardDraft slot = { b with drafts := b.drafts.erase slot }.dropFragment := by
  have hsome : b.drafts.contains slot = true := by simp [Table.contains, h]
  simp [discardDraft, hsome]

/-- If there is none, nothing is dropped. -/
theorem conserves_discardDraft (b : Bridge) (slot : String) :
    b.Conserves (b.discardDraft slot) := by
  cases hdraft : b.drafts.get? slot with
  | none =>
      rw [discardDraft_of_none hdraft]
      exact .refl b
  | some f =>
      rw [discardDraft_of_some hdraft]
      refine conserves_fragments (m := 0) (n := 1) rfl rfl ?_
      have hsize := Table.size_erase_of_some hdraft
      simp only [fragmentsHeld, dropFragment, count]
      omega

/-- The new draft takes the place of the one that the caller has kept there, if any. -/
theorem conserves_draft (b : Bridge) (slot source : String) :
    b.Conserves (b.draft slot source) := by
  unfold draft
  dsimp only
  cases hdraft : b.drafts.get? slot with
  | none =>
      rw [discardDraft_of_none (b := (b.newFragment source).2) hdraft]
      refine conserves_fragments (m := 1) (n := 0) rfl rfl ?_
      simp only [fragmentsHeld, newFragment, count, Table.size_insert_of_none hdraft]
      omega
  -- The draft that the slot had is dropped, and the new one takes its place in the count.
  | some f =>
      rw [discardDraft_of_some (b := (b.newFragment source).2) hdraft]
      refine conserves_fragments (m := 1) (n := 1) rfl rfl ?_
      have hgone : (b.drafts.erase slot).get? slot = none := by simp [Table.get?_erase]
      have hsize := Table.size_erase_of_some hdraft
      simp only [fragmentsHeld, newFragment, dropFragment, count, Table.size_insert_of_none hgone]
      omega

/-- A draft goes to the queue, or stays with its caller. -/
theorem conserves_postDraft {slot : String} {f : Fragment} (hf : b.drafts.get? slot = some f) :
    b.Conserves (postDraft slot f b).2 := by
  unfold postDraft
  rw [Attempt.bind_apply]
  rcases postNative_cases b f with ⟨e, herror⟩ | ⟨b', hok, hledger, halive, hheld, hdrafts, hhand⟩
  · rw [herror]
    exact .refl b
  · rw [hok]
    refine conserves_of_same hledger halive ?_
    have hsize := Table.size_erase_of_some hf
    simp only [Attempt.modify, fragmentsHeld, hdrafts, hhand] at hheld ⊢
    omega

end Fragments

end Bridge

end Host
end ScriptHost
