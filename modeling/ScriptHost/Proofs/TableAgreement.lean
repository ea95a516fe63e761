import ScriptHost.Proofs.Balance

/-!
# When the registry agrees with the table of foreign names

Binding and unbinding a name change two tables, each under a lock of its own: first the table of the
native side, then the registry of the window. Between the two sections of a call other threads may
have sections of their own. As long as no bind and no unbind of one name overlap, the two tables
tell the same about it whenever no call on it is under way. A bind and an unbind of one name that do
overlap may leave the tables at odds, with nobody at work on them.
-/

namespace ScriptHost
namespace Host

open Store

/-! ## Calls in two sections -/

/-- A call on one name. The binding has been created before the first section. -/
inductive BindingCall
  | bind (name : String) (x : Binding)
  | unbind (name : String)
  deriving DecidableEq

namespace BindingCall

def name : BindingCall → String
  | .bind name _ => name
  | .unbind name => name

/-- What is done under the lock of the native side, which may refuse. -/
def first : BindingCall → EventLoop Fragment → Except NativeError (EventLoop Fragment)
  | .bind name x, l => l.bind name x
  | .unbind name, l => l.unbind name

/-- What is done under the lock of the registry. -/
def second : BindingCall → Table Binding → Table Binding
  | .bind name x, registry => registry.insert name x
  | .unbind name, registry => registry.erase name

/-- What the name stands for after the call. -/
def outcome : BindingCall → Option Binding
  | .bind _ x => some x
  | .unbind _ => none

/-- The second section concerns the name of the call alone. -/
theorem get?_second (c : BindingCall) (registry : Table Binding) (name : String) :
    (c.second registry).get? name = if c.name = name then c.outcome else registry.get? name := by
  cases c with
  | bind own x => exact Table.get?_insert registry own name x
  | unbind own => exact Table.get?_erase registry own name

/-- The native side agrees to a bind of a free name and to an unbind of a taken one. -/
theorem first_eq_ok {c : BindingCall} {l l' : EventLoop Fragment} :
    c.first l = .ok l' ↔ ((l.bindings.get? c.name).isSome = true ↔ c.outcome = none) ∧
      l' = { l with bindings := c.second l.bindings } := by
  cases c with
  | bind own x =>
      cases hbound : l.bindings.get? own with
      | none => simp [first, second, EventLoop.bind, Table.contains, name, outcome, hbound, eq_comm]
      | some y => simp [first, EventLoop.bind, Table.contains, name, outcome, hbound]
  | unbind own =>
      cases hbound : l.bindings.get? own with
      | none => simp [first, EventLoop.unbind, Table.contains, name, outcome, hbound]
      | some y =>
          simp [first, second, EventLoop.unbind, Table.contains, name, outcome, hbound, eq_comm]

end BindingCall

/-- The native side and the registry, with the calls that are between their two sections. -/
structure Tables where
  loop : EventLoop Fragment
  registry : Table Binding
  calls : List BindingCall := []

namespace Tables

/-- One section of one call. A call that is refused is over after its first section. -/
inductive Step (t : Tables) : Tables → Prop
  | begin {c : BindingCall} {l} : c.first t.loop = .ok l →
      Step t { t with loop := l, calls := c :: t.calls }
  | refuse {c : BindingCall} {e} : c.first t.loop = .error e → Step t t
  | finish {c a b} : t.calls = a ++ c :: b →
      Step t { t with registry := c.second t.registry, calls := a ++ b }

/-- Any number of sections, with a property that holds all the time. -/
inductive Run (P : Tables → Prop) (t : Tables) : Tables → Prop
  | refl : P t → Run P t t
  | step {t₁ t₂} : Run P t t₁ → Step t₁ t₂ → P t₂ → Run P t t₂

/-- Both tables tell the same about the name. -/
def AgreesOn (name : String) (t : Tables) : Prop :=
  t.registry.get? name = t.loop.bindings.get? name

/-- A bind and an unbind of the name are under way at once. -/
def Overlaps (name : String) (t : Tables) : Prop :=
  (∃ x, .bind name x ∈ t.calls) ∧ .unbind name ∈ t.calls

/-- The calls on a name that are between their sections. -/
def callsOn (name : String) (t : Tables) : List BindingCall :=
  t.calls.filter fun c => c.name = name

/-! ## Calls that do not overlap -/

/-- At most one call on the name is under way. What it has done to the table of the native side is
still there. -/
inductive Ordered (name : String) (t : Tables) : Prop
  | idle : t.callsOn name = [] → t.AgreesOn name → Ordered name t
  | busy {c} : t.callsOn name = [c] → t.loop.bindings.get? name = c.outcome → Ordered name t

variable {t t' : Tables} {name : String} {c d : BindingCall}

theorem mem_callsOn : c ∈ t.callsOn name ↔ c ∈ t.calls ∧ c.name = name := by
  simp [callsOn]

/-- A name that is taken is not bound, and a free one is not unbound. -/
theorem overlaps_of_outcome (hc : c ∈ t.callsOn name) (hd : d ∈ t.callsOn name)
    (h : d.outcome.isSome = true ↔ c.outcome = none) : t.Overlaps name := by
  rcases mem_callsOn.1 hc with ⟨hc', hcname⟩
  rcases mem_callsOn.1 hd with ⟨hd', hdname⟩
  -- Only a bind and an unbind disagree on the outcome, and those overlap.
  cases c with
  | bind own x =>
      cases d with
      | bind own' y => simp [BindingCall.outcome] at h
      | unbind own' =>
          cases hcname
          cases hdname
          exact ⟨⟨x, hc'⟩, hd'⟩
  | unbind own =>
      cases d with
      | bind own' y =>
          cases hcname
          cases hdname
          exact ⟨⟨y, hd'⟩, hc'⟩
      | unbind own' => simp [BindingCall.outcome] at h

/-- A step after which no calls overlap keeps the order. -/
theorem Step.ordered (h : t.Step t') (hapart : ¬ t'.Overlaps name) (ht : t.Ordered name) :
    t'.Ordered name := by
  cases h with
  | refuse => exact ht
  | @begin c l hfirst =>
      rcases BindingCall.first_eq_ok.1 hfirst with ⟨hfree, rfl⟩
      have hget := c.get?_second t.loop.bindings name
      by_cases hname : c.name = name
      · rw [if_pos hname] at hget
        rw [hname] at hfree
        have hcalls : callsOn name { t with
            loop.bindings := c.second t.loop.bindings, calls := c :: t.calls } =
            c :: t.callsOn name :=
          List.filter_cons_of_pos (by simpa using hname)
        cases ht with
        | idle hidle _ => exact .busy (hcalls.trans (by rw [hidle])) hget
        | busy hbusy houtcome =>
            -- the native side agrees only if the other call is of the other kind
            rw [houtcome] at hfree
            rw [hbusy] at hcalls
            refine absurd (overlaps_of_outcome ?_ ?_ hfree) hapart
            · exact hcalls ▸ List.mem_cons_self
            · exact hcalls ▸ List.mem_cons_of_mem _ List.mem_cons_self
      · rw [if_neg hname] at hget
        have hcalls : callsOn name { t with
            loop.bindings := c.second t.loop.bindings, calls := c :: t.calls } = t.callsOn name :=
          List.filter_cons_of_neg (by simpa using hname)
        cases ht with
        | idle hidle hagree => exact .idle (hcalls.trans hidle) (hagree.trans hget.symm)
        | busy hbusy houtcome => exact .busy (hcalls.trans hbusy) (hget.trans houtcome)
  | @finish c before after hcalls =>
      have hget := c.get?_second t.registry name
      have hbefore : t.callsOn name = before.filter (fun c => c.name = name) ++
          (c :: after).filter fun c => c.name = name := by
        rw [callsOn, hcalls, List.filter_append]
      have hafter : callsOn name { t with
          registry := c.second t.registry, calls := before ++ after } =
          before.filter (fun c => c.name = name) ++ after.filter fun c => c.name = name :=
        List.filter_append ..
      by_cases hname : c.name = name
      · rw [if_pos hname] at hget
        rw [List.filter_cons_of_pos (by simpa using hname)] at hbefore
        cases ht with
        | idle hidle _ => simp [hidle] at hbefore
        | @busy d hbusy houtcome =>
            rw [hbusy] at hbefore
            rcases List.append_eq_cons_iff.1 hbefore.symm with ⟨hnil, hrest⟩ | ⟨_, _, hrest⟩
            · rcases List.cons.inj hrest with ⟨rfl, hnil'⟩
              refine .idle ?_ (hget.trans houtcome.symm)
              rw [hafter, hnil, hnil', List.append_nil]
            · simp at hrest
      · rw [if_neg hname] at hget
        rw [List.filter_cons_of_neg (by simpa using hname), ← hafter] at hbefore
        cases ht with
        | idle hidle hagree => exact .idle (hbefore ▸ hidle) (hget.trans hagree)
        | busy hbusy houtcome => exact .busy (hbefore ▸ hbusy) houtcome

/-- Without calls there is an order if the tables agree. -/
theorem ordered_of_quiet (ht : t.calls = []) (hagree : t.AgreesOn name) : t.Ordered name :=
  .idle (by rw [callsOn, ht, List.filter_nil]) hagree

/-- With no call on the name the tables agree on it. -/
theorem Ordered.agreesOn (h : t.Ordered name) (ht : t.callsOn name = []) : t.AgreesOn name := by
  cases h with
  | idle _ hagree => exact hagree
  | busy hbusy _ =>
      rw [ht] at hbusy
      cases hbusy

/-- A call has left in the first table what it will leave in the second. -/
theorem Ordered.outcome (h : t.Ordered name) (hc : c ∈ t.callsOn name) :
    t.loop.bindings.get? name = c.outcome := by
  cases h with
  | idle hidle _ =>
      rw [hidle] at hc
      cases hc
  | busy hbusy houtcome =>
      rw [hbusy, List.mem_singleton] at hc
      rw [hc, houtcome]

/-- By induction over the steps. -/
theorem Run.ordered (h : Run (fun t => ¬ t.Overlaps name) t t') (ht : t.Ordered name) :
    t'.Ordered name := by
  induction h with
  | refl => exact ht
  | step _ hstep hapart ih => exact hstep.ordered hapart ih

end Tables

/-! ## Requests -/

/-- The tables of a bridge at which no call is under way. -/
def Bridge.tables (b : Bridge) (l : EventLoop Fragment) : Tables :=
  ⟨l, b.window.registry, []⟩

namespace Tables

variable {t : Tables} {name : String} {c : BindingCall} {l : EventLoop Fragment}

/-- Without calls none overlap. -/
theorem not_overlaps_of_quiet (h : t.calls = []) : ¬ t.Overlaps name := by
  rintro ⟨⟨x, hbind⟩, _⟩
  rw [h] at hbind
  cases hbind

/-- A single call overlaps with none. -/
theorem not_overlaps_of_alone (h : t.calls = [c]) : ¬ t.Overlaps name := by
  rintro ⟨⟨x, hbind⟩, hunbind⟩
  rw [h, List.mem_singleton] at hbind hunbind
  cases hbind.trans hunbind.symm

/-- A call that nobody interrupts. -/
theorem run_alone (ht : t.calls = []) (hfirst : c.first t.loop = .ok l) (name : String) :
    t.Run (fun t => ¬ t.Overlaps name) ⟨l, c.second t.registry, []⟩ := by
  have hbegun : t.Run (fun t => ¬ t.Overlaps name) ⟨l, t.registry, [c]⟩ := by
    have hstep := Step.begin hfirst
    rw [ht] at hstep
    exact (Run.refl (not_overlaps_of_quiet ht)).step hstep (not_overlaps_of_alone rfl)
  exact hbegun.step (.finish (a := []) (b := []) rfl) (not_overlaps_of_quiet rfl)

end Tables

namespace Bridge

variable {b : Bridge} {l : EventLoop Fragment} {name : String}

theorem bindNative_headless {x : Binding} (h : b.native = .headless l) :
    bindNative name x b =
      match l.bind name x with
      | .error e => (.error e, b)
      | .ok l' => (.ok (), { b with native := .headless l' }) := by
  rw [bindNative, h, Native.bind, Native.attempt]
  cases l.bind name x <;> rfl

/-- It is the loop that unbinds, and then the binding is released. -/
theorem unbindNative_headless (h : b.native = .headless l) :
    unbindNative name b =
      match l.unbind name with
      | .error e => (.error e, b)
      | .ok l' =>
          (.ok (), { b with native := .headless l' }.releaseAny (b.native.boundTo? name)) := by
  rw [unbindNative, h, Native.unbind, Native.attempt]
  cases l.unbind name <;> rfl

variable (b)

/-- A release leaves the window alone. -/
theorem window_releaseAny (old : Option Binding) : (b.releaseAny old).window = b.window := by
  rcases b.releaseAny_eq old with ⟨n, heq⟩
  rw [heq]
  rfl

theorem registry_enroll (x : Binding) :
    (b.enroll name x).window.registry = b.window.registry.insert name x :=
  congrArg Window.registry (window_releaseAny _ _)

theorem registry_strike : (b.strike name).window.registry = b.window.registry.erase name :=
  congrArg Window.registry (window_releaseAny _ _)

end Bridge

namespace Request

variable {b : Bridge} {l : EventLoop Fragment} {other : String}

/-- A bind that is requested of a bridge is a call that nobody interrupts, or it is refused. -/
theorem run_bind (hnative : b.native = .headless l) (name function : String) :
    ∃ l', (Request.bind name function b).2.native = .headless l' ∧
      (b.tables l).Run (fun t => ¬ t.Overlaps other)
        ((Request.bind name function b).2.tables l') := by
  let x := (b.newBinding function).1
  have hcreated : (b.newBinding function).2.native = .headless l := hnative
  unfold Request.bind
  dsimp only
  rw [Bridge.bindNative_headless hcreated]
  -- Refused by the loop, the call is over and has changed neither table; else its second section
  -- follows at once.
  cases hfirst : l.bind name x with
  | error e =>
      refine ⟨l, (Bridge.native_release _ x).trans hnative, ?_⟩
      have hwindow := (b.newBinding function).2.window_releaseAny (some x)
      have htables : ((b.newBinding function).2.release x).tables l = b.tables l :=
        congrArg (fun w : Window => (⟨l, w.registry, []⟩ : Tables)) hwindow
      rw [htables]
      exact .refl (Tables.not_overlaps_of_quiet rfl)
  | ok l' =>
      refine ⟨l', Bridge.native_enroll _ x name, ?_⟩
      rw [Bridge.tables, Bridge.tables, Bridge.registry_enroll]
      exact Tables.run_alone (t := b.tables l) (c := .bind name x) rfl hfirst other

/-- A request to unbind is a call with nobody else around. -/
theorem run_unbind (hnative : b.native = .headless l) (name : String) :
    ∃ l', (Request.unbind name b).2.native = .headless l' ∧
      (b.tables l).Run (fun t => ¬ t.Overlaps other) ((Request.unbind name b).2.tables l') := by
  unfold Request.unbind
  rw [Attempt.bind_apply, ofNative, Bridge.unbindNative_headless hnative]
  cases hfirst : l.unbind name with
  | error e =>
      exact ⟨l, hnative, .refl (Tables.not_overlaps_of_quiet rfl)⟩
  | ok l' =>
      let b' := { b with native := .headless l' }.releaseAny (b.native.boundTo? name)
      refine ⟨l', (Bridge.native_strike b' name).trans (Bridge.native_releaseAny _ _), ?_⟩
      have hwindow : b'.window = b.window := Bridge.window_releaseAny _ _
      have htables : (b'.strike name).tables l' = ⟨l', b.window.registry.erase name, []⟩ := by
        rw [Bridge.tables, Bridge.registry_strike, hwindow]
      have hrun := Tables.run_alone (t := b.tables l) (c := .unbind name) rfl hfirst other
      exact htables ▸ hrun

end Request

/-! ## The law -/

/-- As long as no bind and no unbind of a name are under way at once, whatever the calls on other
names do: while a call on the name is under way the native side has what that call has told it, and
between two calls the registry has the same. Requests that a single thread makes of a bridge are
calls of this kind, so they keep the two in agreement about every name. -/
theorem registry_agrees_unless_calls_overlap {start t : Tables} {name : String}
    (hstart : start.calls = []) (hagree : start.AgreesOn name)
    (hrun : start.Run (fun t => ¬ t.Overlaps name) t) :
    (∀ c ∈ t.callsOn name, t.loop.bindings.get? name = c.outcome) ∧
    (t.callsOn name = [] → t.AgreesOn name) ∧
    ∀ (b : Bridge) (l : EventLoop Fragment), b.native = .headless l →
      (b.tables l).AgreesOn name → ∀ own function,
        (∃ l', (Request.bind own function b).2.native = .headless l' ∧
          ((Request.bind own function b).2.tables l').AgreesOn name) ∧
        ∃ l', (Request.unbind own b).2.native = .headless l' ∧
          ((Request.unbind own b).2.tables l').AgreesOn name := by
  have hordered := hrun.ordered (Tables.ordered_of_quiet hstart hagree)
  refine ⟨fun c => hordered.outcome, hordered.agreesOn,
    fun b l hnative hb own function => ⟨?_, ?_⟩⟩
  · rcases Request.run_bind hnative own function with ⟨l', hl', hrun⟩
    exact ⟨l', hl', (hrun.ordered (Tables.ordered_of_quiet rfl hb)).agreesOn rfl⟩
  · rcases Request.run_unbind hnative own with ⟨l', hl', hrun⟩
    exact ⟨l', hl', (hrun.ordered (Tables.ordered_of_quiet rfl hb)).agreesOn rfl⟩

/-- A window with nothing bound. -/
def Tables.fresh : Tables :=
  ⟨.new 4, .empty, []⟩

/-- While one name is bound, another one is bound and unbound. -/
theorem overlapping_calls_on_other_names_agree :
    ∃ t, Tables.fresh.Run (fun t => ¬ t.Overlaps "a") t ∧ t.callsOn "a" = [] ∧
      t.calls = [.unbind "b"] ∧ t.loop.bindings.get? "a" = some ⟨0, "f"⟩ ∧ t.AgreesOn "a" := by
  let bindA : BindingCall := .bind "a" ⟨0, "f"⟩
  let bindB : BindingCall := .bind "b" ⟨1, "g"⟩
  let l₁ : EventLoop Fragment := { Tables.fresh.loop with
    bindings := bindA.second Tables.fresh.loop.bindings }
  let l₂ : EventLoop Fragment := { l₁ with bindings := bindB.second l₁.bindings }
  let l₃ : EventLoop Fragment := { l₂ with bindings := l₂.bindings.erase "b" }
  let P : Tables → Prop := fun t => ¬ t.Overlaps "a"
  have hapart (calls : List BindingCall) (h : .unbind "a" ∉ calls) (l : EventLoop Fragment)
      (registry : Table Binding) : P ⟨l, registry, calls⟩ :=
    fun hoverlaps => h hoverlaps.2
  -- The bind of `b` begins and ends inside that of `a`, and an unbind of `b` is under way at the
  -- end.
  have hrun : Tables.fresh.Run P ⟨l₃, bindA.second (bindB.second .empty), [.unbind "b"]⟩ := by
    have h₁ : Tables.fresh.Run P ⟨l₁, .empty, [bindA]⟩ :=
      .step (.refl (hapart [] nofun _ _))
        (.begin (BindingCall.first_eq_ok.2 ⟨by decide +kernel, rfl⟩))
        (hapart [bindA] (by decide +kernel) _ _)
    have h₂ : Tables.fresh.Run P ⟨l₂, .empty, [bindB, bindA]⟩ :=
      h₁.step (.begin (BindingCall.first_eq_ok.2 ⟨by decide +kernel, rfl⟩))
        (hapart _ (by decide +kernel) _ _)
    have h₃ : Tables.fresh.Run P ⟨l₂, bindB.second .empty, [bindA]⟩ :=
      h₂.step (.finish (a := []) (b := [bindA]) rfl) (hapart _ (by decide +kernel) _ _)
    have h₄ : Tables.fresh.Run P ⟨l₃, bindB.second .empty, [.unbind "b", bindA]⟩ :=
      h₃.step (.begin (BindingCall.first_eq_ok.2 ⟨by decide +kernel, rfl⟩))
        (hapart _ (by decide +kernel) _ _)
    exact h₄.step (.finish (a := [.unbind "b"]) (b := []) rfl) (hapart _ (by decide +kernel) _ _)
  have hagree : Tables.fresh.AgreesOn "a" := rfl
  have hlaw := registry_agrees_unless_calls_overlap rfl hagree hrun
  exact ⟨_, hrun, by decide +kernel, rfl, by decide +kernel, hlaw.2.1 (by decide +kernel)⟩

/-- A bind has told the native side, an unbind of the same name runs as a whole, and then the bind
enrolls its binding: the entry stays although the native side has none, and no unbind removes it. -/
theorem stale_entry_stays :
    ∃ t, Tables.fresh.Run (fun _ => True) t ∧ t.calls = [] ∧
      t.registry.get? "a" = some ⟨0, "f"⟩ ∧ t.loop.bindings.get? "a" = none ∧
      (BindingCall.unbind "a").first t.loop = .error .notFound := by
  let bind : BindingCall := .bind "a" ⟨0, "f"⟩
  let l₁ : EventLoop Fragment := { Tables.fresh.loop with
    bindings := bind.second Tables.fresh.loop.bindings }
  let l₂ : EventLoop Fragment := { l₁ with bindings := l₁.bindings.erase "a" }
  -- The unbind comes between the two sections of the bind, and finds the loop's entry but not the
  -- registry's.
  have hrun : Tables.fresh.Run (fun _ => True)
      ⟨l₂, bind.second ((BindingCall.unbind "a").second .empty), []⟩ := by
    have h₁ : Tables.fresh.Run (fun _ => True) ⟨l₁, .empty, [bind]⟩ :=
      .step (.refl trivial) (.begin (BindingCall.first_eq_ok.2 ⟨by decide +kernel, rfl⟩)) trivial
    have h₂ : Tables.fresh.Run (fun _ => True) ⟨l₂, .empty, [.unbind "a", bind]⟩ :=
      h₁.step (.begin (BindingCall.first_eq_ok.2 ⟨by decide +kernel, rfl⟩)) trivial
    have h₃ : Tables.fresh.Run (fun _ => True)
        ⟨l₂, (BindingCall.unbind "a").second .empty, [bind]⟩ :=
      h₂.step (.finish (a := []) (b := [bind]) rfl) trivial
    exact h₃.step (.finish (a := []) (b := []) rfl) trivial
  have hrefused : l₂.unbind "a" = .error .notFound := if_neg (by decide +kernel)
  exact ⟨_, hrun, rfl, by decide +kernel, by decide +kernel, hrefused⟩

/-- So the tables need not agree when no call is under way. -/
theorem tables_disagree_after_overlap :
    ¬ ∀ t, Tables.fresh.Run (fun _ => True) t → t.calls = [] → ∀ name, t.AgreesOn name := by
  intro hclaim
  rcases stale_entry_stays with ⟨t, hrun, hcalls, hregistry, htable, _⟩
  have hagree := hclaim t hrun hcalls "a"
  rw [Tables.AgreesOn, hregistry, htable] at hagree
  cases hagree

end Host
end ScriptHost
