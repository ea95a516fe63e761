import Mathlib.Data.List.Induction
import ScriptHost.Host.EventLoop

/-!
# What happens to results

A foreign call waits for a result under its id. A result that comes in is accepted if a call waits
for it, and is kept until somebody takes it. Ids may be used again, several calls may wait under
one id, and a result may be replaced before it has been taken. So which ids wait and which results
are kept is told by all that has happened before; here this is derived for every history of a
headless loop, whatever else is done to the loop in between.
-/

namespace ScriptHost
namespace Host

/-- A call of a bound name begins, a result comes in and is accepted or refused, or somebody looks
for a result and takes what is found. -/
inductive Delivery
  | called (id : String)
  | accepted (id : String) (result : CallResult)
  | refused (id : String) (e : NativeError)
  | taken (id : String) (found : Option CallResult)
  deriving DecidableEq, Repr

namespace Delivery

/-- Each of them is about one id. -/
def id : Delivery → String
  | called id => id
  | accepted id _ => id
  | refused id _ => id
  | taken id _ => id

/-- A result comes in. -/
def IsAnswer : Delivery → Prop
  | accepted _ _ => True
  | refused _ _ => True
  | _ => False

/-- Some result comes in for that id and is accepted. -/
def Accepts (id : String) (d : Delivery) : Prop :=
  ∃ result, d = accepted id result

/-- Some result is found, and is gone from then on. -/
def HandsOut (id : String) (d : Delivery) : Prop :=
  ∃ result, d = taken id (some result)

end Delivery

/-! ## What has happened -/

section Since

variable {P : Delivery → Prop} {x d : Delivery} {ds before after : List Delivery}

/-- `x` has happened, and since then nothing but what satisfies `P`. -/
def Since (P : Delivery → Prop) (x : Delivery) (ds : List Delivery) : Prop :=
  ∃ before after, ds = before ++ x :: after ∧ ∀ d ∈ after, P d

/-- Where an element stands in a history that has grown at its end. -/
theorem concat_eq_append_cons (h : ds ++ [d] = before ++ x :: after) :
    (after = [] ∧ d = x ∧ ds = before) ∨
      ∃ rest, after = rest ++ [d] ∧ ds = before ++ x :: rest := by
  -- the last one of the list is `x` itself, or the last one of those after it
  rcases List.eq_nil_or_concat after with rfl | ⟨rest, last, hafter⟩
  · rcases List.append_inj' h rfl with ⟨hds, hd⟩
    cases hd
    exact .inl ⟨rfl, rfl, hds⟩
  · rw [List.concat_eq_append] at hafter
    subst hafter
    have hassoc : ds ++ [d] = (before ++ x :: rest) ++ [last] := by
      rw [h, List.append_assoc, List.cons_append]
    rcases List.append_inj' hassoc rfl with ⟨hds, hd⟩
    cases hd
    exact .inr ⟨rest, rfl, hds⟩

theorem not_since_nil : ¬ Since P x [] := by
  rintro ⟨before, after, h, _⟩
  cases before <;> cases h

/-- What has just happened is `x` itself, or it is something that may happen since. -/
theorem since_concat : Since P x (ds ++ [d]) ↔ d = x ∨ (Since P x ds ∧ P d) := by
  constructor
  · rintro ⟨before, after, h, hafter⟩
    rcases concat_eq_append_cons h with ⟨_, hd, _⟩ | ⟨rest, rfl, hds⟩
    · exact .inl hd
    · refine .inr ⟨⟨before, rest, hds, fun d hd => ?_⟩, ?_⟩
      · exact hafter d (List.mem_append_left _ hd)
      · exact hafter _ (List.mem_append_right _ List.mem_cons_self)
  · rintro (rfl | ⟨⟨before, after, rfl, hafter⟩, hd⟩)
    · exact ⟨ds, [], rfl, fun _ h => nomatch h⟩
    · refine ⟨before, after ++ [d], by simp, fun y hy => ?_⟩
      rcases List.mem_append.1 hy with hy | hy
      · exact hafter y hy
      · rwa [List.mem_singleton.1 hy]

/-- What satisfies `P` may be left out of the history. -/
theorem since_filter {q : Delivery → Bool} (hx : q x = true) (hP : ∀ d, q d = false → P d) :
    Since P x (ds.filter q) ↔ Since P x ds := by
  induction ds using List.reverseRecOn with
  | nil => rfl
  | append_singleton ds d ih =>
      rw [List.filter_append, since_concat]
      cases hd : q d with
      | true =>
          have hkept : [d].filter q = [d] := by simp [hd]
          rw [hkept, since_concat, ih]
      | false =>
          -- what is left out is not `x`, and nothing that would end the time since `x`
          have hleft : [d].filter q = [] := by simp [hd]
          have hne : d ≠ x := by
            rintro rfl
            rw [hx] at hd
            cases hd
          rw [hleft, List.append_nil, ih]
          exact ⟨fun h => .inr ⟨h, hP d hd⟩, fun h => (h.resolve_left hne).1⟩

theorem Since.mem (h : Since P x ds) : x ∈ ds := by
  rcases h with ⟨before, after, rfl, _⟩
  exact List.mem_append_right _ List.mem_cons_self

/-- What does not satisfy `P` cannot have happened after it. -/
theorem Since.of_append_cons (h : Since P x (before ++ d :: after)) (hne : d ≠ x) (hd : ¬ P d) :
    Since P x after := by
  induction after using List.reverseRecOn with
  | nil =>
      rcases since_concat.1 h with heq | ⟨_, hP⟩
      · exact (hne heq).elim
      · exact (hd hP).elim
  | append_singleton after last ih =>
      rw [← List.cons_append, ← List.append_assoc] at h
      rcases since_concat.1 h with heq | ⟨hbefore, hlast⟩
      · exact since_concat.2 (.inl heq)
      · exact since_concat.2 (.inr ⟨ih hbefore, hlast⟩)

end Since

/-- A call with that id has begun since a result for it was last accepted. -/
def Outstanding (id : String) (ds : List Delivery) : Prop :=
  Since (fun d => ¬ d.Accepts id) (.called id) ds

/-- That result was the last one accepted for the id, and nobody has taken it. -/
def Untaken (id : String) (result : CallResult) (ds : List Delivery) : Prop :=
  Since (fun d => ¬ d.Accepts id ∧ ¬ d.HandsOut id) (.accepted id result) ds

section Concat

variable {id x : String} {result other : CallResult} {ds : List Delivery}

/-- A call opens its id and no other one. -/
@[simp]
theorem outstanding_called : Outstanding x (ds ++ [.called id]) ↔ id = x ∨ Outstanding x ds := by
  simp [Outstanding, since_concat, Delivery.Accepts]

/-- A result that is accepted closes its id and no other one. -/
@[simp]
theorem outstanding_accepted :
    Outstanding x (ds ++ [.accepted id result]) ↔ Outstanding x ds ∧ id ≠ x := by
  simp [Outstanding, since_concat, Delivery.Accepts]

@[simp]
theorem outstanding_refused {e : NativeError} :
    Outstanding x (ds ++ [.refused id e]) ↔ Outstanding x ds := by
  simp [Outstanding, since_concat, Delivery.Accepts]

@[simp]
theorem outstanding_taken {found : Option CallResult} :
    Outstanding x (ds ++ [.taken id found]) ↔ Outstanding x ds := by
  simp [Outstanding, since_concat, Delivery.Accepts]

@[simp]
theorem untaken_called : Untaken x other (ds ++ [.called id]) ↔ Untaken x other ds := by
  simp [Untaken, since_concat, Delivery.Accepts, Delivery.HandsOut]

/-- A result that is accepted takes the place of an older one for its id. -/
@[simp]
theorem untaken_accepted :
    Untaken x other (ds ++ [.accepted id result]) ↔
      (id = x ∧ result = other) ∨ (Untaken x other ds ∧ id ≠ x) := by
  simp [Untaken, since_concat, Delivery.Accepts, Delivery.HandsOut]

@[simp]
theorem untaken_refused {e : NativeError} :
    Untaken x other (ds ++ [.refused id e]) ↔ Untaken x other ds := by
  simp [Untaken, since_concat, Delivery.Accepts, Delivery.HandsOut]

/-- A look takes what it finds, for its id alone. -/
@[simp]
theorem untaken_taken {found : Option CallResult} :
    Untaken x other (ds ++ [.taken id found]) ↔ Untaken x other ds ∧ (id = x → found = none) := by
  cases found <;> simp [Untaken, since_concat, Delivery.Accepts, Delivery.HandsOut]

end Concat

/-- What happens to a result agrees with what has happened before. -/
def Delivery.Fits (before : List Delivery) : Delivery → Prop
  | .called _ => True
  | .accepted id _ => Outstanding id before
  | .refused id e => ¬ Outstanding id before ∧ e = .notFound
  | .taken id found => ∀ result, found = some result ↔ Untaken id result before

/-- What concerns one id. -/
def about (id : String) (ds : List Delivery) : List Delivery :=
  ds.filter fun d => d.id == id

section About

variable {id : String} {result : CallResult} {ds ds' : List Delivery} {d : Delivery}

theorem id_of_accepts (h : d.Accepts id) : d.id = id := by
  rcases h with ⟨_, rfl⟩
  rfl

theorem id_of_handsOut (h : d.HandsOut id) : d.id = id := by
  rcases h with ⟨_, rfl⟩
  rfl

/-- What happens to other ids makes no difference to a call. -/
theorem outstanding_about : Outstanding id (about id ds) ↔ Outstanding id ds := by
  refine since_filter (beq_self_eq_true id) fun d hd haccepts => ?_
  rw [id_of_accepts haccepts, beq_self_eq_true] at hd
  cases hd

/-- What happens to other ids makes no difference to a result. -/
theorem untaken_about : Untaken id result (about id ds) ↔ Untaken id result ds := by
  refine since_filter (beq_self_eq_true id) fun d hd => ⟨fun haccepts => ?_, fun hhandsOut => ?_⟩
  · rw [id_of_accepts haccepts, beq_self_eq_true] at hd
    cases hd
  · rw [id_of_handsOut hhandsOut, beq_self_eq_true] at hd
    cases hd

/-- So histories that agree about an id agree about its calls. -/
theorem outstanding_congr (h : about id ds = about id ds') :
    Outstanding id ds ↔ Outstanding id ds' := by
  rw [← outstanding_about, h, outstanding_about]

theorem untaken_congr (h : about id ds = about id ds') :
    Untaken id result ds ↔ Untaken id result ds' := by
  rw [← untaken_about, h, untaken_about]

/-- Between two results that are handed out for an id, the second one of them has been accepted. -/
theorem accepted_between {before between : List Delivery} {first second : CallResult}
    (h : (Delivery.taken id (some second)).Fits (before ++ .taken id (some first) :: between)) :
    .accepted id second ∈ between := by
  -- the second one was untaken, so it cannot be older than the first look
  have huntaken : Untaken id second (before ++ .taken id (some first) :: between) :=
    (h second).1 rfl
  refine Since.mem (huntaken.of_append_cons (fun heq => nomatch heq) ?_)
  rintro ⟨_, hnot⟩
  exact hnot ⟨first, rfl⟩

end About

/-! ## Histories of a loop -/

namespace EventLoop

variable {ρ : Type}

/-- What is done at once to a loop, with what it means for results. The name that is called has been
found in the table of names before. -/
inductive Deals : EventLoop ρ → List Delivery → EventLoop ρ → Prop
  | call {l id} : Deals l [.called id] (l.expectResult id)
  | accept {l id result l'} : l.resolve id result = .ok l' → Deals l [.accepted id result] l'
  | refuse {l id result e} : l.resolve id result = .error e → Deals l [.refused id e] l
  | take {l id found l'} : l.takeResult id = (found, l') → Deals l [.taken id found] l'
  -- names, the queue and the control of the loop
  | aside {l l'} : l'.pending = l.pending → l'.results = l.results → Deals l [] l'

/-- What has been done to a loop, one thing after the other. -/
inductive History (l : EventLoop ρ) : List Delivery → EventLoop ρ → Prop
  | nil : History l [] l
  | snoc {ds l₁ es l₂} : History l ds l₁ → Deals l₁ es l₂ → History l (ds ++ es) l₂

/-- Whoever waits for a result looks for it again and again, with whatever others do in between. So
far has the wait come when a look is due: this has happened since it began, and it is so late. -/
inductive Looks (id : String) (now : Nat) (l : EventLoop ρ) :
    List Delivery → Nat → EventLoop ρ → Prop
  | first : Looks id now l [] now l
  | again {es time l₁ l₂ ds later l₃} : Looks id now l es time l₁ →
      l₁.takeResult id = (none, l₂) → l₂.History ds l₃ → time ≤ later →
      Looks id now l (es ++ .taken id none :: ds) later l₃

/-- A wait is over with the first look that finds a result. A look that finds nothing is the last
one if the time is over, but not if it is the first one too. -/
inductive Waits (id : String) (deadline now : Nat) (l : EventLoop ρ) :
    List Delivery → Option CallResult → Nat → EventLoop ρ → Prop
  | finish {es found later l₁ l'} : l.Looks id now es later l₁ → l₁.takeResult id = (found, l') →
      (found = none → es ≠ [] ∧ deadline ≤ later) →
      Waits id deadline now l (es ++ [.taken id found]) found later l'

/-- The ids that wait are those of outstanding calls, and the results that are kept are those that
nobody has taken. -/
structure Agrees (ds : List Delivery) (l : EventLoop ρ) : Prop where
  pending : ∀ id, id ∈ l.pending ↔ Outstanding id ds
  results : ∀ id result, l.results.get? id = some result ↔ Untaken id result ds

section History

variable {id : String} {result : CallResult} {found : Option CallResult}
variable {ds es before after : List Delivery} {d : Delivery} {l l₁ l₂ l' : EventLoop ρ}

theorem Deals.history (h : l.Deals es l') : l.History es l' :=
  .snoc .nil h

theorem History.trans (h : l.History ds l₁) (h' : l₁.History es l₂) :
    l.History (ds ++ es) l₂ := by
  induction h' with
  | nil => rwa [List.append_nil]
  | snoc _ hdeals ih =>
      rw [← List.append_assoc]
      exact ih.snoc hdeals

/-- A new loop waits for nothing and keeps nothing. -/
theorem agrees_new (capacity : Nat) : (EventLoop.new capacity : EventLoop ρ).Agrees [] where
  pending _ := ⟨nofun, fun h => (not_since_nil h).elim⟩
  results _ _ := ⟨nofun, fun h => (not_since_nil h).elim⟩

/-! ### What is answered -/

/-- A result for an outstanding call is accepted. -/
theorem Agrees.resolve_of_outstanding (hl : l.Agrees ds) (h : Outstanding id ds) :
    l.resolve id result = .ok { l with
      pending := l.pending.filter fun p => p != id
      results := l.results.insert id result } :=
  if_pos (List.contains_iff_mem.2 ((hl.pending id).2 h))

/-- Every other result is refused. -/
theorem Agrees.resolve_of_not_outstanding (hl : l.Agrees ds) (h : ¬ Outstanding id ds) :
    l.resolve id result = .error .notFound := by
  refine if_neg fun hcontains => h ?_
  exact (hl.pending id).1 (List.contains_iff_mem.1 hcontains)

/-- What has been accepted was waited for. -/
theorem Agrees.resolve_eq_ok (hl : l.Agrees ds) (h : l.resolve id result = .ok l') :
    Outstanding id ds := by
  by_cases houtstanding : Outstanding id ds
  · exact houtstanding
  · rw [hl.resolve_of_not_outstanding houtstanding] at h
    cases h

theorem Agrees.resolve_eq_error {e : NativeError} (hl : l.Agrees ds)
    (h : l.resolve id result = .error e) : ¬ Outstanding id ds ∧ e = .notFound := by
  by_cases houtstanding : Outstanding id ds
  · rw [hl.resolve_of_outstanding houtstanding] at h
    cases h
  · rw [hl.resolve_of_not_outstanding houtstanding] at h
    cases h
    exact ⟨houtstanding, rfl⟩

/-- Whatever is done fits what has been done before. -/
theorem Deals.fits (h : l.Deals es l') (hl : l.Agrees ds) (hd : d ∈ es) : d.Fits ds := by
  cases h with
  | call =>
      rw [List.mem_singleton.1 hd]
      trivial
  | accept hresolve =>
      rw [List.mem_singleton.1 hd]
      exact hl.resolve_eq_ok hresolve
  | refuse hresolve =>
      rw [List.mem_singleton.1 hd]
      exact hl.resolve_eq_error hresolve
  | take htake =>
      rw [List.mem_singleton.1 hd]
      cases htake
      exact hl.results _
  | aside => cases hd

/-! ### What is kept -/

/-- An id that waits already does not wait twice. -/
theorem mem_pending_expectResult {x : String} :
    x ∈ (l.expectResult id).pending ↔ id = x ∨ x ∈ l.pending := by
  by_cases hwaits : id ∈ l.pending
  · simp only [expectResult, List.contains_iff_mem.2 hwaits, if_true]
    exact ⟨.inr, fun h => h.elim (fun hx => hx ▸ hwaits) fun hx => hx⟩
  · have hnew : l.pending.contains id = false := by simpa using hwaits
    simp only [expectResult, hnew]
    exact List.mem_cons.trans (or_congr_left eq_comm)

/-- A call that begins makes its id wait. -/
theorem agrees_expectResult (hl : l.Agrees ds) :
    (l.expectResult id).Agrees (ds ++ [.called id]) where
  pending x := by rw [mem_pending_expectResult, hl.pending, outstanding_called]
  results x other := (hl.results x other).trans untaken_called.symm

/-- A result that is accepted takes the place of one that nobody has taken. -/
theorem agrees_accept (hl : l.Agrees ds) :
    ({ l with
      pending := l.pending.filter fun p => p != id
      results := l.results.insert id result } : EventLoop ρ).Agrees
      (ds ++ [.accepted id result]) := by
  refine ⟨fun x => ?_, fun x other => ?_⟩
  · show x ∈ l.pending.filter (fun p => p != id) ↔ _
    rw [List.mem_filter, hl.pending, bne_iff_ne, outstanding_accepted]
    exact and_congr_right' ne_comm
  · show (l.results.insert id result).get? x = some other ↔ _
    rw [Store.Table.get?_insert, untaken_accepted, ← hl.results]
    by_cases hx : id = x <;> simp [hx]

/-- A look that finds nothing erases nothing. -/
theorem agrees_takeResult (hl : l.Agrees ds) :
    (l.takeResult id).2.Agrees (ds ++ [.taken id (l.takeResult id).1]) := by
  refine ⟨fun x => (hl.pending x).trans outstanding_taken.symm, fun x other => ?_⟩
  show (l.results.erase id).get? x = some other ↔ _
  rw [Store.Table.get?_erase, untaken_taken, ← hl.results]
  show _ ↔ _ ∧ (id = x → l.results.get? id = none)
  by_cases hx : id = x
  · subst hx
    cases l.results.get? id <;> simp
  · simp [hx]

/-- Whatever is done, the loop agrees with what has been done. -/
theorem Deals.agrees (h : l.Deals es l') (hl : l.Agrees ds) : l'.Agrees (ds ++ es) := by
  cases h with
  | call => exact agrees_expectResult hl
  | accept hresolve =>
      rw [hl.resolve_of_outstanding (hl.resolve_eq_ok hresolve)] at hresolve
      cases hresolve
      exact agrees_accept hl
  | refuse _ =>
      -- neither the loop nor what it has to agree with is changed
      exact ⟨fun x => (hl.pending x).trans outstanding_refused.symm,
        fun x other => (hl.results x other).trans untaken_refused.symm⟩
  | take htake =>
      cases htake
      exact agrees_takeResult hl
  | aside hpending hresults =>
      rw [List.append_nil]
      exact ⟨fun id => hpending ▸ hl.pending id, fun id => hresults ▸ hl.results id⟩

theorem History.agrees (h : l.History es l') (hl : l.Agrees ds) : l'.Agrees (ds ++ es) := by
  induction h with
  | nil => rwa [List.append_nil]
  | snoc _ hdeals ih =>
      rw [← List.append_assoc]
      exact hdeals.agrees ih

theorem agrees_of_history {capacity : Nat} (h : (EventLoop.new capacity).History ds l) :
    l.Agrees ds :=
  h.agrees (agrees_new capacity)

/-- At most one thing is done at a time. -/
theorem Deals.eq_nil_or_singleton (h : l.Deals es l') : es = [] ∨ ∃ d, es = [d] := by
  cases h with
  | aside => exact .inl rfl
  | _ => exact .inr ⟨_, rfl⟩

/-- Each thing that has happened fits what had happened before it. -/
theorem fits_of_history {capacity : Nat} (h : (EventLoop.new capacity).History ds l)
    (hds : ds = before ++ d :: after) : d.Fits before := by
  induction h generalizing after with
  | nil => cases before <;> cases hds
  | @snoc earlier _ _ _ hhistory hdeals ih =>
      -- the last act is about one delivery at most, and `d` is that one or an earlier one
      rcases hdeals.eq_nil_or_singleton with rfl | ⟨last, rfl⟩
      · rw [List.append_nil] at hds
        exact ih hds
      · rcases concat_eq_append_cons hds with ⟨_, rfl, rfl⟩ | ⟨rest, _, hearlier⟩
        · exact hdeals.fits (agrees_of_history hhistory) List.mem_cons_self
        · exact ih hearlier

/-! ### Waiting -/

variable {deadline now later : Nat}

/-- The looks of a wait are part of the history like any others. -/
theorem Looks.history (h : l.Looks id now es later l₁) : l.History es l₁ := by
  induction h with
  | first => exact .nil
  | again _ htake hhistory _ ih => exact ih.trans ((Deals.take htake).history.trans hhistory)

/-- A second look is due only if the first one has found nothing. -/
theorem Looks.first_look (h : l.Looks id now es later l₁) (hes : es ≠ []) :
    (l.takeResult id).1 = none := by
  induction h with
  | first => exact absurd rfl hes
  | again hlooks htake _ _ ih =>
      cases hlooks with
      | first => rw [htake]
      | again => exact ih (by simp)

/-- A wait ends with a look, before which there is a history. -/
theorem Waits.last_look (h : l.Waits id deadline now es found later l') :
    ∃ ds l₁, es = ds ++ [.taken id found] ∧ l.History ds l₁ ∧
      l₁.takeResult id = (found, l') := by
  cases h with
  | finish hlooks htake _ => exact ⟨_, _, rfl, hlooks.history, htake⟩

/-- Nobody waits for a result that is there. -/
theorem Waits.at_once (h : l.Waits id deadline now es found later l')
    (hkept : (l.takeResult id).1 = some result) :
    es = [.taken id (some result)] ∧ found = some result ∧ later = now := by
  cases h with
  | finish hlooks htake _ =>
      cases hlooks with
      | first =>
          rw [htake] at hkept
          cases hkept
          exact ⟨rfl, rfl, rfl⟩
      | again hbefore hnone hhistory hle =>
          have hlooks := hbefore.again hnone hhistory hle
          rw [hlooks.first_look (by simp)] at hkept
          cases hkept

/-- Nobody gives up before the time is over. -/
theorem Waits.deadline_le (h : l.Waits id deadline now es none later l') : deadline ≤ later := by
  cases h with
  | finish _ _ hover => exact (hover rfl).2

/-- However long somebody has been waiting, and whatever the others have done: the look at the
deadline ends the wait. -/
theorem Looks.ends (h : l.Looks id now es later l₁) (hes : es ≠ []) (hdeadline : deadline ≤ later) :
    ∃ found l', l.Waits id deadline now (es ++ [.taken id found]) found later l' :=
  ⟨_, _, .finish h rfl fun _ => ⟨hes, hdeadline⟩⟩

/-- A result that is there is found by the first look. -/
theorem waits_of_kept (hkept : (l.takeResult id).1 = some result) :
    l.Waits id deadline now [.taken id (some result)] (some result) now (l.takeResult id).2 :=
  .finish .first (Prod.ext hkept rfl) nofun

/-- If nobody does anything, there are two looks. -/
theorem waits_of_none (hnone : (l.takeResult id).1 = none) (hnow : now ≤ later)
    (hdeadline : deadline ≤ later) :
    let last := (l.takeResult id).2.takeResult id
    l.Waits id deadline now [.taken id none, .taken id last.1] last.1 later last.2 := by
  intro last
  have hfirst : l.takeResult id = (none, (l.takeResult id).2) := Prod.ext hnone rfl
  have hlooks : l.Looks id now [.taken id none] later (l.takeResult id).2 :=
    Looks.first.again hfirst .nil hnow
  exact .finish hlooks rfl fun _ => ⟨List.cons_ne_nil _ _, hdeadline⟩

/-- So there is an end to every wait. -/
theorem exists_waits (id : String) (deadline now : Nat) (l : EventLoop ρ) :
    ∃ es found later l', l.Waits id deadline now es found later l' := by
  cases hfound : (l.takeResult id).1 with
  | some result => exact ⟨_, _, _, _, waits_of_kept hfound⟩
  | none =>
      exact ⟨_, _, _, _,
        waits_of_none hfound (Nat.le_max_left now deadline) (Nat.le_max_right now deadline)⟩

end History

end EventLoop

end Host
end ScriptHost
