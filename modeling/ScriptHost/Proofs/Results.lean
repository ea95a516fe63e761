import ScriptHost.Proofs.Deliveries
import ScriptHost.Proofs.SessionSteps

/-!
# Results are delivered once

The headless loop lies under a bridge, and results come in from the host, from the script function
that a call runs, from any other script function and from fragments. At every moment of all this the
loop has a history, and the history tells what is answered: whether a result is accepted, what is
handed out, and that one id has nothing to do with another.
-/

namespace ScriptHost
namespace Host

open Script Machine

/-! ## What happens under a bridge -/

namespace Bridge

/-- From the first bridge to the second one this happens to results, if the loop is headless. -/
def Deals (b : Bridge) (ds : List Delivery) (b' : Bridge) : Prop :=
  ∀ l, b.native = .headless l → ∃ l', b'.native = .headless l' ∧ l.History ds l'

/-- This has happened to results since the headless loop under the bridge was new. -/
def Past (b : Bridge) (ds : List Delivery) : Prop :=
  ∃ capacity l, b.native = .headless l ∧ (EventLoop.new capacity).History ds l

/-- If anything happens to results, then some come in. -/
def Receives (b b' : Bridge) : Prop :=
  ∃ ds, (∀ d ∈ ds, d.IsAnswer) ∧ b.Deals ds b'

section Deals

variable {b b₁ b₂ b' : Bridge} {ds es : List Delivery}

/-- One thing after the other. -/
theorem Deals.trans (h : b.Deals ds b₁) (h' : b₁.Deals es b₂) : b.Deals (ds ++ es) b₂ := by
  intro l hl
  rcases h l hl with ⟨l₁, hl₁, hhistory⟩
  rcases h' l₁ hl₁ with ⟨l₂, hl₂, hhistory'⟩
  exact ⟨l₂, hl₂, hhistory.trans hhistory'⟩

theorem deals_of_native (h : b'.native = b.native) : b.Deals [] b' :=
  fun l hl => ⟨l, h.trans hl, .nil⟩

/-- The past grows with what is done. -/
theorem Past.deals (h : b.Past ds) (h' : b.Deals es b') : b'.Past (ds ++ es) := by
  rcases h with ⟨capacity, l, hl, hhistory⟩
  rcases h' l hl with ⟨l', hl', hhistory'⟩
  exact ⟨capacity, l', hl', hhistory.trans hhistory'⟩

/-- The loop agrees with its past. -/
theorem Past.agrees (h : b.Past ds) : ∃ l, b.native = .headless l ∧ l.Agrees ds := by
  rcases h with ⟨capacity, l, hl, hhistory⟩
  exact ⟨l, hl, EventLoop.agrees_of_history hhistory⟩

/-- Scripts and loops only add results that come in. -/
theorem Past.receives (h : b.Past ds) (h' : b.Receives b') :
    ∃ es, (∀ d ∈ es, d.IsAnswer) ∧ b'.Past (ds ++ es) := by
  rcases h' with ⟨es, hanswers, hdeals⟩
  exact ⟨es, hanswers, h.deals hdeals⟩

/-! ### The native side -/

/-- An update of the native side is one of its loop. -/
theorem deals_update {f : EventLoop Fragment → EventLoop Fragment}
    (hf : ∀ l : EventLoop Fragment, l.Deals ds (f l)) (h : b'.native = b.native.update f) :
    b.Deals ds b' := by
  intro l hl
  rw [hl] at h
  exact ⟨f l, h, (hf l).history⟩

/-- An attempt that succeeds is one of its loop. -/
theorem deals_attempt {op : EventLoop Fragment → Except NativeError (EventLoop Fragment)}
    {n : Native} (hop : ∀ l l', op l = .ok l' → l.Deals ds l') (hn : b.native.attempt op = .ok n)
    (h : b'.native = n) : b.Deals ds b' := by
  intro l hl
  rw [hl] at hn
  cases hl' : op l with
  | error e =>
      simp only [Native.attempt, hl'] at hn
      cases hn
  | ok l' =>
      simp only [Native.attempt, hl'] at hn
      cases hn
      exact ⟨l', h, (hop l l' hl').history⟩

variable (b)

/-- Names have nothing to do with results. -/
theorem deals_bindNative (x : Binding) (name : String) : b.Deals [] (bindNative name x b).2 := by
  unfold bindNative
  cases hbind : b.native.bind name x with
  | error e => exact deals_of_native rfl
  | ok n =>
      refine deals_attempt (fun l l' hl => ?_) hbind rfl
      unfold EventLoop.bind at hl
      split at hl
      · cases hl
      · cases hl
        exact .aside rfl rfl

theorem deals_unbindNative (name : String) : b.Deals [] (unbindNative name b).2 := by
  unfold unbindNative
  cases hunbind : b.native.unbind name with
  | error e => exact deals_of_native rfl
  | ok n =>
      refine deals_attempt (fun l l' hl => ?_) hunbind (native_releaseAny _ _)
      unfold EventLoop.unbind at hl
      split at hl
      · cases hl
        exact .aside rfl rfl
      · cases hl

theorem deals_postNative (f : Fragment) : b.Deals [] (postNative f b).2 := by
  unfold postNative
  cases hpost : b.native.post f with
  | error e => exact deals_of_native rfl
  | ok n =>
      refine deals_attempt (fun l l' hl => ?_) hpost rfl
      unfold EventLoop.post at hl
      split at hl
      · rcases EventLoop.send_eq_ok.1 hl with ⟨_, rfl⟩
        exact .aside rfl rfl
      · cases hl

theorem deals_takeLoop : b.Deals [] b.takeLoop.2 := by
  unfold takeLoop
  split
  · exact deals_of_native rfl
  · rename_i l hl
    split
    · exact deals_of_native rfl
    · rename_i l' henter
      rcases EventLoop.enter?_eq_some.1 henter with ⟨_, rfl⟩
      intro l₀ hl₀
      rw [hl] at hl₀
      cases hl₀
      exact ⟨_, rfl, EventLoop.Deals.history (.aside rfl rfl)⟩

/-- A record that is taken is no result. -/
theorem deals_takeQueued {f : Fragment} (h : b.takeQueued? = some (f, b')) : b.Deals [] b' := by
  rcases takeQueued?_eq_some.1 h with ⟨l, rest, hl, _, rfl⟩
  intro l₀ hl₀
  rw [hl] at hl₀
  cases hl₀
  exact ⟨_, rfl, EventLoop.Deals.history (.aside rfl rfl)⟩

theorem deals_expectResult (id : String) : b.Deals [.called id] (b.expectResult id) :=
  deals_update (fun _ => .call) rfl

/-- Whoever takes a result has looked for it. -/
theorem deals_takeResult (id : String) :
    b.Deals [.taken id (b.takeResult id).1] (b.takeResult id).2 := by
  intro l hl
  unfold takeResult
  rw [hl]
  exact ⟨_, rfl, EventLoop.Deals.history (.take rfl)⟩

/-- A result that comes in is accepted or refused, and a refusal changes nothing. -/
theorem deals_resolveNative (id : String) (result : CallResult) :
    (∃ b', resolveNative id result b = (.ok (), b') ∧ b.Deals [.accepted id result] b') ∨
      ∃ e, resolveNative id result b = (.error e, b) ∧ b.Deals [.refused id e] b := by
  unfold resolveNative
  cases hresolve : b.native.resolve id result with
  | ok n =>
      exact .inl ⟨_, rfl, deals_attempt (fun l l' => .accept) hresolve rfl⟩
  | error e =>
      refine .inr ⟨e, rfl, fun l hl => ?_⟩
      rw [hl] at hresolve
      cases hl' : l.resolve id result with
      | error e' =>
          simp only [Native.resolve, Native.attempt, hl'] at hresolve
          cases hresolve
          exact ⟨l, hl, EventLoop.Deals.history (.refuse hl')⟩
      | ok l' =>
          simp only [Native.resolve, Native.attempt, hl'] at hresolve
          cases hresolve

end Deals

/-! ### Scripts and loops -/

theorem receives_of_deals {b b' : Bridge} (h : b.Deals [] b') : b.Receives b' :=
  ⟨[], nofun, h⟩

theorem receives_resolveNative (b : Bridge) (id : String) (result : CallResult) :
    b.Receives (resolveNative id result b).2 := by
  rcases b.deals_resolveNative id result with ⟨b', heq, hdeals⟩ | ⟨e, heq, hdeals⟩
  · rw [heq]
    refine ⟨_, fun d hd => ?_, hdeals⟩
    rw [List.mem_singleton.1 hd]
    trivial
  · rw [heq]
    refine ⟨_, fun d hd => ?_, hdeals⟩
    rw [List.mem_singleton.1 hd]
    trivial

/-- Scripts can do nothing to results but answer. -/
theorem allows_receives : Allows Receives where
  trans := by
    rintro b b₁ b₂ ⟨ds, hds, h⟩ ⟨es, hes, h'⟩
    exact ⟨ds ++ es, fun d hd => (List.mem_append.1 hd).elim (hds d) (hes d), h.trans h'⟩
  elsewhere _ hnative := receives_of_deals (deals_of_native hnative)
  bindNative b x name := receives_of_deals (b.deals_bindNative x name)
  unbindNative b name := receives_of_deals (b.deals_unbindNative name)
  postNative b f := receives_of_deals (b.deals_postNative f)
  resolveNative := receives_resolveNative
  terminateNative _ :=
    receives_of_deals (deals_update (f := EventLoop.terminate) (fun _ => .aside rfl rfl) rfl)
  mark _ := receives_of_deals (deals_of_native rfl)
  unmark _ := receives_of_deals (deals_of_native rfl)
  terminate _ :=
    receives_of_deals (deals_update (f := EventLoop.terminate) (fun _ => .aside rfl rfl) rfl)

theorem allowsLoops_receives : AllowsLoops Receives where
  toAllows := allows_receives
  takeLoop b := receives_of_deals b.deals_takeLoop
  takeQueued {b _ _} h := receives_of_deals (b.deals_takeQueued h)
  close _ :=
    receives_of_deals (deals_update (f := EventLoop.close) (fun _ => .aside rfl rfl) rfl)
  leave _ :=
    receives_of_deals (deals_update (f := EventLoop.leave) (fun _ => .aside rfl rfl) rfl)

/-! ## Answers -/

section Answers

variable {b b' : Bridge} {ds ds' : List Delivery} {id : String} {result : CallResult}

/-- It is the loop under the bridge that decides. -/
theorem resolveNative_headless {l : EventLoop Fragment} (h : b.native = .headless l) :
    resolveNative id result b =
      match l.resolve id result with
      | .error e => (.error e, b)
      | .ok l' => (.ok (), { b with native := .headless l' }) := by
  unfold resolveNative
  rw [h, Native.resolve, Native.attempt]
  cases l.resolve id result <;> rfl

/-- A call that is outstanding gets its result. -/
theorem Past.accepts (h : b.Past ds) (houtstanding : Outstanding id ds) :
    ∃ b', resolveNative id result b = (.ok (), b') ∧ b'.Past (ds ++ [.accepted id result]) := by
  rcases h.agrees with ⟨l, hl, hagrees⟩
  have hresolve : l.resolve id result = .ok _ := hagrees.resolve_of_outstanding houtstanding
  have hnative : resolveNative id result b = _ := resolveNative_headless hl
  rw [hresolve] at hnative
  rcases b.deals_resolveNative id result with ⟨b', heq, hdeals⟩ | ⟨e, heq, _⟩
  · exact ⟨b', heq, h.deals hdeals⟩
  · rw [heq] at hnative
    cases hnative

theorem Past.refuses (h : b.Past ds) (hnot : ¬ Outstanding id ds) :
    resolveNative id result b = (.error .notFound, b) ∧ b.Past (ds ++ [.refused id .notFound]) := by
  rcases h.agrees with ⟨l, hl, hagrees⟩
  have hresolve : l.resolve id result = .error .notFound :=
    hagrees.resolve_of_not_outstanding hnot
  have hnative : resolveNative id result b = _ := resolveNative_headless hl
  rw [hresolve] at hnative
  rcases b.deals_resolveNative id result with ⟨b', heq, _⟩ | ⟨e, heq, hdeals⟩
  · rw [heq] at hnative
    cases hnative
  · rw [heq] at hnative
    cases hnative
    exact ⟨heq, h.deals hdeals⟩

/-- The request of the host is that of the native side. -/
theorem returnValue_eq (b : Bridge) (id : String) (status : Int) (payload : String) :
    Request.returnValue id status payload b =
      ((resolveNative id ⟨status, payload⟩ b).1.mapError .native,
        (resolveNative id ⟨status, payload⟩ b).2) := by
  unfold Request.returnValue Request.ofNative
  rcases resolveNative id ⟨status, payload⟩ b with ⟨e | _, b'⟩ <;> rfl

/-- A script that returns a value gets the code of what comes of it. -/
theorem deliver_eq (b : Bridge) (id payload : String) (status : Float) :
    ApiFunction.deliver.run [.text id, .number status, .text payload] b =
      let out := resolveNative id ⟨Number.toInt32 status, payload⟩ b
      (.ok (ApiFunction.codeValue (ApiFunction.outcomeCode (out.1.mapError .native))), out.2) := by
  show ApiFunction.answered (Request.returnValue id (Number.toInt32 status) payload) b = _
  unfold ApiFunction.answered
  rw [returnValue_eq]
  -- a refusal of the native side is not worth a note
  rcases resolveNative id ⟨Number.toInt32 status, payload⟩ b with ⟨e | _, b'⟩ <;> rfl

theorem takeResult_headless {l : EventLoop Fragment} (h : b.native = .headless l) :
    b.takeResult id =
      ((l.takeResult id).1, { b with native := .headless (l.takeResult id).2 }) := by
  unfold takeResult
  rw [h]

/-- What is handed out is the result that nobody has taken. -/
theorem Past.takeResult_eq_some (h : b.Past ds) :
    (b.takeResult id).1 = some result ↔ Untaken id result ds := by
  rcases h.agrees with ⟨l, hl, hagrees⟩
  rw [takeResult_headless hl]
  exact hagrees.results id result

/-- A wait belongs to the history with all that others have done in the meantime. Its last look
finds what is there by then, and a result that has been there from the beginning is found at
once. -/
theorem Past.waits {l l' : EventLoop Fragment} {es : List Delivery} {found : Option CallResult}
    {deadline now later : Nat} (h : b.Past ds) (hl : b.native = .headless l)
    (hwaits : l.Waits id deadline now es found later l') :
    { b with native := .headless l' }.Past (ds ++ es) ∧
      (∃ looks, es = looks ++ [.taken id found] ∧
        ∀ result, found = some result ↔ Untaken id result (ds ++ looks)) ∧
      (∀ result, Untaken id result ds → es = [.taken id (some result)] ∧ later = now) ∧
      (found = none → deadline ≤ later) := by
  rcases hwaits.last_look with ⟨looks, l₁, rfl, hlooks, hlast⟩
  -- the last look is one like any other, at the bridge that it finds
  have hbefore : { b with native := .headless l₁ }.Past (ds ++ looks) := by
    refine h.deals fun l₀ hl₀ => ⟨l₁, rfl, ?_⟩
    rw [hl] at hl₀
    cases hl₀
    exact hlooks
  have hafter :
      { b with native := .headless l' }.Past (ds ++ looks ++ [Delivery.taken id found]) := by
    refine hbefore.deals fun l₀ hl₀ => ⟨l', rfl, ?_⟩
    cases hl₀
    exact (EventLoop.Deals.take hlast).history
  refine ⟨by rwa [← List.append_assoc], ⟨looks, rfl, fun result => ?_⟩,
    fun result huntaken => ?_, ?_⟩
  · have hfound : _ = some result ↔ Untaken id result (ds ++ looks) := hbefore.takeResult_eq_some
    rw [takeResult_headless rfl, hlast] at hfound
    exact hfound
  · have hkept := h.takeResult_eq_some.2 huntaken
    rw [takeResult_headless hl] at hkept
    rcases hwaits.at_once hkept with ⟨hes, _, hlater⟩
    exact ⟨hes, hlater⟩
  · rintro rfl
    exact hwaits.deadline_le

/-- Whatever others do, a wait is over in the end: at once if the result is there, and else at the
deadline or before. -/
theorem Past.ends {l : EventLoop Fragment} (h : b.Past ds) (hl : b.native = .headless l)
    (id : String) (deadline now : Nat) :
    (∃ es found later l', l.Waits id deadline now es found later l') ∧
      (∀ result, Untaken id result ds →
        ∃ l', l.Waits id deadline now [.taken id (some result)] (some result) now l') ∧
      ∀ es later l₁, l.Looks id now es later l₁ → es ≠ [] → deadline ≤ later →
        ∃ found l', l.Waits id deadline now (es ++ [.taken id found]) found later l' := by
  refine ⟨EventLoop.exists_waits id deadline now l, fun result huntaken => ?_,
    fun es later l₁ => EventLoop.Looks.ends⟩
  have hkept := h.takeResult_eq_some.2 huntaken
  rw [takeResult_headless hl] at hkept
  exact ⟨_, EventLoop.waits_of_kept hkept⟩

/-! ### A wait alone -/

/-- Without a deadline there is no look at all. -/
theorem waitResult_of_overflow {clock : Clock} {timeout : Nat}
    (h : clock.last < clock.now + timeout) (b : Bridge) (id : String) :
    b.waitResult clock timeout id = (.error .overflow, b) := by
  have hdeadline : clock.deadline timeout = .error .overflow := if_neg (by omega)
  unfold waitResult
  rw [hdeadline]

/-- If nobody else does anything, what is carried out is a wait. -/
theorem waits_waitResult {clock : Clock} {timeout : Nat} {l : EventLoop Fragment}
    (h : clock.now + timeout ≤ clock.last) (hl : b.native = .headless l) (id : String) :
    ∃ es found later l', l.Waits id (clock.now + timeout) clock.now es found later l' ∧
      b.waitResult clock timeout id = (.ok found, { b with native := .headless l' }) ∧
      (es = [.taken id found] ∨ es = [.taken id none, .taken id found]) := by
  have hdeadline : clock.deadline timeout = .ok (clock.now + timeout) := if_pos h
  have htake : b.takeResult id = _ := takeResult_headless hl
  unfold waitResult
  rw [hdeadline, htake]
  cases hfound : (l.takeResult id).1 with
  | some result =>
      exact ⟨_, _, _, _, EventLoop.waits_of_kept hfound, rfl, .inl rfl⟩
  | none =>
      exact ⟨_, _, _, _, EventLoop.waits_of_none hfound (Nat.le_add_right _ _) (Nat.le_refl _), rfl,
        .inr rfl⟩

/-- A wait of which the caller is told that it is over, with nobody else around. -/
theorem Past.alone (h : b.Past ds) (clock : Clock) (timeout : Nat) (id : String) :
    (clock.last < clock.now + timeout →
      b.waitResult clock timeout id = (.error .overflow, b)) ∧
    (clock.now + timeout ≤ clock.last → ∃ l es found later l', b.native = .headless l ∧
      l.Waits id (clock.now + timeout) clock.now es found later l' ∧
      b.waitResult clock timeout id = (.ok found, { b with native := .headless l' }) ∧
      ∀ result, found = some result ↔ Untaken id result ds) := by
  refine ⟨fun hlast => waitResult_of_overflow hlast b id, fun hlast => ?_⟩
  rcases h.agrees with ⟨l, hl, _⟩
  rcases waits_waitResult hlast hl id with ⟨es, found, later, l', hwaits, heq, hlooks⟩
  refine ⟨l, es, found, later, l', hl, hwaits, heq, fun result => ?_⟩
  rcases (h.waits hl hwaits).2.1 with ⟨looks, hes, hfound⟩
  rw [hfound result]
  -- a first look that finds nothing takes nothing
  rcases hlooks with rfl | rfl
  · cases looks with
    | nil => rw [List.append_nil]
    | cons d rest => simp at hes
  · have hfirst : looks = [.taken id none] := by
      have happend :
          [Delivery.taken id none] ++ [.taken id found] = looks ++ [.taken id found] := hes
      exact (List.append_cancel_right happend).symm
    rw [hfirst, untaken_taken]
    exact and_iff_left fun _ => rfl

/-- What has happened to other ids cannot be told from what is answered. -/
theorem Past.apart (h : b.Past ds) (h' : b'.Past ds') (hsame : about id ds = about id ds') :
    (b.takeResult id).1 = (b'.takeResult id).1 ∧
      ∀ result, (resolveNative id result b).1 = (resolveNative id result b').1 := by
  constructor
  · refine Option.ext fun result => ?_
    rw [h.takeResult_eq_some, h'.takeResult_eq_some, untaken_congr hsame]
  · intro result
    by_cases houtstanding : Outstanding id ds
    · rcases h.accepts houtstanding with ⟨_, heq, _⟩
      rcases h'.accepts ((outstanding_congr hsame).1 houtstanding) with ⟨_, heq', _⟩
      rw [heq, heq']
    · rw [(h.refuses houtstanding).1,
        (h'.refuses fun hnot => houtstanding ((outstanding_congr hsame).2 hnot)).1]

end Answers

end Bridge

/-! ## Operations -/

/-- What an operation may do to results. -/
def Operation.MayDeal : Operation → List Delivery → Prop
  -- a name that is not bound cannot be called
  | callBinding _ id _, es =>
      es = [] ∨ ∃ answers, es = .called id :: answers ∧ ∀ d ∈ answers, d.IsAnswer
  | takeResult id, es => ∃ found, es = [.taken id found]
  -- without a deadline there is no look at all
  | waitResult clock timeout id, es =>
      clock.last < clock.now + timeout ∧ es = [] ∨
        ∃ found, es = [.taken id found] ∨ es = [.taken id none, .taken id found]
  | returnValue id status payload, es =>
      es = [.accepted id ⟨status, payload⟩] ∨ es = [.refused id .notFound]
  | onOwner op, es => op.MayDeal es
  | _, es => ∀ d ∈ es, d.IsAnswer

section Operations

variable {s s' : Session} {ds : List Delivery} {budget : Nat} {name id payload : String}
variable {x : Binding}

/-- A call is outstanding before the script function runs. -/
theorem past_begun (h : s.bridge.Past ds) :
    ((s.bridge.expectResult id).beginCallback x).Past (ds ++ [.called id]) :=
  h.deals (s.bridge.deals_expectResult id)

/-- A foreign call opens its id, and whatever runs within it can only answer. -/
theorem past_callBinding (h : s.bridge.Past ds)
    (hbound : s.bridge.native.boundTo? name = some x) {r : Except NativeError Unit}
    (hcall : Session.callBinding budget name id payload s = some (r, s')) :
    r = .ok () ∧ ∃ answers, (∀ d ∈ answers, d.IsAnswer) ∧
      s'.bridge.Past (ds ++ .called id :: answers) := by
  rw [callBinding_of_bound hbound] at hcall
  rcases Option.map_eq_some_iff.1 hcall with ⟨⟨_, s₁⟩, hcallee, heq⟩
  cases heq
  -- what comes in while the callee runs follows the call in the history
  have hforeign := along_foreignCall Bridge.allows_receives budget _ _ _ _ _ _ hcallee
  have hreceives := Bridge.allows_receives.trans hforeign.1
    (Bridge.allows_receives.endCallback x s₁.bridge)
  rcases (past_begun h).receives hreceives with ⟨answers, hanswers, hpast⟩
  rw [List.append_assoc] at hpast
  exact ⟨rfl, answers, hanswers, hpast⟩

/-- A wait adds its looks to the past. -/
theorem past_waitResult (h : s.bridge.Past ds) (clock : Clock) (timeout : Nat) (id : String) :
    ∃ es, (Operation.waitResult clock timeout id).MayDeal es ∧
      (s.bridge.waitResult clock timeout id).2.Past (ds ++ es) := by
  by_cases hlast : clock.now + timeout ≤ clock.last
  · rcases h.agrees with ⟨l, hl, _⟩
    rcases Bridge.waits_waitResult hlast hl id with ⟨es, found, later, l', hwaits, heq, hlooks⟩
    rw [heq]
    exact ⟨es, .inr ⟨found, hlooks⟩, (h.waits hl hwaits).1⟩
  · have hoverflow : clock.last < clock.now + timeout := Nat.lt_of_not_le hlast
    rw [Bridge.waitResult_of_overflow hoverflow]
    exact ⟨[], .inl ⟨hoverflow, rfl⟩, by rwa [List.append_nil]⟩

/-- The host adds one answer. -/
theorem past_returnValue {status : Int} (h : s.bridge.Past ds)
    (hop : (Operation.returnValue id status payload).perform budget s = some ((), s')) :
    ∃ es, (Operation.returnValue id status payload).MayDeal es ∧ s'.bridge.Past (ds ++ es) := by
  rcases Activity.bind_eq_some hop with ⟨r, s₁, hreturn, heq⟩
  cases heq
  have hbridge : s'.bridge = (Bridge.resolveNative id ⟨status, payload⟩ s.bridge).2 := by
    cases hreturn
    exact congrArg Prod.snd (Bridge.returnValue_eq _ id status payload)
  rw [hbridge]
  by_cases houtstanding : Outstanding id ds
  · rcases h.accepts houtstanding with ⟨b', heq, hpast⟩
    rw [heq]
    exact ⟨_, .inl rfl, hpast⟩
  · rcases h.refuses houtstanding with ⟨heq, hpast⟩
    rw [heq]
    exact ⟨_, .inr rfl, hpast⟩

/-- Whatever is done with a session continues its history. -/
theorem past_perform {op : Operation} (h : s.bridge.Past ds)
    (hop : op.perform budget s = some ((), s')) :
    ∃ es, op.MayDeal es ∧ s'.bridge.Past (ds ++ es) := by
  induction op generalizing s s' with
  | callBinding name id payload =>
      rcases Activity.bind_eq_some hop with ⟨r, s₁, hcall, heq⟩
      cases heq
      cases hbound : s.bridge.native.boundTo? name with
      | none =>
          rw [callBinding_of_unbound hbound] at hcall
          cases hcall
          exact ⟨[], .inl rfl, by rwa [List.append_nil]⟩
      | some x =>
          rcases past_callBinding h hbound hcall with ⟨_, answers, hanswers, hpast⟩
          exact ⟨_, .inr ⟨answers, rfl, hanswers⟩, hpast⟩
  | takeResult id =>
      rcases Activity.bind_eq_some hop with ⟨found, s₁, htake, heq⟩
      cases heq
      cases htake
      exact ⟨_, ⟨_, rfl⟩, h.deals (s.bridge.deals_takeResult id)⟩
  | waitResult clock timeout id =>
      rcases Activity.bind_eq_some hop with ⟨r, s₁, hwait, heq⟩
      cases heq
      cases hwait
      exact past_waitResult h clock timeout id
  | onOwner op ih =>
      rcases Activity.bind_eq_some hop with ⟨_, s₁, hact, hrest⟩
      rcases Activity.bind_eq_some hrest with ⟨_, s₂, hperform, hback⟩
      cases hact
      -- which thread is at work makes no difference to the loop
      rcases ih (s := { s with bridge.thread := .owner }) h hperform with ⟨es, hes, hpast⟩
      rcases Activity.bind_eq_some hback with ⟨_, s₃, hact, heq⟩
      cases hact
      cases heq
      exact ⟨es, hes, hpast⟩
  | returnValue id status payload => exact past_returnValue h hop
  | _ =>
      -- neither a call nor a look
      refine h.receives (comes_plain Bridge.allowsLoops_receives budget ?_ s () s' hop)
      trivial

end Operations

/-! ## The law -/

/-- What is answered at a bridge with such a history. -/
structure Bridge.DeliversOnce (b : Bridge) (ds : List Delivery) : Prop where
  accepts {id : String} {result : CallResult} : Outstanding id ds →
    ∃ b', resolveNative id result b = (.ok (), b') ∧ b'.Past (ds ++ [.accepted id result])
  refuses {id : String} {result : CallResult} : ¬ Outstanding id ds →
    resolveNative id result b = (.error .notFound, b) ∧ b.Past (ds ++ [.refused id .notFound])
  -- whoever returns a result is told what has become of it
  hosts (id : String) (status : Int) (payload : String) :
    Request.returnValue id status payload b =
      ((resolveNative id ⟨status, payload⟩ b).1.mapError .native,
        (resolveNative id ⟨status, payload⟩ b).2)
  scripts (id payload : String) (status : Float) :
    ApiFunction.deliver.run [.text id, .number status, .text payload] b =
      let out := resolveNative id ⟨Number.toInt32 status, payload⟩ b
      (.ok (ApiFunction.codeValue (ApiFunction.outcomeCode (out.1.mapError .native))), out.2)
  takes (id : String) : ∃ found b', b.takeResult id = (found, b') ∧
    (∀ result, found = some result ↔ Untaken id result ds) ∧ b'.Past (ds ++ [.taken id found])
  -- whatever others do in the meantime
  waits {l l' : EventLoop Fragment} {id : String} {es : List Delivery}
    {found : Option CallResult} {deadline now later : Nat} : b.native = .headless l →
      l.Waits id deadline now es found later l' →
      { b with native := .headless l' }.Past (ds ++ es) ∧
      (∃ looks, es = looks ++ [.taken id found] ∧
        ∀ result, found = some result ↔ Untaken id result (ds ++ looks)) ∧
      (∀ result, Untaken id result ds → es = [.taken id (some result)] ∧ later = now) ∧
      (found = none → deadline ≤ later)
  ends {l : EventLoop Fragment} : b.native = .headless l → ∀ (id : String) (deadline now : Nat),
      (∃ es found later l', l.Waits id deadline now es found later l') ∧
      (∀ result, Untaken id result ds →
        ∃ l', l.Waits id deadline now [.taken id (some result)] (some result) now l') ∧
      ∀ es later l₁, l.Looks id now es later l₁ → es ≠ [] → deadline ≤ later →
        ∃ found l', l.Waits id deadline now (es ++ [.taken id found]) found later l'
  -- nobody else does anything
  alone (clock : Clock) (timeout : Nat) (id : String) :
      (clock.last < clock.now + timeout →
        b.waitResult clock timeout id = (.error .overflow, b)) ∧
      (clock.now + timeout ≤ clock.last → ∃ l es found later l', b.native = .headless l ∧
        l.Waits id (clock.now + timeout) clock.now es found later l' ∧
        b.waitResult clock timeout id = (.ok found, { b with native := .headless l' }) ∧
        ∀ result, found = some result ↔ Untaken id result ds)
  binds (x : Binding) (name : String) : (bindNative name x b).2.Past ds
  unbinds (name : String) : (unbindNative name b).2.Past ds
  -- at any moment of a script
  runs {vm : Vm Builtin} {m : Hosted Builtin Bridge} : Execution Builtin.run ⟨vm, b⟩ m →
    ∃ es, (∀ d ∈ es, d.IsAnswer) ∧ m.host.Past (ds ++ es)
  fits {earlier later : List Delivery} {d : Delivery} : ds = earlier ++ d :: later → d.Fits earlier
  once {earlier between later : List Delivery} {id : String} {first second : CallResult} :
    ds = earlier ++ .taken id (some first) :: between ++ .taken id (some second) :: later →
      .accepted id second ∈ between
  apart {id : String} {ds' : List Delivery} {b' : Bridge} : b'.Past ds' →
    about id ds = about id ds' → (b.takeResult id).1 = (b'.takeResult id).1 ∧
      ∀ result, (resolveNative id result b).1 = (resolveNative id result b').1

/-- The same for a session, where names are called and other operations are under way. -/
structure Session.DeliversOnce (s : Session) (ds : List Delivery) : Prop where
  bridge : s.bridge.DeliversOnce ds
  unbound {budget : Nat} {name id payload : String} : s.bridge.native.boundTo? name = none →
    callBinding budget name id payload s = some (.error .notFound, s)
  -- the callee may itself return the result that its call waits for
  begun {budget : Nat} {name id payload : String} {x : Binding} :
    s.bridge.native.boundTo? name = some x →
      ((s.bridge.expectResult id).beginCallback x).Past (ds ++ [.called id]) ∧
      callBinding budget name id payload s =
        (foreignCall budget (some x) (some id) (some payload)
          { s with bridge := (s.bridge.expectResult id).beginCallback x }).map fun r =>
            (.ok (), { r.2 with bridge := r.2.bridge.endCallback x })
  called {budget : Nat} {name id payload : String} {x : Binding} {r : Except NativeError Unit}
    {s' : Session} : s.bridge.native.boundTo? name = some x →
      callBinding budget name id payload s = some (r, s') →
      r = .ok () ∧ ∃ answers, (∀ d ∈ answers, d.IsAnswer) ∧
        s'.bridge.Past (ds ++ .called id :: answers)
  operations {budget : Nat} {op : Operation} {s' : Session} :
    op.perform budget s = some ((), s') → ∃ es, op.MayDeal es ∧ s'.bridge.Past (ds ++ es)
  reached {s' : Session} : s.Reached s' → ∃ es, s'.bridge.Past (ds ++ es)

/-- A bridge with a past answers as the past tells. -/
theorem Bridge.Past.deliversOnce {b : Bridge} {ds : List Delivery} (h : b.Past ds) :
    b.DeliversOnce ds where
  accepts := h.accepts
  refuses := h.refuses
  hosts := returnValue_eq b
  scripts := deliver_eq b
  takes id := ⟨_, _, rfl, fun _ => h.takeResult_eq_some, h.deals (b.deals_takeResult id)⟩
  waits := h.waits
  ends := h.ends
  alone := h.alone
  binds x name := by
    have hpast := h.deals (b.deals_bindNative x name)
    rwa [List.append_nil] at hpast
  unbinds name := by
    have hpast := h.deals (b.deals_unbindNative name)
    rwa [List.append_nil] at hpast
  runs hexecution := h.receives (execution_leads allows_receives.path hexecution)
  fits hds := by
    rcases h with ⟨capacity, l, hl, hhistory⟩
    exact EventLoop.fits_of_history hhistory hds
  once hds := by
    rcases h with ⟨capacity, l, hl, hhistory⟩
    exact accepted_between (EventLoop.fits_of_history hhistory hds)
  apart := h.apart

/-- Every reached session has a past that extends the one before. -/
theorem Session.Reached.past {s s' : Session} {ds : List Delivery} (h : s.Reached s')
    (hs : s.bridge.Past ds) : ∃ es, s'.bridge.Past (ds ++ es) := by
  induction h with
  | refl => exact ⟨[], by rwa [List.append_nil]⟩
  | step _ hperform ih =>
      rcases ih with ⟨es, hpast⟩
      rcases past_perform hpast hperform with ⟨es', _, hpast'⟩
      exact ⟨es ++ es', by rwa [← List.append_assoc]⟩

/-- A session with a past answers as the past tells. -/
theorem Session.deliversOnce {s : Session} {ds : List Delivery} (h : s.bridge.Past ds) :
    s.DeliversOnce ds where
  bridge := h.deliversOnce
  unbound := callBinding_of_unbound
  begun hbound := ⟨past_begun h, callBinding_of_bound hbound⟩
  called hbound hcall := past_callBinding h hbound hcall
  operations := past_perform h
  reached hreached := hreached.past h

/-- A session that begins with a new headless loop has such a history whatever is done with it.
And whatever has happened to results since a loop was new, from whichever side and while whatever
was under way: a result is accepted if and only if a call with its id has begun since the last one
was accepted, and is not found otherwise; whoever looks or waits for a result gets the last one that
was accepted for the id if nobody has taken it, and nothing otherwise; and what has happened under
other ids makes no difference. A wait ends at once if the result is there, and with nothing only at
its deadline; whatever others do, the look that comes then is the last one. Each operation, each
step of a script and each call of a name continues the history, and a call waits for its result
before its callee runs. -/
theorem results_are_delivered_once {start : Session} {capacity : Nat}
    (hstart : start.bridge.native = .headless (.new capacity)) :
    (∀ s, start.Reached s → ∃ ds, s.bridge.Past ds) ∧
    ∀ (s : Session) (ds : List Delivery), s.bridge.Past ds → s.DeliversOnce ds := by
  refine ⟨fun s hs => ?_, fun s ds => Session.deliversOnce⟩
  have hnew : start.bridge.Past [] := ⟨capacity, .new capacity, hstart, .nil⟩
  exact hs.past hnew

/-- A callee that returns the result of its own call, which is then taken once. -/
theorem callee_returns_its_result :
    ∃ (start s : Session) (x : Binding) (status : Float) (b₁ b₂ b₃ : Bridge),
      start.bridge.native = .headless (.new 4) ∧ start.Reached s ∧
      s.bridge.Past [] ∧ s.bridge.native.boundTo? "f" = some x ∧
      b₁ = (s.bridge.expectResult "7").beginCallback x ∧
      ApiFunction.deliver.run [.text "7", .number status, .text "done"] b₁ =
        (.ok (ApiFunction.codeValue 0), b₂) ∧
      b₂.takeResult "7" = (some ⟨Number.toInt32 status, "done"⟩, b₃) ∧
      (b₃.takeResult "7").1 = none ∧
      Bridge.resolveNative "7" ⟨1, "again"⟩ b₃ = (.error .notFound, b₃) := by
  let x : Binding := ⟨0, "g"⟩
  let l : EventLoop Fragment := EventLoop.new 4
  let start : Session := ⟨some (withApi (Vm.new {})), { native := .headless l }, false⟩
  let s : Session := { start with bridge := (Request.bind "f" "g" start.bridge).2 }
  let result : CallResult := ⟨Number.toInt32 1, "done"⟩
  let b₁ := (s.bridge.expectResult "7").beginCallback x
  have hbind : (Operation.bind "f" "g").perform 0 start = some ((), s) := rfl
  have hs : s.bridge.Past [] := ⟨4, _, rfl, EventLoop.Deals.history (.aside rfl rfl)⟩
  have hnew : start.bridge.native = .headless (.new 4) := rfl
  have hlaw := (results_are_delivered_once hnew).2
  have hpast₁ : b₁.Past ([] ++ [.called "7"]) := (@(hlaw s [] hs).begun 0 "f" "7" "p" x rfl).1
  -- the callee returns the result while its call is under way
  have hlaw₁ := hlaw { s with bridge := b₁ } _ hpast₁
  rcases hlaw₁.bridge.accepts (outstanding_called.2 (.inl rfl)) with ⟨b₂, hresolve, hpast₂⟩
  have hdeliver := hlaw₁.bridge.scripts "7" "done" 1
  rw [hresolve] at hdeliver
  have huntaken : Untaken "7" result ([] ++ [.called "7"] ++ [.accepted "7" result]) :=
    untaken_accepted.2 (.inl ⟨rfl, rfl⟩)
  rcases hpast₂.deliversOnce.takes "7" with ⟨found, b₃, htake, hfound, hpast₃⟩
  rw [(hfound result).2 huntaken] at htake hpast₃
  refine ⟨start, s, x, 1, b₁, b₂, b₃, rfl, Session.Reached.refl.step hbind, hs, rfl, rfl, hdeliver,
    htake, ?_, ?_⟩
  · rcases hpast₃.deliversOnce.takes "7" with ⟨again, _, hagain, hnone, _⟩
    rw [hagain]
    refine Option.eq_none_iff_forall_ne_some.2 fun other hother => ?_
    cases (untaken_taken.1 ((hnone other).1 hother)).2 rfl
  · refine (hpast₃.deliversOnce.refuses ?_).1
    rw [outstanding_taken, outstanding_accepted]
    rintro ⟨_, hne⟩
    exact hne rfl

end Host
end ScriptHost
