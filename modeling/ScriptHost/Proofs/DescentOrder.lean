import ScriptHost.Proofs.Descent
import ScriptHost.Proofs.NestingLimits
import ScriptHost.Proofs.Prediction

/-!
# The order of calls

Calls that one routine makes follow one another over the tokens, and the first one that fails is the
last one made. The laws of a single call speak of the calls it makes directly; each way of putting
routines together keeps them. Along with them goes the outcome: what a scan comes to is what a
phrase comes to before the same tokens, so that progress is read off the type of the phrase.
-/

namespace ScriptHost
namespace Script
namespace Descent

open ScriptHost.Script.Parser (Tokens Stop Result outcome)

variable {ts : Tokens} {limit : Nat} {α β : Type}

/-! ## Laws of calls -/

/-- Calls made between two positions, one after another. What makes a call that fails does so for
the same reason, and makes no other. -/
structure Course (first last : Nat) (failure : Option Stop) (calls : List Call) : Prop where
  between : ∀ call ∈ calls, first ≤ call.entry.pos ∧ call.exit.pos ≤ last
  inTurn : calls.Pairwise fun earlier later =>
    earlier.failure = none ∧ earlier.exit.pos ≤ later.entry.pos
  fails : ∀ call ∈ calls, ∀ s, call.failure = some s → failure = some s

/-- What holds of every call that is made: it respects the limit, leaves the depth as it was, and
moves forward. -/
structure Call.Sound (ts : Tokens) (limit : Nat) (call : Call) : Prop where
  depth_le : call.entry.depth ≤ limit
  depth_eq : call.exit.depth = call.entry.depth
  forward : call.entry.pos ≤ call.exit.pos
  advances : call.failure = none → call.entry.pos < call.exit.pos
  within : call.exit.pos ≤ ts.length
  course : Course call.entry.pos call.exit.pos call.failure call.calls
  -- the opening brace has been stepped over
  inside : call.routine = .blockBody → ∀ inner ∈ call.calls, call.entry.pos < inner.entry.pos

/-- Reading from the cursor keeps to the tokens and to the levels, and so do all calls. -/
structure Orderly (ts : Tokens) (limit : Nat) (c : Cursor) (ran : Ran α) : Prop where
  depth_eq : ran.cursor.depth = c.depth
  inFunction_eq : ran.cursor.inFunction = c.inFunction
  forward : c.pos ≤ ran.cursor.pos
  within : ran.cursor.pos ≤ ts.length
  course : Course c.pos ran.cursor.pos ran.failure ran.calls
  made : ∀ k call, Made ran.calls k call →
    call.entry.depth = c.depth + k ∧ call.Sound ts limit

/-- From the cursor `c` on, the cursor has moved without opening or closing levels. -/
structure Cursor.After (c' c : Cursor) : Prop where
  depth_eq : c'.depth = c.depth
  inFunction_eq : c'.inFunction = c.inFunction
  forward : c.pos ≤ c'.pos

/-- These tokens are left at the cursor. -/
structure Cursor.Before (ts : Tokens) (c : Cursor) (rest : Tokens) : Prop where
  within : c.pos ≤ ts.length
  drop_eq : ts.drop c.pos = rest

/-! ## Cursors -/

section Cursors

variable {c c' c'' : Cursor} {t : Located} {rest : Tokens}

theorem Cursor.After.refl (c : Cursor) : c.After c :=
  ⟨rfl, rfl, Nat.le_refl _⟩

/-- Later than what is later. -/
theorem Cursor.After.trans (h' : c''.After c') (h : c'.After c) : c''.After c :=
  ⟨h'.depth_eq.trans h.depth_eq, h'.inFunction_eq.trans h.inFunction_eq,
    Nat.le_trans h.forward h'.forward⟩

theorem Cursor.after_next (c : Cursor) : c.next.After c :=
  ⟨rfl, rfl, Nat.le_succ _⟩

/-- An orderly scan does not step back. -/
theorem Orderly.after {ran : Ran α} (h : Orderly ts limit c ran) : ran.cursor.After c :=
  ⟨h.depth_eq, h.inFunction_eq, h.forward⟩

theorem Orderly.before {ran : Ran α} (h : Orderly ts limit c ran) :
    ran.cursor.Before ts (ts.drop ran.cursor.pos) :=
  ⟨h.within, rfl⟩

namespace Cursor.Before

/-- What is left and what has been taken are all of the tokens. -/
theorem length_add (h : c.Before ts rest) : rest.length + c.pos = ts.length := by
  have hwithin := h.within
  rw [← h.drop_eq, List.length_drop]
  omega

theorem next (h : c.Before ts (t :: rest)) : c.next.Before ts rest := by
  constructor
  · have hlength := h.length_add
    rw [List.length_cons] at hlength
    show c.pos + 1 ≤ ts.length
    omega
  · show ts.drop (c.pos + 1) = rest
    rw [← List.tail_drop, h.drop_eq]
    rfl

theorem deeper (h : c.Before ts rest) : c.deeper.Before ts rest :=
  ⟨h.within, h.drop_eq⟩

theorem getElem? (h : c.Before ts rest) (k : Nat) : ts[c.pos + k]? = rest[k]? := by
  rw [← h.drop_eq, List.getElem?_drop]

/-- With fewer tokens left, the cursor is further on. -/
theorem pos_lt {rest' : Tokens} (h : c.Before ts rest) (h' : c'.Before ts rest')
    (hlt : rest'.length < rest.length) : c.pos < c'.pos := by
  have hlength := h.length_add
  have hlength' := h'.length_add
  omega

end Cursor.Before

end Cursors

/-! ## Calls -/

section Calls

variable {a b calls : List Call} {call : Call} {k : Nat}

theorem not_made_nil : ¬Made [] k call := by
  intro h
  cases h with
  | here hmem => cases hmem
  | inside hmem => cases hmem

/-- What is made by one or the other. -/
theorem made_append : Made (a ++ b) k call → Made a k call ∨ Made b k call := by
  intro h
  cases h with
  | here hmem => exact (List.mem_append.1 hmem).imp .here .here
  | inside hmem hinner =>
      exact (List.mem_append.1 hmem).imp (.inside · hinner) (.inside · hinner)

/-- What one call has made is this call, or has been made in its course. -/
theorem made_singleton {outer : Call} (h : Made [outer] k call) :
    (k = 0 ∧ call = outer) ∨ ∃ k', k = outer.levels + k' ∧ Made outer.calls k' call := by
  cases h with
  | here hmem => exact .inl ⟨rfl, List.mem_singleton.1 hmem⟩
  | inside hmem hinner =>
      cases List.mem_singleton.1 hmem
      exact .inr ⟨_, rfl, hinner⟩

theorem course_nil (first last : Nat) (failure : Option Stop) : Course first last failure [] :=
  ⟨nofun, .nil, nofun⟩

/-- Calls of which none has failed, and those made behind them. -/
theorem Course.append {first middle last : Nat} {failure : Option Stop}
    (ha : Course first middle none a) (hb : Course middle last failure b)
    (hfirst : first ≤ middle) (hlast : middle ≤ last) : Course first last failure (a ++ b) := by
  -- The calls of the first part have all succeeded, or there would be no second part.
  have hnone {call : Call} (hmem : call ∈ a) : call.failure = none := by
    cases hfailure : call.failure with
    | none => rfl
    | some s => cases ha.fails call hmem s hfailure
  refine ⟨fun call hmem => ?_, List.pairwise_append.2 ⟨ha.inTurn, hb.inTurn, ?_⟩,
    fun call hmem s hs => ?_⟩
  · rcases List.mem_append.1 hmem with hmem | hmem
    · have h := ha.between call hmem
      exact ⟨h.1, Nat.le_trans h.2 hlast⟩
    · have h := hb.between call hmem
      exact ⟨Nat.le_trans hfirst h.1, h.2⟩
  · intro earlier hearlier later hlater
    exact ⟨hnone hearlier,
      Nat.le_trans (ha.between earlier hearlier).2 (hb.between later hlater).1⟩
  · rcases List.mem_append.1 hmem with hmem | hmem
    · cases (hnone hmem).symm.trans hs
    · exact hb.fails call hmem s hs

end Calls

/-! ## Orderly reading -/

section Orders

variable {c c' : Cursor} {rest : Tokens}

/-- Reading without a call. -/
theorem orderly_quiet (hafter : c'.After c) (hbefore : c'.Before ts rest)
    (result : Except Stop α) : Orderly ts limit c ⟨result, c', []⟩ :=
  { depth_eq := hafter.depth_eq
    inFunction_eq := hafter.inFunction_eq
    forward := hafter.forward
    within := hbefore.within
    course := course_nil ..
    made := fun _ _ h => absurd h not_made_nil }

/-- One scan after the other, where the first has not failed. -/
theorem Orderly.append {a : α} {calls : List Call} {ran : Ran β}
    (h : Orderly ts limit c ⟨.ok a, c', calls⟩) (hran : Orderly ts limit c' ran) :
    Orderly ts limit c { ran with calls := calls ++ ran.calls } :=
  { depth_eq := hran.depth_eq.trans h.depth_eq
    inFunction_eq := hran.inFunction_eq.trans h.inFunction_eq
    forward := Nat.le_trans h.forward hran.forward
    within := hran.within
    course := h.course.append hran.course h.forward hran.forward
    made := by
      intro k call hmade
      rcases made_append hmade with hmade | hmade
      · exact h.made k call hmade
      · have hcall := hran.made k call hmade
        have hdepth : c'.depth = c.depth := h.depth_eq
        exact ⟨hdepth ▸ hcall.1, hcall.2⟩ }

/-- Reading that is one call. -/
theorem orderly_logged {r : Routine} (ran : Ran α) (hafter : ran.cursor.After c)
    (hsound : Call.Sound ts limit ⟨r, c, ran.cursor, ran.failure, ran.calls⟩)
    (hmade : ∀ k call, Made ran.calls k call →
      call.entry.depth = c.depth +
        ((⟨r, c, ran.cursor, ran.failure, ran.calls⟩ : Call).levels + k) ∧
      call.Sound ts limit) :
    Orderly ts limit c
      { ran with calls := [⟨r, c, ran.cursor, ran.failure, ran.calls⟩] } :=
  -- From outside there is one call, which covers all the calls that were made in it.
  { depth_eq := hafter.depth_eq
    inFunction_eq := hafter.inFunction_eq
    forward := hafter.forward
    within := hsound.within
    course :=
      { between := by
          intro call hmem
          cases List.mem_singleton.1 hmem
          exact ⟨Nat.le_refl _, Nat.le_refl _⟩
        inTurn := List.pairwise_singleton ..
        fails := by
          intro call hmem s hs
          cases List.mem_singleton.1 hmem
          exact hs }
    made := by
      intro k call h
      rcases made_singleton h with ⟨rfl, rfl⟩ | ⟨k', rfl, hinner⟩
      · exact ⟨rfl, hsound⟩
      · exact hmade k' call hinner }

/-- Reading under another flag. -/
theorem Orderly.insideFunction {ran : Ran α} (h : Orderly ts limit (c.within true) ran)
    (houtside : c.inFunction = false) :
    Orderly ts limit c { ran with cursor := ran.cursor.within false } :=
  { depth_eq := h.depth_eq
    inFunction_eq := houtside.symm
    forward := h.forward
    within := h.within
    course := h.course
    made := h.made }

end Orders

/-! ## Outcomes -/

/-- Reading from the cursor ends, in good order and with this outcome. -/
def Reads (ts : Tokens) (limit : Nat) (x : Scan α) (c : Cursor)
    (expected : Except Stop (α × Tokens)) : Prop :=
  ∃ ran, x c = some ran ∧ Orderly ts limit c ran ∧
    expected = ran.result.map fun a => (a, ts.drop ran.cursor.pos)

section Rules

variable {c c' : Cursor} {rest : Tokens} {x : Scan α} {f : α → Scan β}
  {e : Except Stop (α × Tokens)} {e' : Except Stop (β × Tokens)}

/-- What takes nothing reads nothing. -/
theorem reads_pure (h : c.Before ts rest) (a : α) :
    Reads ts limit (pure a : Scan α) c (.ok (a, rest)) := by
  refine ⟨⟨.ok a, c, []⟩, rfl, orderly_quiet (.refl c) h _, ?_⟩
  rw [← h.drop_eq]
  rfl

/-- A refusal stops where it stands. -/
theorem reads_refuse (h : c.Before ts rest) (fault : SyntaxFault) :
    Reads ts limit (refuse ts fault : Scan α) c (.error ⟨fault, rest⟩) := by
  refine ⟨⟨.error ⟨fault, ts.drop c.pos⟩, c, []⟩, rfl, orderly_quiet (.refl c) h _, ?_⟩
  rw [← h.drop_eq]
  rfl

theorem reads_refuseAt {rest' : Tokens} (h : c.Before ts rest) (h' : c'.Before ts rest') :
    Reads ts limit (refuseAt ts c.pos : Scan α) c' (.error ⟨.noOperand, rest⟩) := by
  refine ⟨⟨.error ⟨.noOperand, ts.drop c.pos⟩, c', []⟩, rfl, orderly_quiet (.refl c') h' _, ?_⟩
  rw [← h.drop_eq]
  rfl

/-- The body of a function is read as such, and then it is over. -/
theorem reads_insideFunction (houtside : c.inFunction = false)
    (hx : Reads ts limit x (c.within true) e) : Reads ts limit (insideFunction x) c e := by
  rcases hx with ⟨ran, hran, horder, hresult⟩
  refine ⟨{ ran with cursor := ran.cursor.within false }, ?_, horder.insideFunction houtside,
    hresult⟩
  rw [insideFunction, hran]
  rfl

/-- If the first part reads what is expected, and so does what follows on it, then both do. -/
theorem Reads.seq (hx : Reads ts limit x c e) (next : α × Tokens → Except Stop (β × Tokens))
    (hf : ∀ a c' rest, e = .ok (a, rest) → c'.After c → c'.Before ts rest →
      Reads ts limit (f a) c' (next (a, rest))) :
    Reads ts limit (x >>= f) c (e.bind next) := by
  rcases hx with ⟨⟨result, c', calls⟩, hran, horder, rfl⟩
  cases result with
  | error s =>
      refine ⟨⟨.error s, c', calls⟩, bind_of_error hran, ?_, rfl⟩
      exact ⟨horder.depth_eq, horder.inFunction_eq, horder.forward, horder.within,
        horder.course, horder.made⟩
  | ok a =>
      rcases hf a c' _ rfl horder.after horder.before with ⟨ran, hran', horder', hresult⟩
      refine ⟨{ ran with calls := calls ++ ran.calls }, ?_, horder.append horder', hresult⟩
      rw [bind_of_ok hran, hran']
      rfl

/-- A part that fails ends the whole. -/
theorem Reads.fails {s : Stop} (hx : Reads ts limit x c (.error s)) :
    Reads ts limit (x >>= f) c (.error s) :=
  hx.seq (fun _ => .error s) fun _ _ _ heq => by cases heq

/-- Goes on as a phrase does, with the tokens that the first part leaves. -/
theorem Reads.andThen {m : Nat} {r : Result α m} (hx : Reads ts limit x c (outcome r))
    {next : α → (ts : Tokens) → ts.length < m → Result β m}
    (hf : ∀ a c' rest (hlt : rest.length < m), c'.After c → c'.Before ts rest →
      Reads ts limit (f a) c' (outcome (next a rest hlt))) :
    Reads ts limit (x >>= f) c (outcome (Parser.andThen r next)) := by
  cases r with
  | error s => exact hx.fails
  | ok first =>
      refine hx.seq (fun _ => outcome (next first.tree first.rest first.shorter)) ?_
      intro a c' rest heq hafter hbefore
      cases heq
      exact hf _ c' _ first.shorter hafter hbefore

/-- Another tree for the same tokens. -/
theorem Reads.map (hx : Reads ts limit x c e) (g : α → β) :
    Reads ts limit (x >>= fun a => pure (g a)) c (e.map fun read => (g read.1, read.2)) := by
  have hbind : (e.map fun read => (g read.1, read.2)) =
      e.bind fun read => .ok (g read.1, read.2) := by
    cases e <;> rfl
  rw [hbind]
  exact hx.seq _ fun a c' rest _ _ hbefore => reads_pure hbefore (g a)

/-- A step that makes no call. -/
theorem Reads.step {a : α} (hx : x c = some ⟨.ok a, c', []⟩) (hafter : c'.After c)
    (hf : Reads ts limit (f a) c' e') : Reads ts limit (x >>= f) c e' := by
  rcases hf with ⟨ran, hran, horder, hresult⟩
  have hbefore : c'.Before ts (ts.drop c'.pos) := ⟨Nat.le_trans horder.forward horder.within, rfl⟩
  have hfirst : Orderly ts limit c ⟨.ok a, c', []⟩ := orderly_quiet hafter hbefore _
  refine ⟨ran, ?_, hfirst.append horder, hresult⟩
  rw [bind_of_ok hx, hran]
  rfl

end Rules

/-! ## Calls of routines -/

section Routines

variable {c : Cursor} {rest : Tokens} {x : Scan α} {r : Routine} {p : Result α rest.length}

/-- What succeeds like a phrase has got further. -/
theorem pos_lt_of_outcome {ran : Ran α} (hbefore : c.Before ts rest)
    (hwithin : ran.cursor.pos ≤ ts.length)
    (hresult : outcome p = ran.result.map fun a => (a, ts.drop ran.cursor.pos))
    (hnone : ran.failure = none) : c.pos < ran.cursor.pos := by
  rcases ran with ⟨result, c', calls⟩
  cases result with
  | error s => cases hnone
  | ok a => exact hbefore.pos_lt ⟨hwithin, rfl⟩ (Parser.length_lt_of_outcome hresult)

/-- The routine neither opens a level nor begins with a brace. -/
def Routine.isPlain : Routine → Bool
  | .nested | .blockBody => false
  | _ => true

/-- A routine that is noted obeys the laws of a call. -/
theorem reads_logged_inside (hbefore : c.Before ts rest) (hle : c.depth ≤ limit)
    (hx : Reads ts limit x c (outcome p)) (hlevels : r ≠ .nested)
    (hinside : r = .blockBody → ∀ ran, x c = some ran →
      ∀ inner ∈ ran.calls, c.pos < inner.entry.pos) :
    Reads ts limit (logged r x) c (outcome p) := by
  rcases hx with ⟨ran, hran, horder, hresult⟩
  have hzero : (⟨r, c, ran.cursor, ran.failure, ran.calls⟩ : Call).levels = 0 := by
    cases r with
    | nested => exact absurd rfl hlevels
    | _ => rfl
  have hsound : Call.Sound ts limit ⟨r, c, ran.cursor, ran.failure, ran.calls⟩ :=
    { depth_le := hle
      depth_eq := horder.depth_eq
      forward := horder.forward
      advances := pos_lt_of_outcome hbefore horder.within hresult
      within := horder.within
      course := horder.course
      inside := fun hr => hinside hr ran hran }
  refine ⟨_, logged_of_some ran hran,
    orderly_logged ran horder.after hsound fun k call hmade => ?_, hresult⟩
  rw [hzero, Nat.zero_add]
  exact horder.made k call hmade

theorem reads_logged (hbefore : c.Before ts rest) (hle : c.depth ≤ limit)
    (hx : Reads ts limit x c (outcome p)) (hplain : r.isPlain = true) :
    Reads ts limit (logged r x) c (outcome p) := by
  refine reads_logged_inside hbefore hle hx ?_ fun hr => ?_
  · rintro rfl
    cases hplain
  · rw [hr] at hplain
    cases hplain

/-- One level deeper there is what the phrase says, unless no level is left. -/
theorem reads_nested (hbefore : c.Before ts rest) (hle : c.depth ≤ limit)
    (hdeep : c.depth = limit → p = Parser.tooDeep limit rest)
    (hx : c.depth < limit → Reads ts limit x c.deeper (outcome p)) :
    Reads ts limit (nested ts limit x) c (outcome p) := by
  rcases Nat.eq_or_lt_of_le hle with hlimit | hlimit
  · have hsound (s : Stop) : Call.Sound ts limit ⟨.nested, c, c, some s, []⟩ :=
      { depth_le := hle
        depth_eq := rfl
        forward := Nat.le_refl _
        advances := nofun
        within := hbefore.within
        course := course_nil ..
        inside := nofun }
    refine ⟨_, nested_of_le ts (Nat.le_of_eq hlimit.symm),
      orderly_logged ⟨.error ⟨.tooDeep limit, ts.drop c.pos⟩, c, []⟩ (.refl c)
        (hsound _) fun _ _ h => absurd h not_made_nil, ?_⟩
    rw [hdeep hlimit, ← hbefore.drop_eq]
    rfl
  · rcases hx hlimit with ⟨ran, hran, horder, hresult⟩
    have hdepth : ran.cursor.shallower.depth = c.depth := by
      show ran.cursor.depth - 1 = c.depth
      rw [horder.depth_eq]
      rfl
    have hsound :
        Call.Sound ts limit ⟨.nested, c, ran.cursor.shallower, ran.failure, ran.calls⟩ :=
      { depth_le := hle
        depth_eq := hdepth
        forward := horder.forward
        advances := pos_lt_of_outcome hbefore horder.within hresult
        within := horder.within
        course := horder.course
        inside := nofun }
    refine ⟨_, nested_of_lt ts hlimit hran,
      orderly_logged ⟨ran.result, ran.cursor.shallower, ran.calls⟩
        ⟨hdepth, horder.inFunction_eq, horder.forward⟩ hsound fun k call hmade => ?_, hresult⟩
    -- the level that is opened here is still open there
    have hcall := horder.made k call hmade
    exact ⟨hcall.1.trans (Nat.add_assoc c.depth 1 k), hcall.2⟩

end Routines

end Descent
end Script
end ScriptHost
