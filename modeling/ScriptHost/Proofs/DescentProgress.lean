import ScriptHost.Proofs.DescentPhrases

/-!
# The descent makes progress

Since a phrase leaves fewer tokens than it gets, a call that succeeds moves the cursor on. Calls
follow one another, so two turns of one loop never begin at the same token. A failure goes up
through all calls around it.
-/

namespace ScriptHost
namespace Script
namespace Descent

open ScriptHost.Script.Parser (Tokens Stop)

variable {ts : Tokens} {limit : Nat} {α : Type}

/-! ## Turns -/

/-- Turns of a loop that begin one behind the other, no more of them than there are tokens. -/
structure OncePerToken (ts : Tokens) (calls : List Call) : Prop where
  forward : (turns calls).Pairwise fun earlier later => earlier.entry.pos < later.entry.pos
  length_le : (turns calls).length ≤ ts.length

section Turns

variable {calls : List Call} {first last : Nat} {failure : Option Stop}

/-- Calls that begin at different places are not more than there are places. -/
theorem length_le_of_forward
    (hforward : calls.Pairwise fun earlier later => earlier.entry.pos < later.entry.pos)
    (hbetween : ∀ call ∈ calls, first ≤ call.entry.pos ∧ call.entry.pos < last) :
    calls.length ≤ last - first := by
  induction calls generalizing first with
  | nil => exact Nat.zero_le _
  | cons call calls ih =>
      have hfirst := hbetween call (List.mem_cons_self ..)
      have hrest : calls.length ≤ last - (call.entry.pos + 1) :=
        ih (List.pairwise_cons.1 hforward).2 fun later hlater =>
          ⟨(List.pairwise_cons.1 hforward).1 later hlater,
            (hbetween later (List.mem_cons_of_mem _ hlater)).2⟩
      rw [List.length_cons]
      omega

/-- Each call has got further before the next one begins. -/
theorem Course.forward (h : Course first last failure calls)
    (hsound : ∀ call ∈ calls, call.Sound ts limit) :
    calls.Pairwise fun earlier later => earlier.entry.pos < later.entry.pos :=
  h.inTurn.imp_of_mem fun hearlier _ hturn =>
    Nat.lt_of_lt_of_le ((hsound _ hearlier).advances hturn.1) hturn.2

/-- Of calls that follow one another, there is one for every token at most. -/
theorem Course.oncePerToken (h : Course first last failure calls)
    (hsound : ∀ call ∈ calls, call.Sound ts limit) (lowest : Nat)
    (hbetween : ∀ call ∈ calls, lowest ≤ call.entry.pos ∧ call.entry.pos < ts.length + lowest) :
    OncePerToken ts calls := by
  have hforward : (turns calls).Pairwise fun earlier later =>
      earlier.entry.pos < later.entry.pos :=
    (h.forward hsound).sublist List.filter_sublist
  have hlength := length_le_of_forward hforward fun call hmem =>
    hbetween call (List.mem_filter.1 hmem).1
  rw [Nat.add_sub_cancel] at hlength
  exact ⟨hforward, hlength⟩

end Turns

/-- A routine is noted where it has begun. -/
theorem exists_of_logged {α : Type} {r : Routine} {x : Scan α} {c : Cursor} {ran : Ran α}
    (h : logged r x c = some ran) : ∃ call, ran.calls = [call] ∧ call.entry = c := by
  rcases Option.map_eq_some_iff.1 h with ⟨inner, -, rfl⟩
  exact ⟨_, rfl, rfl⟩

/-- A turn over the statements of a unit begins at a token. -/
theorem entry_lt_of_unitTurns {fuel : Nat} {c : Cursor} {ran : Ran Block}
    (h : exec ts limit fuel .unitTurns c = some ran) :
    ∀ call ∈ ran.calls, call.entry.pos < ts.length := by
  induction fuel generalizing c ran with
  | zero => cases h
  | succ fuel ih =>
      have h : unitTurns ts (exec ts limit fuel) c = some ran := h
      -- Only the loop itself asks whether a token is left, and it asks before each turn.
      by_cases hend : ts.length ≤ c.pos
      · have hdone : atEnd ts c = some ⟨.ok true, c, []⟩ := by
          rw [atEnd, decide_eq_true hend]
        rw [unitTurns, bind_of_ok hdone] at h
        cases h
        exact fun call hmem => absurd hmem List.not_mem_nil
      · have hmore : atEnd ts c = some ⟨.ok false, c, []⟩ := by
          rw [atEnd, decide_eq_false hend]
        have hturn {s : Ran Stmt}
            (hs : logged .turn (exec ts limit fuel .statement) c = some s) :
            ∀ call ∈ s.calls, call.entry.pos < ts.length := by
          rcases exists_of_logged hs with ⟨turn, hcalls, hentry⟩
          intro call hmem
          rw [hcalls] at hmem
          cases List.mem_singleton.1 hmem
          rw [hentry]
          exact Nat.lt_of_not_le hend
        rw [unitTurns, bind_of_ok hmore] at h
        rcases Option.map_eq_some_iff.1 h with ⟨later, hlater, rfl⟩
        rcases bind_eq_some hlater with
          ⟨s, c', calls, hs, rfl⟩ | ⟨s, c', calls, others, hs, hothers, rfl⟩
        · exact hturn hs
        · have hrest : ∀ call ∈ others.calls, call.entry.pos < ts.length := by
            rcases bind_eq_some hothers with
              ⟨_, _, _, hfailed, rfl⟩ | ⟨_, _, calls', _, hread, hpure, rfl⟩
            · exact ih hfailed
            · cases hpure
              show ∀ call ∈ calls' ++ [], _
              rw [List.append_nil]
              exact ih hread
          intro call hmem
          have hmem : call ∈ calls ++ others.calls := hmem
          exact (List.mem_append.1 hmem).elim (hturn hs call) (hrest call)

/-! ## Units -/

/-- The calls around one that fails fail for the same reason. -/
theorem failure_of_made {calls : List Call} {failure : Option Stop} {k : Nat} {call : Call}
    {s : Stop} (hmade : Made calls k call)
    (hsound : ∀ k call, Made calls k call → call.Sound ts limit)
    (hfails : ∀ call ∈ calls, ∀ s, call.failure = some s → failure = some s)
    (hs : call.failure = some s) : failure = some s := by
  induction hmade generalizing failure with
  | here hmem => exact hfails _ hmem s hs
  | @inside calls outer k call hmem hinner ih =>
      have hcourse := (hsound _ outer (.here hmem)).course
      have houter : outer.failure = some s :=
        ih (fun k call h => hsound _ call (.inside hmem h)) hcourse.fails hs
      exact hfails outer hmem s houter

/-- What a call has made is made too. -/
theorem Made.inner {calls : List Call} {k : Nat} {call inner : Call} (hmade : Made calls k call)
    (hinner : inner ∈ call.calls) : ∃ k', Made calls k' inner := by
  induction hmade with
  | here hmem => exact ⟨_, .inside hmem (.here hinner)⟩
  | inside hmem _ ih =>
      rcases ih hinner with ⟨k', hk'⟩
      exact ⟨_, .inside hmem hk'⟩

theorem result_of_failure {ran : Ran α} {s : Stop} (h : ran.failure = some s) :
    ran.result = .error s := by
  rcases ran with ⟨result, c, calls⟩
  cases result with
  | error s' => exact congrArg Except.error (Option.some.inj h)
  | ok a => cases h

/-- The parser reads a unit and tells the line of an error. -/
theorem parseTokens_eq (limit : Nat) (ts : Tokens) :
    parseTokens limit ts = (Parser.unit limit ts).mapError (Parser.errorOf ts) := by
  rw [parseTokens]
  cases Parser.unit limit ts <;> rfl

/-- Whatever the tokens and the limit are, reading them ends, and it is how they are compiled. Every
call that succeeds has moved the cursor on, and not beyond the end; one that fails ends all of it.
The depth is always the number of levels that are open, and never more than the limit. No loop over
statements begins two turns at one token. -/
theorem descent_progresses_and_stops (ts : Tokens) (limit : Nat) :
    ∃ ran : Ran Block,
      (∀ fuel, 10 * (ts.length + 1) ≤ fuel → readUnit ts limit fuel = some ran) ∧
      parseTokens limit ts = ran.result.mapError (Parser.errorOf ts) ∧
      (∀ source, tokenize source = .ok ts →
        compile limit source = (ran.result.mapError (Parser.errorOf ts)).map compileBlock) ∧
      (∀ k call, Made ran.calls k call →
        call.entry.depth = k ∧ call.exit.depth = k ∧ k ≤ limit ∧
        (call.failure = none → call.entry.pos < call.exit.pos ∧ call.exit.pos ≤ ts.length) ∧
        (∀ s, call.failure = some s → ran.result = .error s) ∧
        (call.calls.Pairwise fun earlier _ => earlier.failure = none) ∧
        (call.routine = .blockBody → OncePerToken ts call.calls)) ∧
      (ran.calls.Pairwise fun earlier _ => earlier.failure = none) ∧
      OncePerToken ts ran.calls := by
  have hbefore : Cursor.start.Before ts ts := ⟨Nat.zero_le _, rfl⟩
  -- The work of a unit is below ten for each token, which is what makes the fuel enough.
  have hwork : Job.unitTurns.work ts < 10 * (ts.length + 1) := by
    show 10 * ts.length + 9 < 10 * (ts.length + 1)
    omega
  rcases serves_exec ts limit _ .unitTurns .start ts hbefore (Nat.zero_le _) ⟨rfl, rfl⟩ hwork with
    ⟨ran, hran, horder, hresult⟩
  -- `serves_exec` speaks of the parser with the tokens it leaves; `unit` keeps only the tree.
  have hunit : Parser.unit limit ts = ran.result := by
    have htree {e : Except Stop Block} (f : Block → Tokens) :
        (e.map fun block => (block, f block)).map Prod.fst = e := by
      cases e <;> rfl
    exact (htree fun _ => []).symm.trans
      ((congrArg (Except.map Prod.fst) hresult).trans (htree _))
  have hparse : parseTokens limit ts = ran.result.mapError (Parser.errorOf ts) := by
    rw [parseTokens_eq, hunit]
  have hsound (k : Nat) (call : Call) (hmade : Made ran.calls k call) : call.Sound ts limit :=
    (horder.made k call hmade).2
  refine ⟨ran, fun fuel hfuel => exec_le hfuel _ _ ran hran, hparse, fun source hsource => ?_,
    fun k call hmade => ?_, horder.course.inTurn.imp fun h => h.1, ?_⟩
  · rw [compile, parse, hsource]
    exact congrArg (Except.map compileBlock) hparse
  · have hcall := hsound k call hmade
    have hdepth : call.entry.depth = k := (horder.made k call hmade).1.trans (Nat.zero_add k)
    have hinner (inner : Call) (hmem : inner ∈ call.calls) : inner.Sound ts limit := by
      rcases hmade.inner hmem with ⟨k', hmade'⟩
      exact hsound k' inner hmade'
    refine ⟨hdepth, hcall.depth_eq.trans hdepth, hdepth ▸ hcall.depth_le,
      fun hnone => ⟨hcall.advances hnone, hcall.within⟩,
      fun s hs => result_of_failure (failure_of_made hmade hsound horder.course.fails hs),
      hcall.course.inTurn.imp fun h => h.1, fun hbody => ?_⟩
    -- A block's brace is its first token, so its turns start behind that.
    refine hcall.course.oncePerToken hinner 1 fun inner hmem => ?_
    have hposition := hcall.inside hbody inner hmem
    have hforward := (hinner inner hmem).forward
    have hwithin := (hinner inner hmem).within
    omega
  · refine horder.course.oncePerToken (fun call hmem => hsound 0 call (.here hmem)) 0
      fun call hmem => ⟨Nat.zero_le _, ?_⟩
    exact entry_lt_of_unitTurns hran call hmem

/-- A parenthesis that is not closed is noticed at the end, and too deep for a limit of one. -/
example :
    let parenthesis : Tokens := [⟨.symbol .openParen, 1⟩, ⟨.keyword .null, 1⟩]
    (readUnit parenthesis 2 30).map (fun ran => ran.calls.map (·.failure)) =
        some [some ⟨.expected .closeParen, []⟩] ∧
      (readUnit parenthesis 1 30).map (fun ran => ran.calls.map (·.failure)) =
        some [some ⟨.tooDeep 1, parenthesis.tail⟩] :=
  ⟨rfl, rfl⟩

end Descent
end Script
end ScriptHost
