import ScriptHost.Proofs.PredictiveStatements

/-!
# The line of a refusal

A source that is refused for another reason than its nesting is refused at its first token with
which no accepted program goes on, or at its end if some accepted program goes on behind it. The
line of the refusal is that of this token, or of the last one. Only a repeated parameter is reported
where the token behind it stands.
-/

namespace ScriptHost
namespace Script

namespace Parser

open Grammar

/-! ## Units -/

section Units

variable {limit d : Nat} {ts : Tokens} {s : Stmt} {stopped : Stop}

/-- What the grammar reads is what the parser reads, apart from lines. -/
theorem reads_iff_leveled {α : Type} {p : Nat → Phrase α} {a : α} {rest : List Token} :
    Reads (p d ts) a rest ↔ ∃ left, leveled p d ts = .ok (a, left) ∧ tokensOf left = rest := by
  unfold leveled
  cases hread : p d ts with
  | error s =>
      constructor
      · rintro ⟨x, hx, _⟩
        cases hx
      · rintro ⟨left, hleft, _⟩
        cases hleft
  | ok x =>
      constructor
      · rintro ⟨y, hy, rfl, rfl⟩
        cases hy
        exact ⟨x.rest, rfl, rfl⟩
      · rintro ⟨left, hleft, rfl⟩
        cases hleft
        exact ⟨x, rfl, rfl, rfl⟩

theorem statement_iff_leveled (limit : Nat) {rest : List Token} :
    Statement false d (tokensOf ts) s rest ↔
      ∃ left, leveled (statement limit false) d ts = .ok (s, left) ∧ tokensOf left = rest :=
  (decides_statement limit false d ts s rest).symm.trans reads_iff_leveled

/-- The tokens before the place of a refusal begin a unit, and those up to the token there begin
none. -/
structure Refuted (limit : Nat) (pre next : Tokens) : Prop where
  completes : ∃ more least, ∀ d, least ≤ d →
    ∃ block, Grammar.IsUnit d (tokensOf (pre ++ laid more)) block
  fails : ∀ t tail, next = t :: tail → ∀ d, limit ≤ d → ∀ tail' block,
    ¬ Grammar.IsUnit d (tokensOf (pre ++ t :: tail')) block

/-- A unit that has a token begins with a statement. -/
theorem begins_of_isUnit (limit : Nat) {block : List Stmt}
    (h : Grammar.IsUnit d (tokensOf ts) block) (hts : ts ≠ []) :
    ∃ s others left, leveled (statement limit false) d ts = .ok (s, left) ∧
      Grammar.IsUnit d (tokensOf left) others := by
  unfold Grammar.IsUnit at h
  generalize htoks : tokensOf ts = toks at h
  cases h with
  | nil => exact absurd (List.map_eq_nil_iff.1 htoks) hts
  | cons hs hrest =>
      subst htoks
      rcases (statement_iff_leveled limit).1 hs with ⟨left, hleft, rfl⟩
      exact ⟨_, _, left, hleft, hrest⟩

/-- A statement before a unit makes a unit. -/
theorem isUnit_of_leveled {left : Tokens} {others : List Stmt}
    (h : leveled (statement limit false) d ts = .ok (s, left))
    (hrest : Grammar.IsUnit d (tokensOf left) others) :
    Grammar.IsUnit d (tokensOf ts) (s :: others) :=
  .cons ((statement_iff_leveled limit).2 ⟨left, h, rfl⟩) hrest

/-- A unit whose first statement is refused. -/
theorem refuted_of_statement
    (h : leveled (statement limit false) limit ts = .error stopped)
    (hdeep : ∀ n, stopped.fault ≠ .tooDeep n) :
    ∃ pre next, ts = pre ++ next ∧ stopped.Blames next ∧ Refuted limit pre next := by
  cases foresees_statement limit false limit ts with
  | reads pre rest a heq hread =>
      have hself := hread limit (Nat.le_refl limit) rest (.inl rfl)
      rw [← heq] at hself
      cases h.symm.trans hself
  | tooDeep n rest hout =>
      cases h.symm.trans hout
      exact absurd rfl (hdeep n)
  | stops pre next stopped' heq hstop hblames hall hcomplete =>
      cases h.symm.trans hstop
      refine ⟨pre, next, heq, hblames, ?_, fun t tail hnext d hd tail' block hunit => ?_⟩
      · by_cases hpre : pre = []
        · exact ⟨[], 0, fun d _ => ⟨[], hpre ▸ .nil⟩⟩
        · rcases hcomplete hpre with ⟨more, least, hmore⟩
          refine ⟨more, least, fun d hd => ?_⟩
          rcases hmore d hd [] atSymbols_nil with ⟨a, ha⟩
          rw [List.append_nil] at ha
          exact ⟨[a], isUnit_of_leveled ha .nil⟩
      · -- the first statement of such a unit would have been read
        rcases hall t tail hnext d hd tail' with ⟨stopped', hstopped'⟩
        rcases begins_of_isUnit limit hunit (by simp) with ⟨_, _, _, hread, _⟩
        cases hstopped'.symm.trans hread

/-- A refusal behind the first statement. -/
theorem Refuted.after {w pre next : Tokens} {rest : Tokens} (hrest : rest = pre ++ next)
    (hread : ∀ d, limit ≤ d → ∀ rest', rest'.head? = rest.head? ∨ AfterStatement rest' →
      leveled (statement limit false) d (w ++ rest') = .ok (s, rest'))
    (h : Refuted limit pre next) : Refuted limit (w ++ pre) next := by
  constructor
  · by_cases hpre : pre = []
    · subst hpre
      -- the first statement is a unit by itself
      refine ⟨[], limit, fun d hd => ⟨[s], ?_⟩⟩
      have hlast := hread d hd [] (.inr atSymbols_nil)
      rw [List.append_nil, laid, List.map_nil]
      exact isUnit_of_leveled hlast .nil
    · rcases h.completes with ⟨more, least, hmore⟩
      refine ⟨more, max limit least, fun d hd => ?_⟩
      rcases hmore d (Nat.le_trans (Nat.le_max_right ..) hd) with ⟨block, hblock⟩
      have hfirst := hread d (Nat.le_trans (Nat.le_max_left ..) hd) (pre ++ laid more) <| by
        rcases List.exists_cons_of_ne_nil hpre with ⟨t, pre, rfl⟩
        exact .inl (by rw [hrest]; rfl)
      rw [List.append_assoc]
      exact ⟨s :: block, isUnit_of_leveled hfirst hblock⟩
  · intro t tail hnext d hd tail' block hunit
    have hfirst := hread d hd (pre ++ t :: tail') <| by
      subst hrest hnext
      cases pre <;> exact .inl rfl
    rw [List.append_assoc] at hunit
    rcases begins_of_isUnit limit hunit (by simp) with ⟨_, others, left, hleft, hothers⟩
    cases hfirst.symm.trans hleft
    exact h.fails t tail hnext d hd tail' others hothers

/-- A unit that is refused, not for its nesting, is refuted where its fault points. -/
theorem refuted_of_unit (h : unit limit ts = .error stopped)
    (hdeep : ∀ n, stopped.fault ≠ .tooDeep n) :
    ∃ pre next, ts = pre ++ next ∧ stopped.Blames next ∧ Refuted limit pre next := by
  -- By induction on the tokens that are left: the first statement is refused itself, or is read
  -- with the rest refused behind it.
  induction hn : ts.length using Nat.strongRecOn generalizing ts with
  | ind n ih =>
      rcases ts with _ | ⟨t, ts⟩
      · rw [unit] at h
        cases h
      · rw [unit_cons] at h
        cases hfirst : statement limit false limit (t :: ts) with
        | error stopped' =>
            rw [hfirst] at h
            cases h
            refine refuted_of_statement ?_ hdeep
            rw [leveled, hfirst]
            rfl
        | ok first =>
            have hleveled : leveled (statement limit false) limit (t :: ts) =
                .ok (first.tree, first.rest) := by
              rw [leveled, hfirst]
              rfl
            have hrest : unit limit first.rest = .error stopped := by
              rw [hfirst] at h
              cases hrest : unit limit first.rest with
              | error stopped' =>
                  rw [Except.bind, hrest] at h
                  cases h
                  rfl
              | ok others =>
                  rw [Except.bind, hrest] at h
                  cases h
            rcases ih first.rest.length (hn ▸ first.shorter) hrest rfl with
              ⟨pre', next, heq', hblames, hrefuted⟩
            -- The statement was read, so of its forecasts only the reading one is possible.
            cases foresees_statement limit false limit (t :: ts) with
            | reads pre rest a heq hread =>
                have hself := hread limit (Nat.le_refl limit) rest (.inl rfl)
                rw [← heq] at hself
                cases hleveled.symm.trans hself
                refine ⟨pre ++ pre', next, by rw [heq, heq', List.append_assoc], hblames, ?_⟩
                exact hrefuted.after heq' hread
            | tooDeep n rest hout => cases hleveled.symm.trans hout
            | stops pre next stopped' _ hstop _ _ _ => cases hleveled.symm.trans hstop

end Units

end Parser

/-! ## Spelled tokens -/

/-- The token can be written. -/
def Token.IsSpelled (t : Token) : Prop :=
  ∃ s : Spelling, s.token = t

namespace Lexer

variable {c : Char} {rest : List Char} {t : Token} {n : Nat}

/-- Every symbol can be spelled. -/
theorem isSpelled_symbol (s : Symbol) : (Token.symbol s).IsSpelled :=
  ⟨.symbol s, rfl⟩

theorem isSpelled_text (s : String) : (Token.text s).IsSpelled := by
  refine ⟨.literal (s.toList.map BodyPart.ofChar), ?_⟩
  rw [Spelling.token, map_meant_ofChar, String.ofList_toList]

theorem isSpelled_word (h : isNameStart c = true) :
    (word (String.ofList (c :: rest.takeWhile isNamePart))).IsSpelled := by
  unfold word
  split
  · exact ⟨.keyword _, rfl⟩
  · rename_i hnone
    have hparts := List.all_eq_true.1 (List.all_takeWhile (p := isNamePart) (l := rest))
    exact ⟨.name _ ⟨⟨c, _, String.toList_ofList, h, hparts⟩, hnone⟩, rfl⟩

theorem isSpelled_numeral (hc : Number.isDigit c = true)
    (h : numeral c rest = (.token t, n)) : t.IsSpelled := by
  have hdigits (cs : List Char) : ∀ d ∈ cs.takeWhile Number.isDigit, Number.isDigit d = true :=
    List.all_eq_true.1 List.all_takeWhile
  let whole : Digits := ⟨c, rest.takeWhile Number.isDigit, hc, hdigits rest⟩
  unfold numeral at h
  dsimp only at h
  split at h
  · rename_i after _
    -- A point without digits behind it is not part of the numeral.
    split at h
    · cases h
      exact ⟨.whole whole, rfl⟩
    · rename_i fraction hempty
      cases h
      have hfraction := hdigits after
      cases htake : after.takeWhile Number.isDigit with
      | nil => exact absurd htake hempty
      | cons f fs =>
          rw [htake] at hfraction
          rcases List.forall_mem_cons.1 hfraction with ⟨hf, hfs⟩
          exact ⟨.decimal whole ⟨f, fs, hf, hfs⟩, rfl⟩
  · cases h
    exact ⟨.whole whole, rfl⟩

/-- What comes from a string literal is a string. -/
theorem isSpelled_stringLiteral (h : stringLiteral rest = (.token t, n)) : t.IsSpelled := by
  unfold stringLiteral at h
  split at h
  · cases h
  · split at h <;> cases h
    exact isSpelled_text _

/-- A symbol with or without an equals sign. -/
theorem isSpelled_orEqual {short long : Symbol} (h : orEqual rest short long = (.token t, n)) :
    t.IsSpelled := by
  unfold orEqual at h
  split at h <;> cases h <;> exact isSpelled_symbol _

/-- Whatever token the lexer finds has a spelling. -/
theorem isSpelled_next (h : next c rest = (.token t, n)) : t.IsSpelled := by
  unfold next at h
  split at h
  · cases h
  · split at h
    · rename_i hstart
      cases h
      exact isSpelled_word hstart
    · split at h
      · rename_i hdigit
        exact isSpelled_numeral hdigit h
      · split at h
        · exact isSpelled_stringLiteral h
        · split at h <;> cases h
          exact isSpelled_symbol _
        · exact isSpelled_orEqual h
        · exact isSpelled_orEqual h
        · exact isSpelled_orEqual h
        · exact isSpelled_orEqual h
        all_goals cases h <;> exact isSpelled_symbol _

theorem isSpelled_scan {line : Nat} {cs : List Char} {ts : List Located}
    (h : scan line cs = .ok ts) : ∀ t ∈ ts, t.token.IsSpelled := by
  fun_induction scan line cs generalizing ts with
  | case1 line =>
      cases h
      intro t ht
      cases ht
  | case2 => cases h
  | case3 =>
      rename_i ih
      exact ih h
  | case4 =>
      rename_i cs n _ lineAfter t hnext ih
      cases hrest : scan lineAfter (cs.drop n) with
      | error e =>
          rw [hrest] at h
          cases h
      | ok rest =>
          rw [hrest] at h
          cases h
          exact List.forall_mem_cons.2 ⟨isSpelled_next hnext, ih hrest⟩

end Lexer

/-! ## Beginnings of accepted programs -/

open ScriptHost.Script.Parser

/-- Some accepted program begins with these tokens. -/
def Begins (toks : List Token) : Prop :=
  ∃ limit source compiled located, tokenize source = .ok located ∧
    compile limit source = .ok compiled ∧ toks <+: tokensOf located

/-- The first token with which no accepted program goes on, with what stands before and behind. -/
structure IsMisfit (ts pre : Tokens) (t : Located) (rest : Tokens) : Prop where
  split : ts = pre ++ t :: rest
  before : Begins (tokensOf pre)
  upTo : ¬ Begins (tokensOf (pre ++ [t]))

section Beginnings

variable {limit d : Nat} {source : String} {ts pre next : Tokens} {toks toks' : List Token}
variable {block : List Stmt}

/-- Fewer tokens begin what more tokens begin. -/
theorem Begins.of_prefix (h : Begins toks) (hle : toks' <+: toks) : Begins toks' := by
  rcases h with ⟨limit, source, compiled, located, htokens, hcompiled, hprefix⟩
  exact ⟨limit, source, compiled, located, htokens, hcompiled, hle.trans hprefix⟩

/-- Whatever is spelled can be put into a text. -/
theorem exists_source (spellings : List Spelling) :
    ∃ source located, tokenize source = .ok located ∧
      tokensOf located = spellings.map Spelling.token := by
  let entries := spellings.map fun s => (s, (⟨.space, []⟩ : Separator))
  refine ⟨_, _, tokenize_layout ⟨[], entries, .nothing⟩, ?_⟩
  have hlocated (before : List Char) : tokensOf (locatedAfter before entries .nothing) =
      spellings.map Spelling.token := by
    simp only [entries]
    induction spellings generalizing before with
    | nil => rfl
    | cons s spellings ih => exact congrArg (s.token :: ·) (ih _)
  exact hlocated []

/-- The tokens before a unit is complete begin a program that is accepted. -/
theorem begins_of_unit {more : List Spelling} (hspelled : ∀ t ∈ pre, t.token.IsSpelled)
    (h : Grammar.IsUnit d (tokensOf (pre ++ laid more)) block) :
    Begins (tokensOf pre ++ more.map Spelling.token) := by
  have hpre : ∃ spellings : List Spelling, spellings.map Spelling.token = tokensOf pre := by
    clear h
    induction pre with
    | nil => exact ⟨[], rfl⟩
    | cons t pre ih =>
        rcases List.forall_mem_cons.1 hspelled with ⟨⟨s, hs⟩, hrest⟩
        rcases ih hrest with ⟨spellings, hspellings⟩
        exact ⟨s :: spellings, by rw [List.map_cons, hs, hspellings]; rfl⟩
  rcases hpre with ⟨spellings, hspellings⟩
  have htoks : tokensOf (pre ++ laid more) = tokensOf pre ++ more.map Spelling.token := by
    rw [tokensOf, List.map_append, laid, List.map_map]
    rfl
  -- Tokens are turned back into a source, as `Begins` is about what can be written.
  rcases exists_source (spellings ++ more) with ⟨source, located, htokens, hlocated⟩
  rw [List.map_append, hspellings] at hlocated
  rw [htoks, ← hlocated] at h
  refine ⟨d, source, compileBlock block, located, htokens, ?_, hlocated ▸ List.prefix_rfl⟩
  exact ((compilation_follows_the_grammar d).2 _ _).2 ⟨located, block, htokens, h, rfl⟩

/-- With a token that is refuted no program goes on. -/
theorem Parser.Refuted.not_begins {t : Located} {rest : Tokens}
    (h : Refuted limit pre (t :: rest)) : ¬ Begins (tokensOf (pre ++ [t])) := by
  rintro ⟨limit', source, compiled, located, htokens, hcompiled, tail, htail⟩
  rcases ((compilation_follows_the_grammar limit').2 _ _).1 hcompiled with
    ⟨located', block, htokens', hunit, _⟩
  cases htokens.symm.trans htokens'
  -- a larger limit accepts it as well, so that of the refusal can be assumed
  rcases Grammar.exists_tokensOf tail with ⟨tail', rfl⟩
  have htoks : located.map (·.token) = tokensOf (pre ++ t :: tail') := by
    rw [← tokensOf, ← htail, tokensOf, tokensOf, ← List.map_append, List.append_assoc]
    rfl
  rw [htoks] at hunit
  exact h.fails t rest rfl (max limit limit') (Nat.le_max_left ..) tail' block
    (hunit.mono (Nat.le_max_right ..))

/-- What is refused under one limit, and not for its nesting, is refused under any larger one. -/
theorem not_isUnit_of_refused {stopped : Stop} (h : unit limit ts = .error stopped)
    (hdeep : ∀ n, stopped.fault ≠ .tooDeep n) (hle : limit ≤ d) :
    ¬ Grammar.IsUnit d (tokensOf ts) block := by
  intro hunit
  have haccepted := (unit_eq_ok d ts block).2 hunit
  rcases near_unit limit d ts with ⟨n, rest, hout⟩ | ⟨htighter, _⟩ | heq
  · cases h.symm.trans hout
    exact hdeep n rfl
  · exact absurd htighter (Nat.not_lt.2 hle)
  · cases (h.symm.trans heq).trans haccepted

/-- A refusal blames the first misfit or, if there is none, the end of the input. -/
theorem misfit_of_unit {stopped : Stop} (htokens : tokenize source = .ok ts)
    (h : unit limit ts = .error stopped) (hdeep : ∀ n, stopped.fault ≠ .tooDeep n) :
    (∃ pre t rest, IsMisfit ts pre t rest ∧ stopped.Blames (t :: rest)) ∨
      (stopped.Blames [] ∧ ∃ t, Begins (tokensOf ts ++ [t])) := by
  have hspelled := Lexer.isSpelled_scan htokens
  rcases refuted_of_unit h hdeep with ⟨pre, next, rfl, hblames, hrefuted⟩
  rcases hrefuted.completes with ⟨more, least, hmore⟩
  rcases hmore (max limit least) (Nat.le_max_right ..) with ⟨block, hblock⟩
  have hbegins := begins_of_unit (fun t ht => hspelled t (List.mem_append_left next ht)) hblock
  cases next with
  | cons t rest =>
      exact .inl ⟨pre, t, rest, ⟨rfl, hbegins.of_prefix (List.prefix_append ..),
        hrefuted.not_begins⟩, hblames⟩
  | nil =>
      rw [List.append_nil] at h ⊢
      refine .inr ⟨hblames, ?_⟩
      -- the input is not complete by itself
      cases more with
      | nil =>
          rw [laid, List.map_nil, List.append_nil] at hblock
          exact absurd hblock (not_isUnit_of_refused h hdeep (Nat.le_max_left ..))
      | cons s more =>
          refine ⟨s.token, hbegins.of_prefix ⟨more.map Spelling.token, ?_⟩⟩
          rw [List.append_assoc]
          rfl

/-- A source that has tokens is refused by the parser. -/
theorem unit_of_compile {e : CompileError} (htokens : tokenize source = .ok ts)
    (h : compile limit source = .error e) :
    ∃ stopped, unit limit ts = .error stopped ∧ e = errorOf ts stopped := by
  cases hunit : unit limit ts with
  | error stopped =>
      refine ⟨stopped, rfl, ?_⟩
      simp [compile, parse, parseTokens, htokens, hunit, bind, Except.bind, Except.map] at h
      exact h.symm
  | ok block =>
      simp [compile, parse, parseTokens, htokens, hunit, bind, Except.bind, Except.map] at h

/-- There is one first misfit at most. -/
theorem IsMisfit.unique {pre' rest rest' : Tokens} {t t' : Located} (h : IsMisfit ts pre t rest)
    (h' : IsMisfit ts pre' t' rest') : pre = pre' ∧ t = t' ∧ rest = rest' := by
  have hle {pre pre' rest rest' : Tokens} {t t' : Located} (h : IsMisfit ts pre t rest)
      (h' : IsMisfit ts pre' t' rest') : pre'.length ≤ pre.length := by
    by_contra hlt
    -- the longer beginning would have the misfit in it
    have hbefore : pre' <+: ts := ⟨t' :: rest', h'.split.symm⟩
    have hupTo : pre ++ [t] <+: ts := by
      refine ⟨rest, ?_⟩
      rw [h.split, List.append_assoc]
      rfl
    have hwithin : pre ++ [t] <+: pre' := by
      refine List.prefix_of_prefix_length_le hupTo hbefore ?_
      rw [List.length_append, List.length_singleton]
      omega
    exact h.upTo (h'.before.of_prefix (hwithin.map _))
  have hlength : pre.length = pre'.length := Nat.le_antisymm (hle h' h) (hle h h')
  rcases List.append_inj (h.split.symm.trans h'.split) hlength with ⟨hpre, hcons⟩
  exact ⟨hpre, List.cons.inj hcons⟩

/-- An error does not depend on what would be compiled. -/
theorem compile_eq_error {e : CompileError}
    (h : (compile limit source).map (fun _ => ()) = .error e) :
    compile limit source = .error e := by
  cases hcompile : compile limit source with
  | error e' =>
      rw [hcompile] at h
      cases h
      rfl
  | ok compiled =>
      rw [hcompile] at h
      cases h

end Beginnings

/-- A source that is refused, and not for its nesting, is refused on the line of the first token
with which no accepted program goes on, or on that of its last token if there is no such token since
an accepted program goes on behind it. A repeated parameter is such a token as well, but it is
reported on the line of the token behind it. -/
theorem refusals_point_at_the_first_misfit {limit : Nat} {source : String} {ts : List Located}
    {e : CompileError} (htokens : tokenize source = .ok ts)
    (hrefused : compile limit source = .error e) (hdeep : ¬ e.IsTooDeep) :
    (∃ pre t rest, IsMisfit ts pre t rest ∧
      ((∀ name, e.fault ≠ .duplicateParameter name) → e.line = t.line) ∧
      ∀ name, e.fault = .duplicateParameter name → e.line = (rest.head?.getD t).line) ∨
    ((∃ t, Begins (tokensOf ts ++ [t])) ∧ e.line = (ts.getLast?.map (·.line)).getD 1) := by
  rcases unit_of_compile htokens hrefused with ⟨stopped, hunit, rfl⟩
  have hfault (n : Nat) : stopped.fault ≠ .tooDeep n := fun h => hdeep ⟨n, h⟩
  rcases misfit_of_unit htokens hunit hfault with ⟨pre, t, rest, hmisfit, hblames⟩ | ⟨hblames, hend⟩
  · refine .inl ⟨pre, t, rest, hmisfit, fun hother => ?_, fun name hname => ?_⟩
    · cases hblames with
      | next _ => rfl
      | passed => exact absurd rfl (hother _)
    · cases hblames with
      | next hother => exact absurd hname (hother name)
      | passed =>
          -- at the end of the input nothing stands behind the parameter
          cases rest with
          | nil => simp [errorOf, lineOf, hmisfit.split]
          | cons u rest => rfl
  · refine .inr ⟨hend, ?_⟩
    cases hblames with
    | next _ => rfl

/-- A sum without its second operand is refused at the brace behind it, a line further down. -/
theorem unfinished_sum_is_refused_at_the_brace :
    let source := "func f(a) \x7b\n return a +\n\x7d\nf(1)"
    let e : CompileError := ⟨3, .noOperand, some (.symbol .closeBrace)⟩
    ∃ ts, tokenize source = .ok ts ∧ compile 8 source = .error e ∧ ¬ e.IsTooDeep ∧
      ∃ pre t rest, IsMisfit ts pre t rest ∧ t.line = 3 := by
  intro source e
  have hcompile : compile 8 source = .error e := compile_eq_error (by decide +kernel)
  have hdeep : ¬ e.IsTooDeep := nofun
  cases htokens : tokenize source with
  | error e =>
      have hok : (tokenize source).isOk = true := by decide +kernel
      rw [htokens] at hok
      cases hok
  | ok ts =>
      refine ⟨ts, rfl, hcompile, hdeep, ?_⟩
      rcases refusals_point_at_the_first_misfit htokens hcompile hdeep with
        ⟨pre, t, rest, hmisfit, hline, _⟩ | ⟨_, hline⟩
      · exact ⟨pre, t, rest, hmisfit, (hline nofun).symm⟩
      · -- the last token stands on the fourth line
        have hlast : (tokenize source).map
            (fun ts => (ts.getLast?.map (·.line)).getD 1) = .ok 4 := by
          decide +kernel
        rw [htokens] at hlast
        cases hline.trans (Except.ok.inj hlast)

/-- The second of two equal parameters is the first token with which no program goes on, but the
refusal is on the line of the parenthesis behind it. -/
theorem repeated_parameter_is_reported_behind_it :
    let source := "func f(a,\na\n) \x7b\x7d"
    ∃ ts pre t rest e, tokenize source = .ok ts ∧ compile 8 source = .error e ∧ ¬ e.IsTooDeep ∧
      IsMisfit ts pre t rest ∧ t.line = 2 ∧ e.line = 3 := by
  intro source
  let before : Tokens := [⟨.keyword .func, 1⟩, ⟨.ident "f", 1⟩, ⟨.symbol .openParen, 1⟩,
    ⟨.ident "a", 1⟩, ⟨.symbol .comma, 1⟩]
  let behind : Tokens := [⟨.symbol .closeParen, 3⟩, ⟨.symbol .openBrace, 3⟩,
    ⟨.symbol .closeBrace, 3⟩]
  have htokens : tokenize source = .ok (before ++ ⟨.ident "a", 2⟩ :: behind) := by decide +kernel
  have hstop : ((unit 8 (before ++ ⟨.ident "a", 2⟩ :: behind)).mapError
      fun stopped => (stopped.fault, stopped.rest)).map (fun _ => ()) =
        .error (.duplicateParameter "a", behind) := by
    decide +kernel
  have hcompile : compile 8 source =
      .error ⟨3, .duplicateParameter "a", some (.symbol .closeParen)⟩ :=
    compile_eq_error (by decide +kernel)
  cases hunit : unit 8 (before ++ ⟨.ident "a", 2⟩ :: behind) with
  | ok block =>
      rw [hunit] at hstop
      cases hstop
  | error stopped =>
      rw [hunit] at hstop
      rcases stopped with ⟨fault, left⟩
      obtain ⟨rfl, rfl⟩ := Prod.mk.inj (Except.error.inj hstop)
      rcases misfit_of_unit htokens hunit nofun with ⟨pre, t, rest, hmisfit, hblames⟩ | ⟨hblames, _⟩
      · rcases hblames.passes with ⟨_, heq⟩
        cases (List.cons.inj heq).2
        have hsplit : (before ++ [⟨.ident "a", 2⟩]) ++ behind = (pre ++ [t]) ++ behind := by
          rw [List.append_assoc, List.append_assoc]
          exact hmisfit.split
        -- Both splits end before the same tokens, so the misfit is the second `a`.
        have hlast := congrArg List.getLast? (List.append_cancel_right hsplit)
        rw [List.getLast?_concat, List.getLast?_concat] at hlast
        cases hlast
        exact ⟨_, pre, _, _, _, htokens, hcompile, nofun, hmisfit, rfl, rfl⟩
      · rcases hblames.passes with ⟨_, heq⟩
        cases heq

end Script
end ScriptHost
