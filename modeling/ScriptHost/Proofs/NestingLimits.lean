import ScriptHost.Script.Compiler

/-!
# Limits of nesting

Two parsers of the same phrase that differ in how deep it may nest never read it in two ways. Both
give the same tree or stop at the same token for the same reason, unless one of them has no level
left. The parser for the tighter limit is the first to run out of levels: budgets differ by as much
as the limits do, on every level of the recursion.
-/

namespace ScriptHost
namespace Script

namespace Parser

variable {α β : Type} {m n : Nat} {tighter : Prop}

/-- Parsing stopped where no level of nesting was left. -/
def RanOut (r : Except Stop α) : Prop :=
  ∃ limit rest, r = .error ⟨.tooDeep limit, rest⟩

/-- The results are the same, or the nesting is too deep for one of them: for the first, or for the
second if that is the `tighter` one. -/
def Near (tighter : Prop) (r₁ r₂ : Except Stop α) : Prop :=
  RanOut r₁ ∨ (tighter ∧ RanOut r₂) ∨ r₁ = r₂

/-- Parsers with near results on all tokens. -/
def Agree (tighter : Prop) (p q : Phrase α) : Prop :=
  ∀ ts, Near tighter (p ts) (q ts)

/-! ## Combinators -/

section Combinators

theorem near_refl (r : Except Stop α) : Near tighter r r :=
  .inr (.inr rfl)

/-- Whatever goes on after a result passes on that levels ran out. -/
theorem RanOut.bind {r : Except Stop α} (h : RanOut r) (next : α → Except Stop β) :
    RanOut (r.bind next) := by
  rcases h with ⟨limit, rest, rfl⟩
  exact ⟨limit, rest, rfl⟩

/-- What follows on what is near is near. -/
theorem Near.bind {r₁ r₂ : Except Stop α} {next₁ next₂ : α → Except Stop β}
    (h : Near tighter r₁ r₂) (hnext : ∀ a, Near tighter (next₁ a) (next₂ a)) :
    Near tighter (r₁.bind next₁) (r₂.bind next₂) := by
  rcases h with h | ⟨ht, h⟩ | rfl
  · exact .inl (h.bind next₁)
  · exact .inr (.inl ⟨ht, h.bind next₂⟩)
  · cases r₁ with
    | error e => exact near_refl _
    | ok a => exact hnext a

variable {r₁ r₂ : Result α m}

/-- A phrase hands on what is left. -/
theorem andThen_eq_bind (next : α → (ts : Tokens) → ts.length < m → Result β m) :
    andThen r₁ next = r₁.bind fun a => next a.tree a.rest a.shorter := by
  cases r₁ <;> rfl

theorem widen_eq_bind (hle : m ≤ n) :
    widen hle r₁ = r₁.bind fun a => .ok ⟨a.tree, a.rest, Nat.lt_of_lt_of_le a.shorter hle⟩ := by
  cases r₁ <;> rfl

theorem mapTree_eq_bind (f : α → β) :
    mapTree f r₁ = r₁.bind fun a => .ok ⟨f a.tree, a.rest, a.shorter⟩ := by
  cases r₁ <;> rfl

/-- One phrase after the other. -/
theorem Near.andThen {next₁ next₂ : α → (ts : Tokens) → ts.length < m → Result β m}
    (h : Near tighter r₁ r₂)
    (hnext : ∀ a ts hts, Near tighter (next₁ a ts hts) (next₂ a ts hts)) :
    Near tighter (andThen r₁ next₁) (andThen r₂ next₂) := by
  rw [andThen_eq_bind, andThen_eq_bind]
  exact h.bind fun a => hnext a.tree a.rest a.shorter

theorem Near.widen (h : Near tighter r₁ r₂) (hle : m ≤ n) :
    Near tighter (widen hle r₁) (widen hle r₂) := by
  rw [widen_eq_bind, widen_eq_bind]
  exact h.bind fun _ => near_refl _

theorem Near.mapTree (h : Near tighter r₁ r₂) (f : α → β) :
    Near tighter (mapTree f r₁) (mapTree f r₂) := by
  rw [mapTree_eq_bind, mapTree_eq_bind]
  exact h.bind fun _ => near_refl _

theorem ranOut_tooDeep (limit : Nat) (ts : Tokens) : RanOut (tooDeep limit ts : Result α _) :=
  ⟨limit, ts, rfl⟩

end Combinators

/-! ## Expressions -/

section Expressions

variable {level : Token → Option BinaryOp} {p q nested₁ nested₂ : Phrase Expr}

/-- Operands with operators between them, by induction on the tokens. -/
theorem near_chainFrom (h : Agree tighter p q) (left : Expr) (ts : Tokens) :
    Near tighter (chainFrom level p left ts) (chainFrom level q left ts) := by
  fun_induction chainFrom level p left ts with
  | case1 left =>
      rw [chainFrom]
      exact near_refl _
  | case2 left t ts hnone =>
      rw [chainFrom, hnone]
      exact near_refl _
  | case3 left t ts op hop ih =>
      rw [chainFrom, hop]
      exact ((h ts).andThen fun right ts₁ h₁ => (ih right ts₁ h₁).widen _).widen _

theorem Agree.chain (h : Agree tighter p q) : Agree tighter (chain level p) (chain level q) :=
  fun ts => (h ts).andThen fun first ts₁ _ => (near_chainFrom h first ts₁).widen _

theorem Agree.climb (h : Agree tighter p q) : Agree tighter (climb p) (climb q) :=
  h.chain.chain.chain.chain

/-- Arguments, by induction on the tokens. -/
theorem near_argumentsFrom (h : Agree tighter p q) (ts : Tokens) :
    Near tighter (argumentsFrom p ts) (argumentsFrom q ts) := by
  fun_induction argumentsFrom p ts with
  | case1 ts ih =>
      rw [argumentsFrom]
      refine (h ts).andThen fun first ts₁ h₁ => ?_
      cases ts₁ with
      | nil => exact near_refl _
      | cons t ts₁ =>
          by_cases hcomma : t.token = .symbol .comma
          · simp only [hcomma, if_true]
            exact ((ih t ts₁ h₁).widen _).mapTree _
          · simp only [hcomma, if_false]
            exact near_refl _

theorem Agree.arguments (h : Agree tighter p q) : Agree tighter (arguments p) (arguments q) := by
  intro ts
  unfold Parser.arguments
  split
  · exact near_refl _
  · exact (near_argumentsFrom h _).andThen fun _ _ _ => near_refl _

theorem Agree.parenthesized (h : Agree tighter p q) :
    Agree tighter (parenthesized p) (parenthesized q) :=
  fun ts => (h ts).andThen fun _ _ _ => near_refl _

/-- A name, or a call with its arguments. -/
theorem near_nameOrCall (h : Agree tighter p q) (name : String) (ts : Tokens) :
    Near tighter (nameOrCall p name ts) (nameOrCall q name ts) := by
  unfold nameOrCall
  split
  · exact ((h.arguments _).widen _).mapTree _
  · exact near_refl _

/-- By the token that is ahead. -/
theorem agree_operandWith (hnested : Agree tighter nested₁ nested₂) (h : Agree tighter p q) :
    Agree tighter (operandWith nested₁ p) (operandWith nested₂ q) := by
  intro ts
  unfold operandWith
  split
  · exact near_refl _
  · split
    · exact ((hnested _).widen _).mapTree _
    · exact ((hnested _).widen _).mapTree _
    · exact (h.parenthesized _).widen _
    · exact near_nameOrCall h _ _
    all_goals exact near_refl _

end Expressions

section Budgets

variable {limit₁ limit₂ b₁ b₂ : Nat}

/-- A parser that is too deep agrees with any other one, which may read on. -/
theorem agree_tooDeep (p : Phrase α) : Agree tighter (tooDeep limit₁) p :=
  fun ts => .inl (ranOut_tooDeep limit₁ ts)

theorem agree_tooDeep_right (ht : tighter) (p : Phrase α) : Agree tighter p (tooDeep limit₂) :=
  fun ts => .inr (.inl ⟨ht, ranOut_tooDeep limit₂ ts⟩)

/-- The phrases that begin with a level of nesting agree if those inside agree whenever there is
a level on both sides. -/
theorem agree_of_budgets {p q : Nat → Phrase α} (hb : b₁ + limit₂ = b₂ + limit₁)
    (hp : p 0 = tooDeep limit₁) (hq : q 0 = tooDeep limit₂)
    (h : ∀ k₁ k₂, b₁ = k₁ + 1 → b₂ = k₂ + 1 →
      Agree (limit₂ < limit₁) (p (k₁ + 1)) (q (k₂ + 1))) :
    Agree (limit₂ < limit₁) (p b₁) (q b₂) := by
  cases b₁ with
  -- The first parser has run out of levels, which is one of the ways to agree.
  | zero =>
      rw [hp]
      exact agree_tooDeep _
  | succ k₁ =>
      cases b₂ with
      | zero =>
          rw [hq]
          -- Only a smaller limit runs out earlier.
          exact agree_tooDeep_right (by omega) _
      | succ k₂ => exact h k₁ k₂ rfl rfl

/-- What a prefix operator is applied to. -/
def innerOperand (limit : Nat) : Nat → Phrase Expr
  | 0 => tooDeep limit
  | budget + 1 => operand limit budget

/-- How an operand is built from what is nested in it. -/
theorem operand_eq (limit b : Nat) :
    operand limit b = operandWith (innerOperand limit b) (expression limit b) := by
  cases b <;> rfl

/-- Operands with the same depth behind them, by induction on the budgets. -/
theorem agree_operand (hb : b₁ + limit₂ = b₂ + limit₁) :
    Agree (limit₂ < limit₁) (operand limit₁ b₁) (operand limit₂ b₂) := by
  induction b₁ using Nat.strongRecOn generalizing b₂ with
  | ind b₁ ih =>
      have hinner (k₁ k₂ : Nat) (h₁ : b₁ = k₁ + 1) (h₂ : b₂ = k₂ + 1) :
          Agree (limit₂ < limit₁) (operand limit₁ k₁) (operand limit₂ k₂) :=
        ih k₁ (by omega) (by omega)
      rw [operand_eq, operand_eq]
      exact agree_operandWith (agree_of_budgets hb rfl rfl hinner)
        (agree_of_budgets hb rfl rfl fun k₁ k₂ h₁ h₂ => (hinner k₁ k₂ h₁ h₂).climb)

theorem agree_expression (hb : b₁ + limit₂ = b₂ + limit₁) :
    Agree (limit₂ < limit₁) (expression limit₁ b₁) (expression limit₂ b₂) :=
  agree_of_budgets hb rfl rfl fun _ _ _ _ => (agree_operand (by omega)).climb

end Budgets

/-! ## Statements -/

section Statements

variable {p q : Phrase Stmt}

/-- Statements, by induction on the tokens. -/
theorem near_statementsFrom (h : Agree tighter p q) (ts : Tokens) :
    Near tighter (statementsFrom p ts) (statementsFrom q ts) := by
  fun_induction statementsFrom p ts with
  | case1 =>
      rw [statementsFrom]
      exact near_refl _
  | case2 t ts hclose =>
      rw [statementsFrom, if_pos hclose]
      exact near_refl _
  | case3 t ts hopen ih =>
      rw [statementsFrom, if_neg hopen]
      exact (h (t :: ts)).andThen fun s ts₁ h₁ => ((ih ts₁ h₁).widen _).mapTree _

theorem Agree.braces (h : Agree tighter p q) : Agree tighter (braces p) (braces q) :=
  fun _ => (near_refl _).andThen fun _ ts₁ _ => (near_statementsFrom h ts₁).widen _

theorem Agree.terminated (h : Agree tighter p q) : Agree tighter (terminated p) (terminated q) :=
  fun ts => (h ts).andThen fun _ _ _ => near_refl _

/-- The parsers for the phrases inside a statement agree in pairs. -/
structure PartsAgree (tighter : Prop) (ps qs : Parts) : Prop where
  expression : Agree tighter ps.expression qs.expression
  block : Agree tighter ps.block qs.block
  functionBody : Agree tighter ps.functionBody qs.functionBody
  elseIf : Agree tighter ps.elseIf qs.elseIf

namespace PartsAgree

variable {ps qs : Parts} (h : PartsAgree tighter ps qs)
include h

theorem alternative : Agree tighter (alternative ps) (alternative qs) := by
  intro ts
  unfold Parser.alternative
  split
  · exact (h.elseIf _).mapTree _
  · exact h.block _

theorem conditional : Agree tighter (conditional ps) (conditional qs) := by
  refine fun ts => (h.expression ts).andThen fun test ts₁ h₁ => ?_
  refine ((h.block ts₁).widen _).andThen fun body ts₂ h₂ => ?_
  split
  · exact ((h.alternative _).widen _).mapTree _
  · exact near_refl _

theorem loop : Agree tighter (loop ps) (loop qs) :=
  fun ts => (h.expression ts).andThen fun _ ts₁ _ => ((h.block ts₁).widen _).mapTree _

theorem declaration : Agree tighter (declaration ps) (declaration qs) :=
  fun _ => (near_refl _).andThen fun _ _ _ => (near_refl _).andThen fun _ ts₂ _ =>
    ((h.functionBody ts₂).widen _).mapTree _

/-- A return with a value or without. -/
theorem near_returned (ts : Tokens) : Near tighter (returned ps ts) (returned qs ts) := by
  unfold returned
  split
  · exact near_refl _
  · split
    · exact near_refl _
    · exact ((h.expression _).widen _).mapTree _

/-- By the token that is ahead. -/
theorem bareStatement (inFunction : Bool) :
    Agree tighter (bareStatement inFunction ps) (bareStatement inFunction qs) := by
  intro ts
  unfold Parser.bareStatement
  split
  · split
    · exact near_refl _
    · exact (h.declaration _).widen _
  · exact h.near_returned _
  · exact (h.conditional _).widen _
  · exact (h.loop _).widen _
  · exact ((h.expression _).widen _).mapTree _
  · exact (h.expression _).mapTree _

theorem conditionalAtKeyword :
    Agree tighter (conditionalAtKeyword ps) (conditionalAtKeyword qs) := by
  intro ts
  unfold Parser.conditionalAtKeyword
  split
  · exact near_refl _
  · exact (h.conditional _).widen _

end PartsAgree

theorem expression_parts (limit : Nat) (inFunction : Bool) (b : Nat) :
    (parts limit inFunction b).expression = expression limit b := by
  cases b <;> rfl

/-- Parts of statements, by induction on the budgets. -/
theorem agree_parts {limit₁ limit₂ b₁ b₂ : Nat} (inFunction : Bool)
    (hb : b₁ + limit₂ = b₂ + limit₁) :
    PartsAgree (limit₂ < limit₁) (parts limit₁ inFunction b₁) (parts limit₂ inFunction b₂) := by
  induction b₁ using Nat.strongRecOn generalizing inFunction b₂ with
  | ind b₁ ih =>
      have hinner (inFunction : Bool) (k₁ k₂ : Nat) (h₁ : b₁ = k₁ + 1) (h₂ : b₂ = k₂ + 1) :
          PartsAgree (limit₂ < limit₁) (parts limit₁ inFunction k₁) (parts limit₂ inFunction k₂) :=
        ih k₁ (by omega) inFunction (by omega)
      -- A block is read with one level less, where the induction speaks of its statements.
      have hbraces (inFunction : Bool) (k₁ k₂ : Nat) (h₁ : b₁ = k₁ + 1) (h₂ : b₂ = k₂ + 1) :=
        ((hinner inFunction k₁ k₂ h₁ h₂).bareStatement inFunction).terminated.braces
      exact
        { expression := by
            rw [expression_parts, expression_parts]
            exact agree_expression hb
          block := agree_of_budgets (p := fun b => (parts limit₁ inFunction b).block)
            (q := fun b => (parts limit₂ inFunction b).block) hb rfl rfl (hbraces inFunction)
          functionBody := agree_of_budgets (p := fun b => (parts limit₁ inFunction b).functionBody)
            (q := fun b => (parts limit₂ inFunction b).functionBody) hb rfl rfl (hbraces true)
          elseIf := agree_of_budgets (p := fun b => (parts limit₁ inFunction b).elseIf)
            (q := fun b => (parts limit₂ inFunction b).elseIf) hb rfl rfl
            fun k₁ k₂ h₁ h₂ => (hinner inFunction k₁ k₂ h₁ h₂).conditionalAtKeyword }

theorem agree_statement (limit₁ limit₂ : Nat) (inFunction : Bool) :
    Agree (limit₂ < limit₁) (statement limit₁ inFunction limit₁)
      (statement limit₂ inFunction limit₂) :=
  ((agree_parts inFunction (Nat.add_comm _ _)).bareStatement inFunction).terminated

end Statements

/-! ## Units -/

theorem unit_cons (limit : Nat) (t : Located) (ts : Tokens) :
    unit limit (t :: ts) =
      (statement limit false limit (t :: ts)).bind fun first =>
        (unit limit first.rest).bind fun others => .ok (first.tree :: others) := by
  rw [unit]
  cases statement limit false limit (t :: ts) with
  | error e => rfl
  | ok first =>
      dsimp only [Except.bind]
      cases unit limit first.rest <;> rfl

/-- Units, by induction on the tokens. -/
theorem near_unit (limit₁ limit₂ : Nat) (ts : Tokens) :
    Near (limit₂ < limit₁) (unit limit₁ ts) (unit limit₂ ts) := by
  induction h : ts.length using Nat.strongRecOn generalizing ts with
  | ind n ih =>
      cases ts with
      | nil =>
          rw [unit, unit]
          exact near_refl _
      | cons t ts =>
          rw [unit_cons, unit_cons]
          refine (agree_statement limit₁ limit₂ false (t :: ts)).bind fun first => ?_
          exact (ih _ (h ▸ first.shorter) first.rest rfl).bind fun others => near_refl _

end Parser

/-! ## Sources -/

/-- A source is refused because it nests too deeply. -/
def CompileError.IsTooDeep (e : CompileError) : Prop :=
  ∃ limit, e.fault = .tooDeep limit

/-- Under two limits a source has the same outcome, or it nests too deeply for one of them: for
the first, or for the second if that is the tighter one. -/
theorem compile_under_limits (limit₁ limit₂ : Nat) (source : String) :
    (∃ e, compile limit₁ source = .error e ∧ e.IsTooDeep) ∨
    (limit₂ < limit₁ ∧ ∃ e, compile limit₂ source = .error e ∧ e.IsTooDeep) ∨
    compile limit₁ source = compile limit₂ source := by
  have htooDeep (limit : Nat) {ts : List Located} (htokens : tokenize source = .ok ts)
      (h : Parser.RanOut (Parser.unit limit ts)) :
      ∃ e, compile limit source = .error e ∧ e.IsTooDeep := by
    rcases h with ⟨d, rest, h⟩
    refine ⟨Parser.errorOf ts ⟨.tooDeep d, rest⟩, ?_, d, rfl⟩
    simp [compile, parse, parseTokens, htokens, h, bind, Except.bind, Except.map]
  -- The limit plays no part in the tokens.
  cases htokens : tokenize source with
  | error e =>
      right; right
      simp [compile, parse, htokens, bind, Except.bind]
  | ok ts =>
      rcases Parser.near_unit limit₁ limit₂ ts with h | ⟨ht, h⟩ | h
      · exact .inl (htooDeep limit₁ htokens h)
      · exact .inr (.inl ⟨ht, htooDeep limit₂ htokens h⟩)
      · right; right
        simp [compile, parse, parseTokens, htokens, h, bind, Except.bind]

end Script
end ScriptHost
