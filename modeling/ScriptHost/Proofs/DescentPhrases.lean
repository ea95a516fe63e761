import ScriptHost.Proofs.DescentOrder

/-!
# The descent follows the phrases

For every job there is a phrase that comes to the same before the tokens that are left. The budget
of the phrase is the number of levels that the cursor may still open. Before a routine steps over a
token it only calls routines of lower rank, so the calls that stand within one another are bounded
by the number of tokens that are left, for malformed input too.
-/

namespace ScriptHost
namespace Script
namespace Descent

open ScriptHost.Script.Parser (Tokens Stop Phrase Result outcome)

variable {ts : Tokens} {limit : Nat} {α β : Type}

/-! ## Looking ahead -/

/-- The token that comes next. -/
def ahead (rest : Tokens) : Option Token :=
  rest.head?.map (·.token)

/-- A token that is ahead is the first of those that are left. -/
theorem exists_of_ahead {t : Token} {rest : Tokens} (h : ahead rest = some t) :
    ∃ line tail, rest = ⟨t, line⟩ :: tail := by
  rcases rest with _ | ⟨⟨token, line⟩, tail⟩
  · cases h
  · cases h
    exact ⟨line, tail, rfl⟩

section Ahead

variable {c : Cursor} {rest : Tokens} {e : Except Stop (β × Tokens)}

/-- Whoever peeks sees the first token. -/
theorem peek_eq (h : c.Before ts rest) : peek ts c = some ⟨.ok (ahead rest), c, []⟩ := by
  have hhead := h.getElem? 0
  rw [Nat.add_zero] at hhead
  rw [peek, hhead, ahead, List.head?_eq_getElem?]

theorem peekNext_eq (h : c.Before ts rest) :
    peekNext ts c = some ⟨.ok (ahead rest.tail), c, []⟩ := by
  rw [peekNext, h.getElem? 1, ahead, List.head?_tail]

/-- At the end nothing is left. -/
theorem atEnd_eq (h : c.Before ts rest) :
    atEnd ts c = some ⟨.ok (decide (rest.length = 0)), c, []⟩ := by
  have hlength := h.length_add
  have hiff : ts.length ≤ c.pos ↔ rest.length = 0 := by omega
  rw [atEnd, decide_eq_decide.2 hiff]

/-- A check for the token that is ahead. -/
theorem check_of_ahead {t : Token} (h : c.Before ts rest) (ht : ahead rest = some t) :
    check ts t c = some ⟨.ok true, c, []⟩ := by
  rw [check, bind_of_ok (peek_eq h), decide_eq_true ht]
  rfl

/-- A check for any other one. -/
theorem check_of_not_ahead {t : Token} (h : c.Before ts rest) (ht : ahead rest ≠ some t) :
    check ts t c = some ⟨.ok false, c, []⟩ := by
  rw [check, bind_of_ok (peek_eq h), decide_eq_false ht]
  rfl

/-- The token that is ahead is taken. -/
theorem eat_of_ahead {t : Token} (h : c.Before ts rest) (ht : ahead rest = some t) :
    eat ts t c = some ⟨.ok true, c.next, []⟩ := by
  rw [eat, bind_of_ok (check_of_ahead h ht)]
  rfl

theorem eat_of_not_ahead {t : Token} (h : c.Before ts rest) (ht : ahead rest ≠ some t) :
    eat ts t c = some ⟨.ok false, c, []⟩ := by
  rw [eat, bind_of_ok (check_of_not_ahead h ht)]
  rfl

/-- The first token is taken, whatever it is. -/
theorem advance_cons {t : Located} (h : c.Before ts (t :: rest)) :
    advance ts c = some ⟨.ok (some t.token), c.next, []⟩ := by
  rw [advance, bind_of_ok (peek_eq h)]
  rfl

theorem advance_nil (h : c.Before ts []) : advance ts c = some ⟨.ok none, c, []⟩ := by
  rw [advance, bind_of_ok (peek_eq h)]
  rfl

/-- A name is taken in its normal form. -/
theorem nameOr_of_ahead {name : String} {fault : SyntaxFault} (h : c.Before ts rest)
    (hname : ahead rest = some (.ident name)) :
    nameOr ts fault c = some ⟨.ok (normalizeName name), c.next, []⟩ := by
  rw [nameOr, bind_of_ok (peek_eq h), hname]
  rfl

/-- Peeking takes nothing, so what follows decides. -/
theorem reads_peek {f : Option Token → Scan β} (h : c.Before ts rest)
    (hf : Reads ts limit (f (ahead rest)) c e) : Reads ts limit (peek ts >>= f) c e :=
  .step (peek_eq h) (.refl c) hf

/-- Taking a token that has been seen. -/
theorem reads_bump {f : Unit → Scan β} (hf : Reads ts limit (f ()) c.next e) :
    Reads ts limit (bump >>= f) c e :=
  .step rfl c.after_next hf

/-- A symbol that is expected and there. -/
theorem expect_of_ahead {s : Symbol} {what : Expectation} (h : c.Before ts rest)
    (hs : ahead rest = some (.symbol s)) : expect ts s what c = some ⟨.ok (), c.next, []⟩ := by
  rw [expect, bind_of_ok (eat_of_ahead h hs)]
  rfl

/-- A symbol that is expected and not there. -/
theorem expect_of_not_ahead {s : Symbol} {what : Expectation} (h : c.Before ts rest)
    (hs : ahead rest ≠ some (.symbol s)) :
    expect ts s what c = some ⟨.error ⟨.expected what, rest⟩, c, []⟩ := by
  rw [expect, bind_of_ok (eat_of_not_ahead h hs), ← h.drop_eq]
  rfl

/-- The descent expects symbols as the phrases do. -/
theorem reads_expect (h : c.Before ts rest) (s : Symbol) (what : Expectation) :
    Reads ts limit (expect ts s what) c (outcome (Parser.expect s what rest)) := by
  -- The scan asks for a kind of token at its position, the parser for the first token that is left.
  by_cases hs : ahead rest = some (.symbol s)
  · rcases exists_of_ahead hs with ⟨line, tail, rfl⟩
    refine ⟨_, expect_of_ahead h hs, orderly_quiet c.after_next h.next _, ?_⟩
    have hfinish : Parser.expect s what (⟨.symbol s, line⟩ :: tail) =
        Parser.finish () tail (Parser.length_tail _ tail) :=
      if_pos rfl
    rw [hfinish, ← h.next.drop_eq]
    rfl
  · refine ⟨_, expect_of_not_ahead h hs, orderly_quiet (.refl c) h _, ?_⟩
    rcases rest with _ | ⟨t, tail⟩
    · rfl
    · have hstop : Parser.expect s what (t :: tail) = Parser.stop (.expected what) (t :: tail) :=
        if_neg fun ht => hs (congrArg some ht)
      rw [hstop]
      rfl

theorem reads_name (h : c.Before ts rest) (what : Expectation) :
    Reads ts limit (nameOr ts (.expected what)) c (outcome (Parser.expectName what rest)) := by
  refine reads_peek h ?_
  split
  · rename_i name hname
    rcases exists_of_ahead hname with ⟨line, tail, rfl⟩
    exact reads_bump (reads_pure h.next _)
  · rename_i hother
    have hstop : Parser.expectName what rest = Parser.stop (.expected what) rest := by
      rcases rest with _ | ⟨⟨token, line⟩, tail⟩
      · rfl
      · cases token with
        | ident name => exact absurd rfl (hother name)
        | _ => rfl
    rw [hstop]
    exact reads_refuse h _

/-- What comes of a list before a closing parenthesis, if `e` comes of the list itself. -/
def closed (what : Expectation) (rest : Tokens) (e : Except Stop (List α × Tokens)) :
    Except Stop (List α × Tokens) :=
  if ahead rest = some (.symbol .closeParen) then
    .ok ([], rest.tail)
  else
    e.bind fun read =>
      (outcome (Parser.expect .closeParen what read.2)).map fun closing => (read.1, closing.2)

/-- What comes of a list with its closing parenthesis. -/
theorem outcome_closing {n : Nat} {r : Result (List α) n} (what : Expectation) :
    outcome (Parser.andThen r fun items ts₁ h₁ =>
        Parser.mapTree (fun _ => items)
          (Parser.widen (Nat.le_of_lt h₁) (Parser.expect .closeParen what ts₁))) =
      (outcome r).bind fun read =>
        (outcome (Parser.expect .closeParen what read.2)).map
          fun closing => (read.1, closing.2) := by
  cases r with
  | error s => rfl
  | ok items =>
      simp only [Parser.andThen, Parser.outcome_mapTree, Parser.outcome_widen]
      rfl

/-- A list with its closing parenthesis is read as one. -/
theorem reads_listed {x : Scan (List α)} {e : Except Stop (List α × Tokens)}
    (h : c.Before ts rest) (what : Expectation) (hx : Reads ts limit x c e) :
    Reads ts limit (listed ts what x) c (closed what rest e) := by
  by_cases hclose : ahead rest = some (.symbol .closeParen)
  · have hnone : unlessClosed ts x c = some ⟨.ok [], c, []⟩ := by
      rw [unlessClosed, bind_of_ok (check_of_ahead h hclose)]
      rfl
    rcases exists_of_ahead hclose with ⟨line, tail, rfl⟩
    rw [closed, if_pos hclose]
    exact .step hnone (.refl c) ((reads_expect h .closeParen what).map fun _ => [])
  · have hsome : Reads ts limit (unlessClosed ts x) c e :=
      .step (check_of_not_ahead h hclose) (.refl c) hx
    rw [closed, if_neg hclose]
    exact hsome.seq _ fun items c' rest' _ _ hbefore =>
      (reads_expect hbefore .closeParen what).map fun _ => items

end Ahead

/-! ## What a job comes to -/

/-- What the operands of a level are, if those of the tightest level are `p`. -/
def Level.operands (p : Phrase Expr) : Level → Phrase Expr
  | .factor => p
  | .term => Parser.chain Parser.factorOp p
  | .comparison => Parser.chain Parser.termOp (Parser.chain Parser.factorOp p)
  | .equality =>
      Parser.chain Parser.comparisonOp
        (Parser.chain Parser.termOp (Parser.chain Parser.factorOp p))

/-- The operand that is read at the depth of the cursor. -/
def Cursor.operand (limit : Nat) (c : Cursor) : Phrase Expr :=
  Parser.operand limit (limit - c.depth)

def Cursor.expression (limit : Nat) (c : Cursor) : Phrase Expr :=
  Parser.expression limit (limit - c.depth)

def Cursor.parts (limit : Nat) (c : Cursor) : Parser.Parts :=
  Parser.parts limit c.inFunction (limit - c.depth)

def Cursor.bare (limit : Nat) (c : Cursor) : Phrase Stmt :=
  Parser.bareStatement c.inFunction (c.parts limit)

/-- What the phrases make of the tokens that are left at the cursor. -/
def Job.expected (limit : Nat) (c : Cursor) (rest : Tokens) :
    (j : Job) → Except Stop (j.Tree × Tokens)
  | .statement => outcome (Parser.terminated (c.bare limit) rest)
  | .declaration => outcome (c.bare limit rest)
  | .returned => outcome (c.bare limit rest)
  | .conditional => outcome (c.bare limit rest)
  | .loop => outcome (c.bare limit rest)
  | .assignment => outcome (c.bare limit rest)
  | .block => outcome ((c.parts limit).block rest)
  | .blockBody => outcome (Parser.braces (Parser.terminated (c.bare limit)) rest)
  | .blockTurns => outcome (Parser.statementsFrom (Parser.terminated (c.bare limit)) rest)
  | .unitTurns => (Parser.unit limit rest).map fun block => (block, [])
  | .expression => outcome (c.expression limit rest)
  | .level l => outcome (Parser.chain l.operator (l.operands (c.operand limit)) rest)
  | .operators l left =>
      outcome (Parser.chainFrom l.operator (l.operands (c.operand limit)) left rest)
  | .unary => outcome (c.operand limit rest)
  | .call => outcome (c.operand limit rest)
  | .primary => outcome (c.operand limit rest)
  | .arguments => outcome (Parser.argumentsFrom (c.expression limit) rest)
  | .parameters seen => outcome (Parser.parametersFrom seen rest)

/-- What a routine relies on when it is called: its caller has looked ahead. -/
def Job.Fits (c : Cursor) (rest : Tokens) : Job → Prop
  | .declaration => ahead rest = some (.keyword .func)
  | .returned => ahead rest = some (.keyword .return)
  | .conditional => ahead rest = some (.keyword .if)
  | .loop => ahead rest = some (.keyword .while)
  | .assignment =>
      ∃ name, ahead rest = some (.ident name) ∧ ahead rest.tail = some (.symbol .assign)
  | .call => ahead rest ≠ some (.symbol .bang) ∧ ahead rest ≠ some (.symbol .minus)
  | .primary =>
      (ahead rest ≠ some (.symbol .bang) ∧ ahead rest ≠ some (.symbol .minus)) ∧
        ∀ name, ahead rest = some (.ident name) → ahead rest.tail ≠ some (.symbol .openParen)
  | .unitTurns => c.depth = 0 ∧ c.inFunction = false
  | _ => True

/-- How many calls may stand within one another before the next token is stepped over. -/
def Job.rank : Job → Nat
  | .blockBody | .declaration | .returned | .conditional | .loop | .assignment => 0
  | .primary | .operators _ _ | .parameters _ => 0
  | .call | .block => 1
  | .unary => 2
  | .level .factor => 3
  | .level .term => 4
  | .level .comparison => 5
  | .level .equality => 6
  | .expression => 7
  | .arguments | .statement => 8
  | .unitTurns | .blockTurns => 9

/-- How many calls may stand within one another. -/
def Job.work (rest : Tokens) (j : Job) : Nat :=
  10 * rest.length + j.rank

section Work

variable {j j' : Job} {rest rest' : Tokens}

theorem Job.rank_lt (j : Job) : j.rank < 10 := by
  cases j with
  | level l => cases l <;> decide
  | _ => simp [Job.rank]

/-- Fewer tokens are less work, whatever the job. -/
theorem Job.work_lt_of_shorter (h : rest'.length < rest.length) : j'.work rest' < j.work rest := by
  have hrank := j'.rank_lt
  rw [Job.work, Job.work]
  omega

/-- With the same tokens the rank decides. -/
theorem Job.work_lt_of_rank (h : j'.rank < j.rank) : j'.work rest < j.work rest :=
  Nat.add_lt_add_left h _

/-- What is expected depends on the depth and not on the place. -/
theorem Job.expected_of_after {c c' : Cursor} (h : c'.After c) (j : Job) :
    j.expected limit c' rest = j.expected limit c rest := by
  cases j <;>
    simp only [Job.expected, Cursor.bare, Cursor.parts, Cursor.operand, Cursor.expression,
      h.depth_eq, h.inFunction_eq]

end Work

/-! ## Serving jobs -/

/-- Every job with less work than that comes to what the phrases say. -/
def Serves (ts : Tokens) (limit : Nat) (go : (j : Job) → Scan j.Tree) (n : Nat) : Prop :=
  ∀ (j : Job) (c : Cursor) (rest : Tokens), c.Before ts rest → c.depth ≤ limit → j.Fits c rest →
    j.work rest < n → Reads ts limit (go j) c (j.expected limit c rest)

/-- A job begins here while jobs with less work are served. -/
structure Begins (ts : Tokens) (limit : Nat) (go : (j : Job) → Scan j.Tree) (j : Job) (c : Cursor)
    (rest : Tokens) : Prop where
  serves : Serves ts limit go (j.work rest)
  before : c.Before ts rest
  depth_le : c.depth ≤ limit

section Jobs

variable {go : (j : Job) → Scan j.Tree} {j₀ : Job} {c c' : Cursor} {rest rest' : Tokens}

namespace Begins

/-- A job of lower rank, before any token is stepped over. -/
theorem here (h : Begins ts limit go j₀ c rest) (j : Job) (hrank : j.rank < j₀.rank)
    (hfits : j.Fits c rest) : Reads ts limit (go j) c (j.expected limit c rest) :=
  h.serves j c rest h.before h.depth_le hfits (Job.work_lt_of_rank hrank)

/-- Any job, once a token has been stepped over, with the levels and the function of a cursor. -/
theorem elsewhere (h : Begins ts limit go j₀ c rest) (base : Cursor) (j : Job)
    (hafter : c'.After base) (hle : base.depth ≤ limit) (hbefore : c'.Before ts rest')
    (hlt : rest'.length < rest.length) (hfits : j.Fits c' rest') :
    Reads ts limit (go j) c' (j.expected limit base rest') := by
  rw [← Job.expected_of_after hafter]
  exact h.serves j c' rest' hbefore (hafter.depth_eq ▸ hle) hfits (Job.work_lt_of_shorter hlt)

/-- A job for fewer tokens has been done. -/
theorem later (h : Begins ts limit go j₀ c rest) (j : Job) (hafter : c'.After c)
    (hbefore : c'.Before ts rest') (hlt : rest'.length < rest.length) (hfits : j.Fits c' rest') :
    Reads ts limit (go j) c' (j.expected limit c rest') :=
  h.elsewhere c j hafter h.depth_le hbefore hlt hfits

theorem deeper (h : Begins ts limit go j₀ c rest) (j : Job) (hafter : c'.After c)
    (hbefore : c'.Before ts rest') (hlt : rest'.length < rest.length) (hlimit : c.depth < limit)
    (hfits : j.Fits c'.deeper rest') :
    Reads ts limit (go j) c'.deeper (j.expected limit c.deeper rest') :=
  h.elsewhere c.deeper j
    ⟨congrArg (· + 1) hafter.depth_eq, hafter.inFunction_eq, hafter.forward⟩ hlimit
    hbefore.deeper hlt hfits

end Begins

/-- One level deeper the budget is smaller by one. -/
theorem budget_eq (h : c.depth < limit) : limit - c.depth = limit - c.deeper.depth + 1 := by
  show limit - c.depth = limit - (c.depth + 1) + 1
  omega

/-! ### Expressions -/

/-- An expression within the limit. -/
theorem reads_expression (h : Begins ts limit go .expression c rest) :
    Reads ts limit (perform ts limit go .expression) c (Job.expected limit c rest .expression) := by
  refine reads_logged h.before h.depth_le
    (reads_nested h.before h.depth_le (fun hlimit => ?_) fun hlimit => ?_) rfl
  · rw [Cursor.expression, hlimit, Nat.sub_self]
    rfl
  · rw [Cursor.expression, budget_eq hlimit]
    exact h.serves (.level .equality) c.deeper rest h.before.deeper hlimit trivial
      (Job.work_lt_of_rank (by decide))

/-- What a level begins with, whether or not the cursor has moved. -/
theorem reads_tighter {l : Level} (h : ∀ j : Job, j.rank < (Job.level l).rank → j.Fits c' rest →
      Reads ts limit (go j) c' (j.expected limit c rest)) :
    Reads ts limit (tighter go l) c' (outcome (l.operands (c.operand limit) rest)) := by
  cases l with
  | equality => exact h (.level .comparison) (by decide) trivial
  | comparison => exact h (.level .term) (by decide) trivial
  | term => exact h (.level .factor) (by decide) trivial
  | factor => exact h .unary (by decide) trivial

/-- A level begins with an operand. -/
theorem reads_level {l : Level} (h : Begins ts limit go (.level l) c rest) :
    Reads ts limit (perform ts limit go (.level l)) c (Job.expected limit c rest (.level l)) := by
  refine reads_logged h.before h.depth_le ?_ rfl
  refine (reads_tighter h.here).andThen fun first c' rest' hlt hafter hbefore => ?_
  rw [Parser.outcome_widen]
  exact h.later (.operators l first) hafter hbefore hlt trivial

/-- An operator asks for one operand more. -/
theorem reads_operators {l : Level} {left : Expr}
    (h : Begins ts limit go (.operators l left) c rest) :
    Reads ts limit (perform ts limit go (.operators l left)) c
      (Job.expected limit c rest (.operators l left)) := by
  refine reads_peek h.before ?_
  rcases rest with _ | ⟨t, tail⟩
  · rw [Job.expected, Parser.chainFrom]
    exact reads_pure h.before left
  · have hahead : (ahead (t :: tail)).bind l.operator = l.operator t.token := rfl
    rw [Job.expected, Parser.chainFrom, hahead]
    cases hop : l.operator t.token with
    | none => exact reads_pure h.before left
    | some op =>
        have hlt : tail.length < (t :: tail).length := Parser.length_tail t tail
        rw [Parser.outcome_widen]
        refine reads_bump ?_
        have hright := reads_tighter (l := l) fun j _ hfits =>
          h.later j c.after_next h.before.next hlt hfits
        refine hright.andThen fun right c' rest' hlt' hafter hbefore => ?_
        rw [Parser.outcome_widen]
        exact h.later (.operators l (.binary op left right)) (hafter.trans c.after_next) hbefore
          (Nat.lt_trans hlt' hlt) trivial

/-- An operand of the phrases, with its own expressions. -/
theorem operand_eq (limit : Nat) (c : Cursor) :
    c.operand limit =
      Parser.operandWith (Parser.innerOperand limit (limit - c.depth)) (c.expression limit) :=
  Parser.operand_eq limit _

/-- A prefix operator stands before an operand that is one level deeper. -/
theorem reads_prefixed {t : Located} {tail : Tokens} (op : PrefixOp)
    (h : Begins ts limit go .unary c (t :: tail))
    (hop : c.operand limit (t :: tail) = Parser.mapTree (.prefixed op)
      (Parser.widen (Nat.le_succ _) (Parser.innerOperand limit (limit - c.depth) tail))) :
    Reads ts limit (prefixed ts limit go op) c (outcome (c.operand limit (t :: tail))) := by
  rw [hop, Parser.outcome_mapTree, Parser.outcome_widen]
  refine reads_bump (.map (reads_nested h.before.next h.depth_le (fun hlimit => ?_)
    fun hlimit => ?_) _)
  · rw [show c.depth = limit from hlimit, Nat.sub_self]
    rfl
  · rw [budget_eq (show c.depth < limit from hlimit)]
    exact h.deeper .unary c.after_next h.before.next (Parser.length_tail t tail) hlimit trivial

/-- A prefix operator, or none. -/
theorem reads_unary (h : Begins ts limit go .unary c rest) :
    Reads ts limit (perform ts limit go .unary) c (Job.expected limit c rest .unary) := by
  refine reads_logged h.before h.depth_le (reads_peek h.before ?_) rfl
  split
  · rename_i hbang
    rcases exists_of_ahead hbang with ⟨line, tail, rfl⟩
    exact reads_prefixed .not h (by rw [operand_eq]; rfl)
  · rename_i hminus
    rcases exists_of_ahead hminus with ⟨line, tail, rfl⟩
    exact reads_prefixed .neg h (by rw [operand_eq]; rfl)
  · rename_i hbang hminus
    exact h.here .call (by decide) ⟨hbang, hminus⟩

/-- The arguments after an opening parenthesis. -/
theorem reads_arguments (h : Begins ts limit go .arguments c rest) :
    Reads ts limit (perform ts limit go .arguments) c (Job.expected limit c rest .arguments) := by
  rw [Job.expected, Parser.argumentsFrom]
  refine (h.here .expression (by decide) trivial).andThen
    fun first c' rest' hlt hafter hbefore => ?_
  by_cases hcomma : ahead rest' = some (.symbol .comma)
  · rcases exists_of_ahead hcomma with ⟨line, tail, rfl⟩
    refine .step (eat_of_ahead hbefore hcomma) c'.after_next ?_
    have hlt' : tail.length < rest.length := Nat.lt_trans (Parser.length_tail _ tail) hlt
    have hothers := h.later .arguments (c'.after_next.trans hafter) hbefore.next hlt' trivial
    simp only [if_true, Parser.outcome_mapTree, Parser.outcome_widen]
    exact hothers.map _
  · refine .step (eat_of_not_ahead hbefore hcomma) (.refl c') ?_
    have hdone : Reads ts limit (pure [first]) c' (.ok ([first], rest')) := reads_pure hbefore _
    rcases rest' with _ | ⟨t, tail⟩
    · exact hdone
    · have htoken : t.token ≠ .symbol .comma := fun ht => hcomma (congrArg some ht)
      simp only [if_neg htoken]
      exact hdone

/-- What comes of arguments with their parenthesis. -/
theorem outcome_arguments (p : Phrase Expr) (rest : Tokens) :
    outcome (Parser.arguments p rest) =
      closed .closeArguments rest (outcome (Parser.argumentsFrom p rest)) := by
  unfold Parser.arguments
  split
  · rfl
  · rename_i hother
    have hclose : ahead rest ≠ some (.symbol .closeParen) := by
      intro hahead
      rcases exists_of_ahead hahead with ⟨line, tail, rfl⟩
      exact hother _ _ rfl
    rw [closed, if_neg hclose]
    exact outcome_closing .closeArguments

/-- A call with its arguments. -/
theorem reads_namedCall {name : String} {line line' : Nat} {tail : Tokens}
    (h : Begins ts limit go .call c (⟨.ident name, line⟩ :: ⟨.symbol .openParen, line'⟩ :: tail)) :
    Reads ts limit (namedCall ts go) c
      (outcome (c.operand limit
        (⟨.ident name, line⟩ :: ⟨.symbol .openParen, line'⟩ :: tail))) := by
  have hmodel : outcome (c.operand limit
        (⟨.ident name, line⟩ :: ⟨.symbol .openParen, line'⟩ :: tail)) =
      (outcome (Parser.arguments (c.expression limit) tail)).map
        fun read => (.call (normalizeName name) read.1, read.2) := by
    rw [operand_eq]
    show outcome (Parser.mapTree _ (Parser.widen _ _)) = _
    rw [Parser.outcome_mapTree, Parser.outcome_widen]
  have hbefore := h.before.next.next
  have hargs := h.later .arguments (c.next.after_next.trans c.after_next) hbefore
    (Nat.lt_add_of_pos_right (Nat.succ_pos 1)) trivial
  rw [hmodel, outcome_arguments]
  refine .step (nameOr_of_ahead h.before rfl) c.after_next (reads_bump ?_)
  exact (reads_listed hbefore .closeArguments hargs).map _

/-- A name is a call if a parenthesis follows. -/
theorem reads_call (h : Begins ts limit go .call c rest) (hfits : Job.call.Fits c rest) :
    Reads ts limit (perform ts limit go .call) c (Job.expected limit c rest .call) := by
  refine reads_logged h.before h.depth_le (reads_peek h.before ?_) rfl
  split
  · rename_i name hname
    rcases exists_of_ahead hname with ⟨line, tail, rfl⟩
    refine .step (peekNext_eq h.before) (.refl c) ?_
    split
    · rename_i hparen
      rcases exists_of_ahead hparen with ⟨line', inner, hinner⟩
      cases hinner
      exact reads_namedCall h
    · rename_i hparen
      exact h.here .primary (by decide) ⟨hfits, fun _ _ => hparen⟩
  · rename_i hother
    exact h.here .primary (by decide) ⟨hfits, fun name hname => absurd hname (hother name)⟩

theorem reads_parenthesized {t : Located} {tail : Tokens}
    (h : Begins ts limit go .primary c (t :: tail)) :
    Reads ts limit (parenthesized ts go) c.next
      (outcome (Parser.parenthesized (c.expression limit) tail)) := by
  refine (h.later .expression c.after_next h.before.next (Parser.length_tail t tail)
    trivial).andThen fun e c' rest' hlt hafter hbefore => ?_
  rw [Parser.outcome_mapTree, Parser.outcome_widen]
  exact (reads_expect hbefore .closeParen .closeParen).map fun _ => e

theorem nameOrCall_of_not_ahead {p : Phrase Expr} {name : String} {rest : Tokens}
    (h : ahead rest ≠ some (.symbol .openParen)) :
    Parser.nameOrCall p name rest = Parser.finish (.name name) rest (Nat.lt_succ_self _) := by
  unfold Parser.nameOrCall
  split
  · exact absurd rfl h
  · rfl

/-- By the token that is ahead. -/
theorem reads_primary (h : Begins ts limit go .primary c rest)
    (hfits : Job.primary.Fits c rest) :
    Reads ts limit (perform ts limit go .primary) c (Job.expected limit c rest .primary) := by
  refine reads_logged h.before h.depth_le (.step rfl (.refl c) ?_) rfl
  rw [operand_eq]
  rcases rest with _ | ⟨⟨token, line⟩, tail⟩
  · exact .step (advance_nil h.before) (.refl c) (reads_refuseAt h.before h.before)
  · refine .step (advance_cons h.before) c.after_next ?_
    have hbefore := h.before.next
    -- The position has already moved on when the token is looked at, so a refusal is put back to
    -- it.
    have hrefused : Reads ts limit (refuseAt ts c.pos : Scan Expr) c.next
        (.error ⟨.noOperand, ⟨token, line⟩ :: tail⟩) :=
      reads_refuseAt h.before hbefore
    cases token with
    | number x => exact reads_pure hbefore _
    | text s => exact reads_pure hbefore _
    | ident name =>
        show Reads ts limit _ c.next (outcome (Parser.nameOrCall _ _ tail))
        have hparen : ahead tail ≠ some (.symbol .openParen) := hfits.2 name rfl
        rw [nameOrCall_of_not_ahead hparen]
        exact reads_pure hbefore _
    | keyword k =>
        cases k with
        | true => exact reads_pure hbefore _
        | false => exact reads_pure hbefore _
        | null => exact reads_pure hbefore _
        | _ => exact hrefused
    | symbol s =>
        cases s with
        | openParen =>
            show Reads ts limit _ c.next (outcome (Parser.widen (Nat.le_succ _) _))
            rw [Parser.outcome_widen]
            exact reads_parenthesized h
        -- A prefix operator or a call never gets here: the routines above have taken it.
        | bang => exact absurd rfl hfits.1.1
        | minus => exact absurd rfl hfits.1.2
        | _ => exact hrefused

/-! ### Statements -/

/-- The parts of a statement have the expressions of its depth. -/
theorem expression_parts (limit : Nat) (c : Cursor) :
    (c.parts limit).expression = c.expression limit :=
  Parser.expression_parts limit c.inFunction _

/-- They have the blocks of a function, in which none is declared. -/
theorem functionBody_parts (limit : Nat) (c : Cursor) :
    (c.parts limit).functionBody = ((c.within true).parts limit).block := by
  show (Parser.parts limit c.inFunction (limit - c.depth)).functionBody =
    (Parser.parts limit true (limit - c.depth)).block
  cases limit - c.depth <;> rfl

/-- An expression inside a statement. -/
theorem Begins.expression (h : Begins ts limit go j₀ c rest) (hafter : c'.After c)
    (hbefore : c'.Before ts rest') (hlt : rest'.length < rest.length) :
    Reads ts limit (go .expression) c' (outcome ((c.parts limit).expression rest')) := by
  rw [expression_parts]
  exact h.later .expression hafter hbefore hlt trivial

/-- What begins with none of the keywords is an expression. -/
theorem bareStatement_of_other {ps : Parser.Parts} {inFunction : Bool}
    (hfunc : ahead rest ≠ some (.keyword .func)) (hreturn : ahead rest ≠ some (.keyword .return))
    (hif : ahead rest ≠ some (.keyword .if)) (hwhile : ahead rest ≠ some (.keyword .while))
    (hassign : ∀ name, ahead rest = some (.ident name) →
      ahead rest.tail ≠ some (.symbol .assign)) :
    Parser.bareStatement inFunction ps rest = Parser.mapTree .eval (ps.expression rest) := by
  unfold Parser.bareStatement
  split
  · exact absurd rfl hfunc
  · exact absurd rfl hreturn
  · exact absurd rfl hif
  · exact absurd rfl hwhile
  · exact absurd rfl (hassign _ rfl)
  · rfl

/-- By the token that is ahead, and for an assignment by the one after it. -/
theorem reads_bareStatement (h : Begins ts limit go .statement c rest) :
    Reads ts limit (bareStatement ts go) c (outcome (c.bare limit rest)) := by
  have hevaluated (heval : c.bare limit rest =
      Parser.mapTree .eval ((c.parts limit).expression rest)) :
      Reads ts limit (evaluated go) c (outcome (c.bare limit rest)) := by
    rw [heval, expression_parts, Parser.outcome_mapTree]
    exact (h.here .expression (by decide) trivial).map Stmt.eval
  refine reads_peek h.before ?_
  split
  · rename_i hfunc
    exact h.here .declaration (by decide) hfunc
  · rename_i hreturn
    exact h.here .returned (by decide) hreturn
  · rename_i hif
    exact h.here .conditional (by decide) hif
  · rename_i hwhile
    exact h.here .loop (by decide) hwhile
  · -- A name alone does not tell an assignment from an expression; the token behind it does.
    rename_i name hname
    refine .step (peekNext_eq h.before) (.refl c) ?_
    split
    · rename_i hassign
      exact h.here .assignment (by decide) ⟨name, hname, hassign⟩
    · rename_i hassign
      have hne (k : Keyword) : ahead rest ≠ some (.keyword k) := by
        rw [hname]
        nofun
      exact hevaluated (bareStatement_of_other (hne _) (hne _) (hne _) (hne _) fun _ _ => hassign)
  · rename_i hfunc hreturn hif hwhile hident
    exact hevaluated (bareStatement_of_other hfunc hreturn hif hwhile
      fun name hname => absurd hname (hident name))

/-- A statement with its semicolon. -/
theorem reads_statement (h : Begins ts limit go .statement c rest) :
    Reads ts limit (perform ts limit go .statement) c (Job.expected limit c rest .statement) := by
  refine reads_logged h.before h.depth_le ?_ rfl
  refine (reads_bareStatement h).andThen fun s c' rest' hlt hafter hbefore => ?_
  by_cases hsemicolon : ahead rest' = some (.symbol .semicolon)
  · rcases exists_of_ahead hsemicolon with ⟨line, tail, rfl⟩
    exact .step (eat_of_ahead hbefore hsemicolon) c'.after_next (reads_pure hbefore.next s)
  · refine .step (eat_of_not_ahead hbefore hsemicolon) (.refl c') ?_
    split
    · exact absurd rfl hsemicolon
    · exact reads_pure hbefore s

/-- A return with a value or without. -/
theorem reads_returned (h : Begins ts limit go .returned c rest)
    (hfits : Job.returned.Fits c rest) :
    Reads ts limit (perform ts limit go .returned) c (Job.expected limit c rest .returned) := by
  rcases exists_of_ahead hfits with ⟨line, tail, rfl⟩
  have hbefore := h.before.next
  refine reads_logged h.before h.depth_le (reads_bump (reads_peek hbefore ?_)) rfl
  show Reads ts limit _ c.next (outcome (Parser.returned (c.parts limit) tail))
  have hdone : Reads ts limit (pure (.ret none)) c.next (.ok (Stmt.ret none, tail)) :=
    reads_pure hbefore _
  split
  · rename_i hnone
    rcases tail with _ | ⟨t, tail⟩
    · exact hdone
    · cases hnone
  · rename_i hclose
    rcases exists_of_ahead hclose with ⟨line', tail, rfl⟩
    rw [Parser.returned, if_pos (.inl rfl)]
    exact hdone
  · rename_i hsemicolon
    rcases exists_of_ahead hsemicolon with ⟨line', tail, rfl⟩
    rw [Parser.returned, if_pos (.inr rfl)]
    exact hdone
  · -- Anything else is taken for the start of a value.
    rename_i t hclose hsemicolon hsome
    rcases exists_of_ahead hsome with ⟨line', tail, rfl⟩
    have hvalue := h.expression c.after_next hbefore (Parser.length_tail _ _)
    have hends : ¬(t = .symbol .closeBrace ∨ t = .symbol .semicolon) := by
      rintro (rfl | rfl)
      · exact hclose rfl
      · exact hsemicolon rfl
    rw [Parser.returned, if_neg hends, Parser.outcome_mapTree, Parser.outcome_widen]
    exact hvalue.map _

/-- An `else` goes on with a block, or with a conditional that is one level deeper. -/
theorem reads_alternative (h : Begins ts limit go .conditional c rest) (hafter : c'.After c)
    (hbefore : c'.Before ts rest') (hlt : rest'.length < rest.length) :
    Reads ts limit (alternative ts limit go) c'
      (outcome (Parser.alternative (c.parts limit) rest')) := by
  by_cases hif : ahead rest' = some (.keyword .if)
  · rcases exists_of_ahead hif with ⟨line, tail, rfl⟩
    refine .step (check_of_ahead hbefore hif) (.refl c') ?_
    have hle : c'.depth ≤ limit := hafter.depth_eq ▸ h.depth_le
    rw [Parser.alternative, Parser.outcome_mapTree]
    refine .map (reads_nested hbefore hle (fun hlimit => ?_) fun hlimit => ?_) _
    · rw [hafter.depth_eq] at hlimit
      rw [Cursor.parts, hlimit, Nat.sub_self]
      rfl
    · rw [hafter.depth_eq] at hlimit
      rw [Cursor.parts, budget_eq hlimit]
      exact h.deeper .conditional hafter hbefore hlt hlimit hif
  · refine .step (check_of_not_ahead hbefore hif) (.refl c') ?_
    have hblock : Parser.alternative (c.parts limit) rest' = (c.parts limit).block rest' := by
      unfold Parser.alternative
      split
      · exact absurd rfl hif
      · rfl
    rw [hblock]
    exact h.later .block hafter hbefore hlt trivial

theorem reads_conditional (h : Begins ts limit go .conditional c rest)
    (hfits : Job.conditional.Fits c rest) :
    Reads ts limit (perform ts limit go .conditional) c
      (Job.expected limit c rest .conditional) := by
  rcases exists_of_ahead hfits with ⟨line, tail, rfl⟩
  have htail : tail.length < tail.length + 1 := Nat.lt_succ_self _
  refine reads_logged h.before h.depth_le (reads_bump ?_) rfl
  show Reads ts limit _ c.next
    (outcome (Parser.widen (Nat.le_succ _) (Parser.conditional (c.parts limit) tail)))
  rw [Parser.outcome_widen]
  refine (h.expression c.after_next h.before.next htail).andThen
    fun test c₁ rest₁ hlt₁ hafter₁ hbefore₁ => ?_
  have hafter₁ := hafter₁.trans c.after_next
  have hblock : Reads ts limit (go .block) c₁
      (outcome (Parser.widen (Nat.le_of_lt hlt₁) ((c.parts limit).block rest₁))) := by
    rw [Parser.outcome_widen]
    exact h.later .block hafter₁ hbefore₁ (Nat.lt_trans hlt₁ htail) trivial
  refine hblock.andThen fun body c₂ rest₂ hlt₂ hafter₂ hbefore₂ => ?_
  have hafter₂ := hafter₂.trans hafter₁
  -- The parts of the statement that are behind its `else` are read only here.
  by_cases helse : ahead rest₂ = some (.keyword .else)
  · rcases exists_of_ahead helse with ⟨line', rest₃, rfl⟩
    refine .step (eat_of_ahead hbefore₂ helse) c₂.after_next ?_
    have halternative := reads_alternative h (c₂.after_next.trans hafter₂) hbefore₂.next
      (Nat.lt_trans (Parser.length_tail _ rest₃) (Nat.lt_trans hlt₂ htail))
    simp only [Parser.outcome_mapTree, Parser.outcome_widen]
    exact halternative.map _
  · refine .step (eat_of_not_ahead hbefore₂ helse) (.refl c₂) ?_
    show Reads ts limit (pure (Stmt.when test body)) c₂ _
    split
    · exact absurd rfl helse
    · exact reads_pure hbefore₂ _

theorem reads_loop (h : Begins ts limit go .loop c rest) (hfits : Job.loop.Fits c rest) :
    Reads ts limit (perform ts limit go .loop) c (Job.expected limit c rest .loop) := by
  rcases exists_of_ahead hfits with ⟨line, tail, rfl⟩
  have htail : tail.length < tail.length + 1 := Nat.lt_succ_self _
  refine reads_logged h.before h.depth_le (reads_bump ?_) rfl
  show Reads ts limit _ c.next
    (outcome (Parser.widen (Nat.le_succ _) (Parser.loop (c.parts limit) tail)))
  rw [Parser.outcome_widen]
  refine (h.expression c.after_next h.before.next htail).andThen
    fun test c₁ rest₁ hlt₁ hafter₁ hbefore₁ => ?_
  have hafter₁ := hafter₁.trans c.after_next
  rw [Parser.outcome_mapTree, Parser.outcome_widen]
  exact (h.later .block hafter₁ hbefore₁ (Nat.lt_trans hlt₁ htail) trivial).map _

theorem reads_assignment (h : Begins ts limit go .assignment c rest)
    (hfits : Job.assignment.Fits c rest) :
    Reads ts limit (perform ts limit go .assignment) c
      (Job.expected limit c rest .assignment) := by
  rcases hfits with ⟨name, hname, hassign⟩
  rcases exists_of_ahead hname with ⟨line, rest, rfl⟩
  rcases exists_of_ahead hassign with ⟨line', tail, htail⟩
  cases htail
  refine reads_logged h.before h.depth_le (.step (nameOr_of_ahead h.before hname) c.after_next
    (reads_bump ?_)) rfl
  show Reads ts limit _ c.next.next (outcome (Parser.mapTree _
    (Parser.widen (Nat.le_add_right tail.length 2) ((c.parts limit).expression tail))))
  rw [Parser.outcome_mapTree, Parser.outcome_widen]
  exact (h.expression (c.next.after_next.trans c.after_next) h.before.next.next
    (Nat.lt_add_of_pos_right (Nat.succ_pos 1))).map _

/-! ### Declarations -/

/-- A parameter is compared with those before it. -/
theorem reads_parameters {seen : List String} (h : Begins ts limit go (.parameters seen) c rest) :
    Reads ts limit (perform ts limit go (.parameters seen)) c
      (Job.expected limit c rest (.parameters seen)) := by
  rw [Job.expected, Parser.parametersFrom]
  refine (reads_name h.before .parameterName).andThen fun name c' rest' hlt hafter hbefore => ?_
  by_cases hseen : name ∈ seen
  · simp only [if_pos hseen]
    exact reads_refuse hbefore _
  · simp only [if_neg hseen]
    by_cases hcomma : ahead rest' = some (.symbol .comma)
    · rcases exists_of_ahead hcomma with ⟨line, tail, rfl⟩
      refine .step (eat_of_ahead hbefore hcomma) c'.after_next ?_
      simp only [if_true, Parser.outcome_widen]
      exact h.later (.parameters (seen ++ [name])) (c'.after_next.trans hafter) hbefore.next
        (Nat.lt_trans (Parser.length_tail _ tail) hlt) trivial
    · refine .step (eat_of_not_ahead hbefore hcomma) (.refl c') ?_
      have hdone : Reads ts limit (pure (seen ++ [name])) c' (.ok (seen ++ [name], rest')) :=
        reads_pure hbefore _
      rcases rest' with _ | ⟨t, tail⟩
      · exact hdone
      · have htoken : t.token ≠ .symbol .comma := fun ht => hcomma (congrArg some ht)
        simp only [if_neg htoken]
        exact hdone

/-- Parameters in parentheses. -/
theorem reads_parameterList (h : Begins ts limit go j₀ c rest) (hafter : c'.After c)
    (hbefore : c'.Before ts rest') (hlt : rest'.length < rest.length) :
    Reads ts limit (parameterList ts go) c' (outcome (Parser.parameters rest')) := by
  refine (reads_expect hbefore .openParen .openParen).andThen
    fun _ c₁ rest₁ hlt₁ hafter₁ hbefore₁ => ?_
  have hparams := h.later (.parameters []) (hafter₁.trans hafter) hbefore₁
    (Nat.lt_trans hlt₁ hlt) trivial
  have hlisted := reads_listed hbefore₁ .closeParen hparams
  -- The scan decides after the parenthesis whether the list is empty, the parser before; the same
  -- token tells.
  by_cases hclose : ahead rest₁ = some (.symbol .closeParen)
  · rw [closed, if_pos hclose] at hlisted
    rcases exists_of_ahead hclose with ⟨line, tail, rfl⟩
    exact hlisted
  · rw [closed, if_neg hclose] at hlisted
    split
    · exact absurd rfl hclose
    · rw [outcome_closing, Parser.outcome_widen]
      exact hlisted

/-- A declaration outside of any function. -/
theorem reads_declarationAtKeyword {t : Located} {tail : Tokens}
    (h : Begins ts limit go .declaration c (t :: tail)) (houtside : c.inFunction = false) :
    Reads ts limit (declarationAtKeyword ts go) c
      (outcome (Parser.declaration (c.parts limit) tail)) := by
  have htail : tail.length < tail.length + 1 := Nat.lt_succ_self _
  refine reads_bump ((reads_name h.before.next .functionName).andThen
    fun name c₁ rest₁ hlt₁ hafter₁ hbefore₁ => ?_)
  have hafter₁ := hafter₁.trans c.after_next
  have hparams : Reads ts limit (parameterList ts go) c₁
      (outcome (Parser.widen (Nat.le_of_lt hlt₁) (Parser.parameters rest₁))) := by
    rw [Parser.outcome_widen]
    exact reads_parameterList h hafter₁ hbefore₁ (Nat.lt_trans hlt₁ htail)
  refine hparams.andThen fun params c₂ rest₂ hlt₂ hafter₂ hbefore₂ => ?_
  have hafter₂ := hafter₂.trans hafter₁
  rw [Parser.outcome_mapTree, Parser.outcome_widen, functionBody_parts]
  refine (reads_insideFunction (hafter₂.inFunction_eq.trans houtside) ?_).map _
  -- Inside the body declarations are out of place, so the job starts from another cursor.
  exact h.elsewhere (c.within true) .block ⟨hafter₂.depth_eq, rfl, hafter₂.forward⟩
    h.depth_le ⟨hbefore₂.within, hbefore₂.drop_eq⟩ (Nat.lt_trans hlt₂ htail) trivial

/-- Within a function it is refused. -/
theorem reads_declaration (h : Begins ts limit go .declaration c rest)
    (hfits : Job.declaration.Fits c rest) :
    Reads ts limit (perform ts limit go .declaration) c
      (Job.expected limit c rest .declaration) := by
  rcases exists_of_ahead hfits with ⟨line, tail, rfl⟩
  refine reads_logged h.before h.depth_le (.step (x := inFunction) rfl (.refl c) ?_) rfl
  show Reads ts limit _ c (outcome (if c.inFunction then _ else
    Parser.widen (Nat.le_succ _) (Parser.declaration (c.parts limit) tail)))
  by_cases hinside : c.inFunction
  · rw [if_pos hinside, if_pos hinside]
    exact reads_refuse h.before _
  · rw [if_neg hinside, if_neg hinside, Parser.outcome_widen]
    exact reads_declarationAtKeyword h (eq_false_of_ne_true hinside)

/-! ### Blocks -/

/-- A block within the limit. -/
theorem reads_block (h : Begins ts limit go .block c rest) :
    Reads ts limit (perform ts limit go .block) c (Job.expected limit c rest .block) := by
  refine reads_logged h.before h.depth_le
    (reads_nested h.before h.depth_le (fun hlimit => ?_) fun hlimit => ?_) rfl
  · rw [Cursor.parts, hlimit, Nat.sub_self]
    rfl
  · rw [Cursor.parts, budget_eq hlimit]
    exact h.serves .blockBody c.deeper rest h.before.deeper hlimit trivial
      (Job.work_lt_of_rank (by decide))

/-- What stands between braces. -/
theorem reads_blockBody (h : Begins ts limit go .blockBody c rest) :
    Reads ts limit (perform ts limit go .blockBody) c (Job.expected limit c rest .blockBody) := by
  have hbody : Reads ts limit (blockBody ts go) c
      (outcome (Parser.braces (Parser.terminated (c.bare limit)) rest)) := by
    refine (reads_expect h.before .openBrace .openBrace).andThen
      fun _ c' rest' hlt hafter hbefore => ?_
    rw [Parser.outcome_widen]
    exact h.later .blockTurns hafter hbefore hlt trivial
  refine reads_logged_inside h.before h.depth_le hbody (fun hr => by cases hr)
    fun _ ran hran inner hinner => ?_
  by_cases hopen : ahead rest = some (.symbol .openBrace)
  · -- whatever is called is called behind the brace
    rcases exists_of_ahead hopen with ⟨line, tail, rfl⟩
    rcases h.later .blockTurns c.after_next h.before.next (Parser.length_tail _ tail) trivial with
      ⟨ran', hran', horder, -⟩
    rw [blockBody, bind_of_ok (expect_of_ahead h.before hopen), hran'] at hran
    cases hran
    exact (horder.course.between inner hinner).1
  · rw [blockBody, bind_of_error (expect_of_not_ahead h.before hopen)] at hran
    cases hran
    cases hinner

/-- Turn after turn up to the closing brace. -/
theorem reads_blockTurns (h : Begins ts limit go .blockTurns c rest) :
    Reads ts limit (perform ts limit go .blockTurns) c
      (Job.expected limit c rest .blockTurns) := by
  by_cases hclose : ahead rest = some (.symbol .closeBrace)
  · rcases exists_of_ahead hclose with ⟨line, tail, rfl⟩
    rw [Job.expected, Parser.statementsFrom, if_pos rfl]
    exact .step (check_of_ahead h.before hclose) (.refl c)
      (reads_bump (reads_pure h.before.next _))
  · -- A turn that finds the tokens at an end refuses, with the brace that is missing.
    refine .step (check_of_not_ahead h.before hclose) (.refl c) ?_
    rcases rest with _ | ⟨t, tail⟩
    · have hturn : Reads ts limit (blockTurn ts go) c
          (outcome (Parser.stop (.expected .closeBrace) [] : Result Stmt 0)) :=
        .step (atEnd_eq h.before) (.refl c) (reads_refuse h.before _)
      rw [Job.expected, Parser.statementsFrom]
      exact (reads_logged h.before h.depth_le hturn rfl).fails
    · have htoken : t.token ≠ .symbol .closeBrace := fun ht => hclose (congrArg some ht)
      have hturn : Reads ts limit (blockTurn ts go) c
          (outcome (Parser.terminated (c.bare limit) (t :: tail))) :=
        .step (atEnd_eq h.before) (.refl c) (h.here .statement (by decide) trivial)
      rw [Job.expected, Parser.statementsFrom, if_neg htoken]
      refine (reads_logged h.before h.depth_le hturn rfl).andThen
        fun s c' rest' hlt hafter hbefore => ?_
      rw [Parser.outcome_mapTree, Parser.outcome_widen]
      exact (h.later .blockTurns hafter hbefore hlt trivial).map _

/-! ### Units -/

/-- Turn after turn up to the end. -/
theorem reads_unitTurns (h : Begins ts limit go .unitTurns c rest)
    (hfits : Job.unitTurns.Fits c rest) :
    Reads ts limit (perform ts limit go .unitTurns) c
      (Job.expected limit c rest .unitTurns) := by
  rcases rest with _ | ⟨t, tail⟩
  · rw [Job.expected, Parser.unit]
    exact .step (atEnd_eq h.before) (.refl c) (reads_pure h.before _)
  · refine .step (atEnd_eq h.before) (.refl c) ?_
    have hturn : Reads ts limit (logged .turn (go .statement)) c
        (outcome (Parser.statement limit false limit (t :: tail))) := by
      have hstatement := h.here .statement (by decide) trivial
      simp only [Job.expected, Cursor.bare, Cursor.parts, hfits.1, hfits.2, Nat.sub_zero]
        at hstatement
      exact reads_logged h.before h.depth_le hstatement rfl
    -- `unit` gives back no tokens, as it reads all there are; here each turn says what it leaves.
    have hmodel : (Parser.unit limit (t :: tail)).map (fun block => (block, [])) =
        (outcome (Parser.statement limit false limit (t :: tail))).bind fun read =>
          ((Parser.unit limit read.2).map fun block => (block, ([] : Tokens))).map
            fun others => (read.1 :: others.1, others.2) := by
      rw [Parser.unit_cons]
      cases Parser.statement limit false limit (t :: tail) with
      | error s => rfl
      | ok first =>
          show ((Parser.unit limit first.rest).bind _).map _ =
            ((Parser.unit limit first.rest).map _).map _
          cases Parser.unit limit first.rest <;> rfl
    rw [Job.expected, hmodel]
    refine hturn.seq _ fun s c' rest' heq hafter hbefore => ?_
    exact (h.later .unitTurns hafter hbefore (Parser.length_lt_of_outcome heq)
      ⟨hafter.depth_eq.trans hfits.1, hafter.inFunction_eq.trans hfits.2⟩).map _

end Jobs

/-! ## Runs -/

/-- A job whose parts are done with less work is done. -/
theorem Serves.perform {go : (j : Job) → Scan j.Tree} {n : Nat} (h : Serves ts limit go n) :
    Serves ts limit (perform ts limit go) (n + 1) := by
  intro j c rest hbefore hle hfits hwork
  have hbegins : Begins ts limit go j c rest :=
    ⟨fun j' c' rest' hbefore' hle' hfits' hless =>
      h j' c' rest' hbefore' hle' hfits' (Nat.lt_of_lt_of_le hless (Nat.le_of_lt_succ hwork)),
      hbefore, hle⟩
  -- Each routine asks only for jobs with less work, which is what `n` serves.
  cases j with
  | statement => exact reads_statement hbegins
  | block => exact reads_block hbegins
  | blockBody => exact reads_blockBody hbegins
  | declaration => exact reads_declaration hbegins hfits
  | returned => exact reads_returned hbegins hfits
  | conditional => exact reads_conditional hbegins hfits
  | loop => exact reads_loop hbegins hfits
  | assignment => exact reads_assignment hbegins hfits
  | expression => exact reads_expression hbegins
  | level l => exact reads_level hbegins
  | unary => exact reads_unary hbegins
  | call => exact reads_call hbegins hfits
  | primary => exact reads_primary hbegins hfits
  | unitTurns => exact reads_unitTurns hbegins hfits
  | blockTurns => exact reads_blockTurns hbegins
  | operators l left => exact reads_operators hbegins
  | arguments => exact reads_arguments hbegins
  | parameters seen => exact reads_parameters hbegins

/-- So every job is done with enough fuel, by induction on the fuel. -/
theorem serves_exec (ts : Tokens) (limit n : Nat) : Serves ts limit (exec ts limit n) n := by
  induction n with
  | zero => exact fun _ _ _ _ _ _ hwork => absurd hwork (Nat.not_lt_zero _)
  | succ n ih => exact ih.perform

end Descent
end Script
end ScriptHost
