import ScriptHost.Script.Compiler

/-!
# The descent, call by call

A phrase hands the tokens that are left from one parser to the next, and so cannot step back or
beyond the end. Here the same descent is written with a cursor: its routines move a position over
one row of tokens, count the levels of nesting that are open, and often step over a token without
looking at it again. Every call of a routine is kept with the calls made in its course, whether it
succeeds or not. Routines call each other in any order, so reading takes fuel.
-/

namespace ScriptHost
namespace Script
namespace Descent

open ScriptHost.Script.Parser (Tokens Stop)

/-! ## Cursors and calls -/

/-- The place of the next token, the number of open levels of nesting, and whether the body of a
function is being read. -/
structure Cursor where
  pos : Nat
  depth : Nat
  inFunction : Bool

namespace Cursor

/-- Before the first token, outside of any function. -/
def start : Cursor := ⟨0, 0, false⟩

/-- One token further. -/
def next (c : Cursor) : Cursor := { c with pos := c.pos + 1 }

/-- One level deeper. -/
def deeper (c : Cursor) : Cursor := { c with depth := c.depth + 1 }

def shallower (c : Cursor) : Cursor := { c with depth := c.depth - 1 }

/-- Inside of a function or not. -/
def within (inFunction : Bool) (c : Cursor) : Cursor := { c with inFunction := inFunction }

end Cursor

/-- The levels of binary operators, from the loosest to the tightest. -/
inductive Level
  | equality
  | comparison
  | term
  | factor

/-- What can be called. A turn of the loop over the statements of a unit or of a block counts as a
call of its own. -/
inductive Routine
  | statement
  | block
  | blockBody
  | declaration
  | returned
  | conditional
  | loop
  | assignment
  | expression
  | level (l : Level)
  | unary
  | call
  | primary
  | nested
  | turn

/-- A call that is over: where it began and ended, why it failed if it did, and the calls made in
its course, in order. -/
structure Call where
  routine : Routine
  entry : Cursor
  exit : Cursor
  failure : Option Stop
  calls : List Call

/-- Whether what a call runs is one level deeper. -/
def Call.levels (call : Call) : Nat :=
  match call.routine with
  | .nested => 1
  | _ => 0

/-- A turn of a loop over statements. -/
def Call.isTurn (call : Call) : Bool :=
  match call.routine with
  | .turn => true
  | _ => false

/-- The turns of a loop among the calls made in the course of the routine that has the loop. -/
def turns (calls : List Call) : List Call :=
  calls.filter (·.isTurn)

/-- The call was made in the course of these, or is one of them, and so many levels of nesting that
they have opened are still open. -/
inductive Made : List Call → Nat → Call → Prop
  | here {calls call} : call ∈ calls → Made calls 0 call
  | inside {calls outer k call} : outer ∈ calls → Made outer.calls k call →
      Made calls (outer.levels + k) call

/-! ## Scans -/

/-- What comes of reading: a tree or the reason to stop, where the cursor is then, and the calls
that were made. -/
structure Ran (α : Type) where
  result : Except Stop α
  cursor : Cursor
  calls : List Call

variable {α β : Type}

/-- Why the scan has stopped, if it has failed. -/
def Ran.failure (ran : Ran α) : Option Stop :=
  match ran.result with
  | .error s => some s
  | .ok _ => none

/-- Reading from a cursor on. Nothing comes of it if the fuel does not last. -/
def Scan (α : Type) :=
  Cursor → Option (Ran α)

/-- Goes on where `x` ends, unless it fails. -/
def Scan.bind (x : Scan α) (f : α → Scan β) : Scan β := fun c =>
  match x c with
  | none => none
  | some ⟨.error s, c', calls⟩ => some ⟨.error s, c', calls⟩
  | some ⟨.ok a, c', calls⟩ =>
      (f a c').map fun ran => { ran with calls := calls ++ ran.calls }

instance : Monad Scan where
  pure a := fun c => some ⟨.ok a, c, []⟩
  bind := Scan.bind

section Binds

variable {x : Scan α} {f : α → Scan β} {c c' : Cursor} {calls : List Call}

/-- A scan that fails keeps what comes after it from being done. -/
theorem bind_of_error {s : Stop} (h : x c = some ⟨.error s, c', calls⟩) :
    (x >>= f) c = some ⟨.error s, c', calls⟩ := by
  show Scan.bind x f c = _
  rw [Scan.bind, h]

/-- A scan that succeeds is followed by the other one, and the calls of both are noted. -/
theorem bind_of_ok {a : α} (h : x c = some ⟨.ok a, c', calls⟩) :
    (x >>= f) c = (f a c').map fun ran => { ran with calls := calls ++ ran.calls } := by
  show Scan.bind x f c = _
  rw [Scan.bind, h]

/-- Either the first part fails, or the second one goes on. -/
theorem bind_eq_some {ran : Ran β} (h : (x >>= f) c = some ran) :
    (∃ s c' calls, x c = some ⟨.error s, c', calls⟩ ∧ ran = ⟨.error s, c', calls⟩) ∨
    ∃ a c' calls later, x c = some ⟨.ok a, c', calls⟩ ∧ f a c' = some later ∧
      ran = { later with calls := calls ++ later.calls } := by
  cases hx : x c with
  | none =>
      have hnone : (x >>= f) c = none := by
        show Scan.bind x f c = _
        rw [Scan.bind, hx]
      cases hnone.symm.trans h
  | some first =>
      rcases first with ⟨result, c', calls⟩
      cases result with
      | error s =>
          rw [bind_of_error hx] at h
          exact .inl ⟨s, c', calls, rfl, (Option.some.inj h).symm⟩
      | ok a =>
          rw [bind_of_ok hx] at h
          rcases Option.map_eq_some_iff.1 h with ⟨later, hlater, heq⟩
          exact .inr ⟨a, c', calls, later, rfl, hlater, heq.symm⟩

end Binds

/-- Keeps the calls that `x` makes as those of one call of the routine. -/
def logged (r : Routine) (x : Scan α) : Scan α := fun c =>
  (x c).map fun ran =>
    { ran with calls := [⟨r, c, ran.cursor, ran.failure, ran.calls⟩] }

/-- A routine notes itself with the calls that it has made. -/
theorem logged_of_some {r : Routine} {x : Scan α} {c : Cursor} (ran : Ran α)
    (h : x c = some ran) :
    logged r x c =
      some { ran with calls := [⟨r, c, ran.cursor, ran.failure, ran.calls⟩] } := by
  rw [logged, h]
  rfl

/-- Reads as within the body of a function, whatever comes of it. -/
def insideFunction (x : Scan α) : Scan α := fun c =>
  (x (c.within true)).map fun ran => { ran with cursor := ran.cursor.within false }

section Tokens

variable (ts : Tokens)

/-- Looks at the next token without taking it. -/
def peek : Scan (Option Token) := fun c =>
  some ⟨.ok (ts[c.pos]?.map (·.token)), c, []⟩

def peekNext : Scan (Option Token) := fun c =>
  some ⟨.ok (ts[c.pos + 1]?.map (·.token)), c, []⟩

def inFunction : Scan Bool := fun c =>
  some ⟨.ok c.inFunction, c, []⟩

/-- Steps over a token without looking at it. -/
def bump : Scan Unit := fun c =>
  some ⟨.ok (), c.next, []⟩

/-- Stops before the tokens that are left. -/
def refuse (fault : SyntaxFault) : Scan α := fun c =>
  some ⟨.error ⟨fault, ts.drop c.pos⟩, c, []⟩

/-- Stops for want of an operand at a token that has been stepped over. -/
def refuseAt (pos : Nat) : Scan α := fun c =>
  some ⟨.error ⟨.noOperand, ts.drop pos⟩, c, []⟩

def position : Scan Nat := fun c =>
  some ⟨.ok c.pos, c, []⟩

def atEnd : Scan Bool := fun c =>
  some ⟨.ok (decide (ts.length ≤ c.pos)), c, []⟩

/-- Whether a token comes next. -/
def check (t : Token) : Scan Bool := do
  pure (decide ((← peek ts) = some t))

/-- Takes the next token, if there is one. -/
def advance : Scan (Option Token) := do
  match ← peek ts with
  | none => pure none
  | some t =>
      bump
      pure (some t)

/-- Steps over the given token if it comes next, and tells whether it did. -/
def eat (t : Token) : Scan Bool := do
  if ← check ts t then
    bump
    pure true
  else
    pure false

/-- Takes a symbol, or says what was expected. -/
def expect (s : Symbol) (what : Expectation) : Scan Unit := do
  if ← eat ts (.symbol s) then pure () else refuse ts (.expected what)

/-- An identifier in its lower-case form. -/
def nameOr (fault : SyntaxFault) : Scan String := do
  match ← peek ts with
  | some (.ident name) =>
      bump
      pure (normalizeName name)
  | _ => refuse ts fault

/-- Nothing if the closing parenthesis comes next. -/
def unlessClosed (x : Scan (List α)) : Scan (List α) := do
  if ← check ts (.symbol .closeParen) then pure [] else x

/-- What stands between parentheses, and the closing one. -/
def listed (what : Expectation) (x : Scan (List α)) : Scan (List α) := do
  let items ← unlessClosed ts x
  expect ts .closeParen what
  pure items

/-- Reads one level of nesting deeper if there is one left. -/
def nested (limit : Nat) (x : Scan α) : Scan α :=
  logged .nested fun c =>
    if limit ≤ c.depth then
      refuse ts (.tooDeep limit) c
    else
      (x c.deeper).map fun ran => { ran with cursor := ran.cursor.shallower }

section Nested

variable {limit : Nat} {x : Scan α} {c : Cursor}

/-- At the limit a nested phrase is refused. -/
theorem nested_of_le (h : limit ≤ c.depth) :
    nested ts limit x c =
      some ⟨.error ⟨.tooDeep limit, ts.drop c.pos⟩, c,
        [⟨.nested, c, c, some ⟨.tooDeep limit, ts.drop c.pos⟩, []⟩]⟩ :=
  logged_of_some ⟨.error ⟨.tooDeep limit, ts.drop c.pos⟩, c, []⟩ (if_pos h)

/-- Below the limit it is read one level deeper. -/
theorem nested_of_lt {ran : Ran α} (h : c.depth < limit) (hx : x c.deeper = some ran) :
    nested ts limit x c =
      some ⟨ran.result, ran.cursor.shallower,
        [⟨.nested, c, ran.cursor.shallower, ran.failure, ran.calls⟩]⟩ := by
  refine logged_of_some ⟨ran.result, ran.cursor.shallower, ran.calls⟩ ?_
  rw [if_neg (Nat.not_le_of_lt h), hx]
  rfl

end Nested

end Tokens

/-! ## Jobs -/

/-- What one routine can ask for: a call of another, or going on with a loop. -/
inductive Job
  | statement
  | block
  | blockBody
  | declaration
  | returned
  | conditional
  | loop
  | assignment
  | expression
  | level (l : Level)
  | unary
  | call
  | primary
  | unitTurns
  | blockTurns
  | operators (l : Level) (left : Expr)
  | arguments
  | parameters (seen : List String)

/-- What reading makes for a job. -/
abbrev Job.Tree : Job → Type
  | .statement | .declaration | .returned | .conditional | .loop | .assignment => Stmt
  | .block | .blockBody | .unitTurns | .blockTurns => Block
  | .arguments => List Expr
  | .parameters _ => List String
  | .expression | .level _ | .unary | .call | .primary | .operators _ _ => Expr

/-- The operators of a level. -/
def Level.operator : Level → Token → Option BinaryOp
  | .equality => Parser.equalityOp
  | .comparison => Parser.comparisonOp
  | .term => Parser.termOp
  | .factor => Parser.factorOp

section Routines

variable (ts : Tokens) (limit : Nat) (go : (j : Job) → Scan j.Tree)

/-! ### Expressions -/

/-- An expression is a level of nesting. -/
def expression : Scan Expr :=
  nested ts limit (go (.level .equality))

/-- The operands of a level are what the next tighter level reads. -/
def tighter : Level → Scan Expr
  | .equality => go (.level .comparison)
  | .comparison => go (.level .term)
  | .term => go (.level .factor)
  | .factor => go .unary

/-- Operands of the next level with operators between them. -/
def level (l : Level) : Scan Expr := do
  let first ← tighter go l
  go (.operators l first)

/-- The loop of a level. It ends at the first token that is no operator of the level. -/
def operators (l : Level) (left : Expr) : Scan Expr := do
  match (← peek ts).bind l.operator with
  | none => pure left
  | some op =>
      bump
      let right ← tighter go l
      go (.operators l (.binary op left right))

/-- A prefix operator with its operand. -/
def prefixed (op : PrefixOp) : Scan Expr := do
  bump
  let e ← nested ts limit (go .unary)
  pure (.prefixed op e)

def unary : Scan Expr := do
  match ← peek ts with
  | some (.symbol .bang) => prefixed ts limit go .not
  | some (.symbol .minus) => prefixed ts limit go .neg
  | _ => go .call

/-- Arguments up to the closing parenthesis. -/
def arguments : Scan (List Expr) := do
  let first ← go .expression
  if ← eat ts (.symbol .comma) then
    let others ← go .arguments
    pure (first :: others)
  else
    pure [first]

/-- A name with arguments. -/
def namedCall : Scan Expr := do
  let name ← nameOr ts (.expected .functionName)
  -- the parenthesis
  bump
  let args ← listed ts .closeArguments (go .arguments)
  pure (.call name args)

def call : Scan Expr := do
  match ← peek ts with
  | some (.ident _) =>
      if (← peekNext ts) = some (.symbol .openParen) then namedCall ts go else go .primary
  | _ => go .primary

/-- An expression in parentheses. -/
def parenthesized : Scan Expr := do
  let e ← go .expression
  expect ts .closeParen .closeParen
  pure e

/-- The token is stepped over before it is looked at; a refusal points back to it. -/
def primary : Scan Expr := do
  let here ← position
  match ← advance ts with
  | some (.number x) => pure (.literal (.number x))
  | some (.text s) => pure (.literal (.text s))
  | some (.keyword .true) => pure (.literal (.bool true))
  | some (.keyword .false) => pure (.literal (.bool false))
  | some (.keyword .null) => pure (.literal .null)
  | some (.ident name) => pure (.name (normalizeName name))
  | some (.symbol .openParen) => parenthesized ts go
  | _ => refuseAt ts here

/-! ### Statements -/

/-- An expression that stands as a statement. -/
def evaluated : Scan Stmt := do
  let e ← go .expression
  pure (.eval e)

/-- A statement without the semicolon that may end it. -/
def bareStatement : Scan Stmt := do
  match ← peek ts with
  | some (.keyword .func) => go .declaration
  | some (.keyword .return) => go .returned
  | some (.keyword .if) => go .conditional
  | some (.keyword .while) => go .loop
  | some (.ident _) =>
      if (← peekNext ts) = some (.symbol .assign) then go .assignment else evaluated go
  | _ => evaluated go

def statement : Scan Stmt := do
  let s ← bareStatement ts go
  let _ ← eat ts (.symbol .semicolon)
  pure s

/-- A block is a level of nesting as well. -/
def block : Scan Block :=
  nested ts limit (go .blockBody)

def blockBody : Scan Block := do
  expect ts .openBrace .openBrace
  go .blockTurns

/-- One statement of a block. -/
def blockTurn : Scan Stmt := do
  if ← atEnd ts then refuse ts (.expected .closeBrace) else go .statement

/-- The loop of a block. The closing brace ends it and is stepped over then. -/
def blockTurns : Scan Block := do
  if ← check ts (.symbol .closeBrace) then
    bump
    pure []
  else
    let s ← logged .turn (blockTurn ts go)
    let others ← go .blockTurns
    pure (s :: others)

/-- Parameters, no two of which may have the same name. -/
def parameters (seen : List String) : Scan (List String) := do
  let name ← nameOr ts (.expected .parameterName)
  if name ∈ seen then
    refuse ts (.duplicateParameter name)
  else if ← eat ts (.symbol .comma) then
    go (.parameters (seen ++ [name]))
  else
    pure (seen ++ [name])

def parameterList : Scan (List String) := do
  expect ts .openParen .openParen
  listed ts .closeParen (go (.parameters []))

def declarationAtKeyword : Scan Stmt := do
  bump
  let name ← nameOr ts (.expected .functionName)
  let params ← parameterList ts go
  let body ← insideFunction (go .block)
  pure (.func name params body)

/-- A function, unless it is declared in another one. -/
def declaration : Scan Stmt := do
  if ← inFunction then refuse ts .nestedFunction else declarationAtKeyword ts go

/-- A value is returned only within a function. -/
def returned : Scan Stmt := do
  bump
  match ← peek ts with
  | none | some (.symbol .closeBrace) | some (.symbol .semicolon) => pure (.ret none)
  | some _ =>
      let e ← go .expression
      pure (.ret (some e))

/-- What follows on an else. -/
def alternative : Scan Block := do
  if ← check ts (.keyword .if) then
    let inner ← nested ts limit (go .conditional)
    pure [inner]
  else
    go .block

def conditional : Scan Stmt := do
  bump
  let test ← go .expression
  let body ← go .block
  if ← eat ts (.keyword .else) then
    let otherwise ← alternative ts limit go
    pure (.choose test body otherwise)
  else
    pure (.when test body)

def loop : Scan Stmt := do
  bump
  let test ← go .expression
  let body ← go .block
  pure (.loop test body)

/-- The statement has looked at the name and at the sign behind it. -/
def assignment : Scan Stmt := do
  let name ← nameOr ts .noOperand
  bump
  let e ← go .expression
  pure (.assign name e)

/-! ### Units -/

/-- The loop of a unit. -/
def unitTurns : Scan Block := do
  if ← atEnd ts then
    pure []
  else
    let s ← logged .turn (go .statement)
    let others ← go .unitTurns
    pure (s :: others)

/-- One routine or one turn of a loop; `go` does what it asks for. -/
def perform : (j : Job) → Scan j.Tree
  | .statement => logged .statement (statement ts go)
  | .block => logged .block (block ts limit go)
  | .blockBody => logged .blockBody (blockBody ts go)
  | .declaration => logged .declaration (declaration ts go)
  | .returned => logged .returned (returned ts go)
  | .conditional => logged .conditional (conditional ts limit go)
  | .loop => logged .loop (loop go)
  | .assignment => logged .assignment (assignment ts go)
  | .expression => logged .expression (expression ts limit go)
  | .level l => logged (.level l) (level go l)
  | .unary => logged .unary (unary ts limit go)
  | .call => logged .call (call ts go)
  | .primary => logged .primary (primary ts go)
  | .unitTurns => unitTurns ts go
  | .blockTurns => blockTurns ts go
  | .operators l left => operators ts go l left
  | .arguments => arguments ts go
  | .parameters seen => parameters ts go seen

end Routines

/-- Does a job if the fuel lasts for the calls that stand within one another. -/
def exec (ts : Tokens) (limit : Nat) : Nat → (j : Job) → Scan j.Tree
  | 0, _ => fun _ => none
  | fuel + 1, j => perform ts limit (exec ts limit fuel) j

/-- Reads all statements of a unit. -/
def readUnit (ts : Tokens) (limit fuel : Nat) : Option (Ran Block) :=
  exec ts limit fuel .unitTurns .start

/-! ## More fuel -/

/-- Whatever comes of `x` comes of `y` too. -/
def Scan.Le (x y : Scan α) : Prop :=
  ∀ c ran, x c = some ran → y c = some ran

namespace Scan.Le

variable {x x' y y' : Scan α} {f f' : α → Scan β} {ts : Tokens} {limit : Nat}

/-- A scan does what it does. -/
theorem refl (x : Scan α) : x.Le x :=
  fun _ _ h => h

/-- One scan after the other. -/
theorem bind (hx : x.Le x') (hf : ∀ a, (f a).Le (f' a)) : (x >>= f).Le (x' >>= f') := by
  intro c ran h
  rcases bind_eq_some h with
    ⟨s, c', calls, hfirst, rfl⟩ | ⟨a, c', calls, later, hfirst, hlater, rfl⟩
  · exact bind_of_error (hx c _ hfirst)
  · rw [bind_of_ok (hx c _ hfirst), hf a c' later hlater]
    rfl

theorem ite {p : Prop} [Decidable p] (hx : x.Le x') (hy : y.Le y') :
    Scan.Le (if p then x else y) (if p then x' else y') := by
  by_cases hp : p
  · rw [if_pos hp, if_pos hp]
    exact hx
  · rw [if_neg hp, if_neg hp]
    exact hy

theorem logged (hx : x.Le x') (r : Routine) : (logged r x).Le (logged r x') := by
  intro c ran h
  rcases Option.map_eq_some_iff.1 h with ⟨inner, hinner, rfl⟩
  exact logged_of_some inner (hx c inner hinner)

theorem insideFunction (hx : x.Le x') : (insideFunction x).Le (insideFunction x') := by
  intro c ran h
  rcases Option.map_eq_some_iff.1 h with ⟨inner, hinner, rfl⟩
  rw [Descent.insideFunction, hx _ inner hinner]
  rfl

theorem nested (hx : x.Le x') : (nested ts limit x).Le (nested ts limit x') := by
  refine logged (fun c ran h => ?_) .nested
  by_cases hlimit : limit ≤ c.depth
  · rw [if_pos hlimit] at h ⊢
    exact h
  · rw [if_neg hlimit] at h ⊢
    rcases Option.map_eq_some_iff.1 h with ⟨inner, hinner, rfl⟩
    rw [hx _ inner hinner]
    rfl

theorem listed {x x' : Scan (List α)} {what : Expectation} (hx : x.Le x') :
    (listed ts what x).Le (listed ts what x') :=
  bind (bind (refl _) fun _ => ite (refl _) hx) fun _ => refl _

end Scan.Le

section Fuel

variable {ts : Tokens} {limit : Nat} {go go' : (j : Job) → Scan j.Tree}

/-- What a level calls may have more fuel. -/
theorem tighter_le (h : ∀ j, (go j).Le (go' j)) (l : Level) :
    (tighter go l).Le (tighter go' l) := by
  cases l with
  | equality => exact h (.level .comparison)
  | comparison => exact h (.level .term)
  | term => exact h (.level .factor)
  | factor => exact h .unary

theorem bareStatement_le (h : ∀ j, (go j).Le (go' j)) :
    (bareStatement ts go).Le (bareStatement ts go') := by
  have hevaluated : (evaluated go).Le (evaluated go') := .bind (h _) fun _ => .refl _
  refine .bind (.refl _) fun t => ?_
  split
  · exact h .declaration
  · exact h .returned
  · exact h .conditional
  · exact h .loop
  · exact .bind (.refl _) fun _ => .ite (h .assignment) hevaluated
  · exact hevaluated

/-- What a job asks for decides what comes of it. -/
theorem perform_le (h : ∀ j, (go j).Le (go' j)) (j : Job) :
    (perform ts limit go j).Le (perform ts limit go' j) := by
  have hprefixed (op : PrefixOp) : (prefixed ts limit go op).Le (prefixed ts limit go' op) :=
    .bind (.refl _) fun _ => .bind (.nested (h _)) fun _ => .refl _
  -- Each routine is built from `go` with `bind`, `nested`, `logged` and the like, all of which keep
  -- the order; what does not ask `go` is compared with itself.
  cases j with
  | statement => exact .logged (.bind (bareStatement_le h) fun _ => .refl _) _
  | block => exact .logged (.nested (h .blockBody)) _
  | blockBody => exact .logged (.bind (.refl _) fun _ => h .blockTurns) _
  | declaration =>
      refine .logged (.bind (.refl _) fun _ => .ite (.refl _) ?_) _
      refine .bind (.refl _) fun _ => .bind (.refl _) fun _ => .bind ?_ fun _ => ?_
      · exact .bind (.refl _) fun _ => .listed (h _)
      · exact .bind (.insideFunction (h _)) fun _ => .refl _
  | returned =>
      refine .logged (.bind (.refl _) fun _ => .bind (.refl _) fun t => ?_) _
      split
      · exact .refl _
      · exact .refl _
      · exact .refl _
      · exact .bind (h _) fun _ => .refl _
  | conditional =>
      refine .logged (.bind (.refl _) fun _ => .bind (h _) fun _ => .bind (h _) fun _ => ?_) _
      refine .bind (.refl _) fun _ => .ite (.bind (.bind (.refl _) fun _ => .ite ?_ (h _))
        fun _ => .refl _) (.refl _)
      exact .bind (.nested (h _)) fun _ => .refl _
  | loop =>
      exact .logged (.bind (.refl _) fun _ => .bind (h _) fun _ => .bind (h _) fun _ => .refl _) _
  | assignment =>
      exact .logged (.bind (.refl _) fun _ => .bind (.refl _) fun _ =>
        .bind (h _) fun _ => .refl _) _
  | expression => exact .logged (.nested (h (.level .equality))) _
  | level l => exact .logged (.bind (tighter_le h l) fun first => h (.operators l first)) _
  | unary =>
      refine .logged (.bind (.refl _) fun t => ?_) _
      split
      · exact hprefixed .not
      · exact hprefixed .neg
      · exact h _
  | call =>
      refine .logged (.bind (.refl _) fun t => ?_) _
      split
      · refine .bind (.refl _) fun _ => .ite ?_ (h _)
        exact .bind (.refl _) fun _ => .bind (.refl _) fun _ =>
          .bind (.listed (h _)) fun _ => .refl _
      · exact h _
  | primary =>
      refine .logged (.bind (.refl _) fun _ => .bind (.refl _) fun t => ?_) _
      split
      all_goals first | exact .refl _ | exact .bind (h _) fun _ => .refl _
  | unitTurns =>
      exact .bind (.refl _) fun _ => .ite (.refl _)
        (.bind (.logged (h _) _) fun _ => .bind (h _) fun _ => .refl _)
  | blockTurns =>
      refine .bind (.refl _) fun _ => .ite (.refl _) (.bind (.logged ?_ _) fun _ =>
        .bind (h _) fun _ => .refl _)
      exact .bind (.refl _) fun _ => .ite (.refl _) (h _)
  -- The turns of a loop are jobs too, so a loop is no different from a call here.
  | operators l left =>
      refine .bind (.refl _) fun t => ?_
      split
      · exact .refl _
      · exact .bind (.refl _) fun _ => .bind (tighter_le h l) fun _ => h _
  | arguments =>
      exact .bind (h _) fun _ => .bind (.refl _) fun _ => .ite
        (.bind (h _) fun _ => .refl _) (.refl _)
  | parameters seen =>
      exact .bind (.refl _) fun _ => .ite (.refl _) (.bind (.refl _) fun _ => .ite (h _) (.refl _))

/-- One more unit of fuel changes nothing that has come to an end. -/
theorem exec_le_succ (n : Nat) (j : Job) : (exec ts limit n j).Le (exec ts limit (n + 1) j) := by
  induction n generalizing j with
  | zero => exact fun c ran h => nomatch h
  | succ n ih => exact perform_le ih j

/-- What comes of a job stays the same with more fuel. -/
theorem exec_le {m n : Nat} (hle : m ≤ n) (j : Job) :
    (exec ts limit m j).Le (exec ts limit n j) := by
  induction hle with
  | refl => exact .refl _
  | step _ ih => exact fun c ran h => exec_le_succ _ j c ran (ih c ran h)

end Fuel

end Descent
end Script
end ScriptHost
