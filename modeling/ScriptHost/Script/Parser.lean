import ScriptHost.Script.Lexer
import ScriptHost.Script.Syntax

/-!
# Parsing

Recursive descent over the tokens of a unit. A parser takes the remaining tokens and gives a tree
together with fewer tokens than it got; this is part of its type and the reason why every loop
over tokens ends. Nesting is limited: each parser for a nested phrase is defined from the one with
a smaller budget, so the recursion as a whole follows the budget.
-/

namespace ScriptHost
namespace Script
namespace Parser

abbrev Tokens := List Located

/-! ## Results -/

/-- Where and why parsing stopped: the tokens left there begin with the one that does not fit. -/
structure Stop where
  fault : SyntaxFault
  rest : Tokens

/-- A tree, and what is left: fewer than `bound` tokens. -/
structure Parsed (α : Type) (bound : Nat) where
  tree : α
  rest : Tokens
  shorter : rest.length < bound

abbrev Result (α : Type) (bound : Nat) :=
  Except Stop (Parsed α bound)

abbrev Phrase (α : Type) :=
  (ts : Tokens) → Result α ts.length

section Combinators

variable {α β : Type} {m n : Nat}

def stop (fault : SyntaxFault) (ts : Tokens) : Result α n :=
  .error ⟨fault, ts⟩

def finish (tree : α) (ts : Tokens) (h : ts.length < n) : Result α n :=
  .ok ⟨tree, ts, h⟩

/-- The refusal of a phrase for which no level of nesting is left. -/
def tooDeep (limit : Nat) : Phrase α := fun ts =>
  stop (.tooDeep limit) ts

theorem length_tail (t : Located) (rest : Tokens) : rest.length < (t :: rest).length :=
  Nat.lt_succ_self rest.length

/-- What is less than a bound is also less than any larger bound. -/
def widen (h : m ≤ n) (p : Result α m) : Result α n :=
  match p with
  | .error e => .error e
  | .ok a => .ok ⟨a.tree, a.rest, Nat.lt_of_lt_of_le a.shorter h⟩

def mapTree (f : α → β) (p : Result α n) : Result β n :=
  match p with
  | .error e => .error e
  | .ok a => .ok ⟨f a.tree, a.rest, a.shorter⟩

/-- Goes on after `p` with the tokens that it leaves. -/
def andThen (p : Result α n) (next : α → (ts : Tokens) → ts.length < n → Result β n) :
    Result β n :=
  match p with
  | .error e => .error e
  | .ok a => next a.tree a.rest a.shorter

end Combinators

/-! ## Single tokens -/

/-- The given symbol, or the complaint that `what` is expected. -/
def expect (s : Symbol) (what : Expectation) : Phrase Unit
  | [] => stop (.expected what) []
  | t :: rest =>
      if t.token = .symbol s then
        finish () rest (length_tail t rest)
      else
        stop (.expected what) (t :: rest)

/-- An identifier in its lower-case form. -/
def expectName (what : Expectation) : Phrase String
  | [] => stop (.expected what) []
  | t :: rest =>
      match t.token with
      | .ident name => finish (normalizeName name) rest (length_tail t rest)
      | _ => stop (.expected what) (t :: rest)

/-! ## Binary operators -/

def equalityOp : Token → Option BinaryOp
  | .symbol .eqEq => some .eq
  | .symbol .notEq => some .ne
  | _ => none

def comparisonOp : Token → Option BinaryOp
  | .symbol .lt => some .lt
  | .symbol .ltEq => some .le
  | .symbol .gt => some .gt
  | .symbol .gtEq => some .ge
  | _ => none

def termOp : Token → Option BinaryOp
  | .symbol .plus => some .add
  | .symbol .minus => some .sub
  | _ => none

def factorOp : Token → Option BinaryOp
  | .symbol .star => some .mul
  | .symbol .slash => some .div
  | _ => none

/-- Extends the tree `left` to the right as long as an operator of the level comes next. -/
def chainFrom (level : Token → Option BinaryOp) (sub : Phrase Expr) (left : Expr) (ts : Tokens) :
    Result Expr (ts.length + 1) :=
  match ts with
  | [] => finish left [] (Nat.lt_succ_self _)
  | t :: rest =>
      match level t.token with
      | none => finish left (t :: rest) (Nat.lt_succ_self _)
      | some op =>
          -- what has been read so far becomes the left operand
          widen (Nat.le_add_right rest.length 2) <| andThen (sub rest) fun right ts h =>
            widen h (chainFrom level sub (.binary op left right) ts)
termination_by ts.length
decreasing_by exact Nat.lt_trans h (length_tail t rest)

/-- Operands of one level, joined from the left by the operators of that level. -/
def chain (level : Token → Option BinaryOp) (sub : Phrase Expr) : Phrase Expr := fun ts =>
  andThen (sub ts) fun first ts h => widen h (chainFrom level sub first ts)

/-- All four levels over the same operands, the loosest outermost. -/
def climb (operand : Phrase Expr) : Phrase Expr :=
  chain equalityOp (chain comparisonOp (chain termOp (chain factorOp operand)))

/-! ## Operands -/

/-- One argument of a call, and one more after every comma. -/
def argumentsFrom (expression : Phrase Expr) (ts : Tokens) : Result (List Expr) ts.length :=
  andThen (expression ts) fun first ts₁ h₁ =>
    match ts₁, h₁ with
    | [], h₁ => finish [first] [] h₁
    | t :: rest, h₁ =>
        if t.token = .symbol .comma then
          mapTree (first :: ·)
            (widen (Nat.le_of_lt (Nat.lt_trans (length_tail t rest) h₁))
              (argumentsFrom expression rest))
        else
          finish [first] (t :: rest) h₁
termination_by ts.length
decreasing_by exact Nat.lt_trans (length_tail t rest) h₁

/-- The arguments of a call and the closing parenthesis. -/
def arguments (expression : Phrase Expr) : Phrase (List Expr) := fun ts =>
  match ts with
  | ⟨.symbol .closeParen, _⟩ :: rest => finish [] rest (length_tail _ rest)
  | ts =>
      andThen (argumentsFrom expression ts) fun args ts₁ h₁ =>
        mapTree (fun _ => args) (widen (Nat.le_of_lt h₁) (expect .closeParen .closeArguments ts₁))

/-- An expression and the closing parenthesis. -/
def parenthesized (expression : Phrase Expr) : Phrase Expr := fun ts =>
  andThen (expression ts) fun e ts₁ h₁ =>
    mapTree (fun _ => e) (widen (Nat.le_of_lt h₁) (expect .closeParen .closeParen ts₁))

/-- What a name begins: a call if an opening parenthesis follows, a variable otherwise. -/
def nameOrCall (expression : Phrase Expr) (name : String) (ts : Tokens) :
    Result Expr (ts.length + 1) :=
  match ts with
  | ⟨.symbol .openParen, _⟩ :: inner =>
      mapTree (.call name) (widen (Nat.le_add_right inner.length 2) (arguments expression inner))
  | ts => finish (.name name) ts (Nat.lt_succ_self _)

/-- What stands between binary operators: a literal, a name, a call, an expression in parentheses,
or a prefix operator with its own operand. -/
def operandWith (nested expression : Phrase Expr) : Phrase Expr := fun ts =>
  match ts with
  | [] => stop .noOperand []
  | t :: rest =>
      match t.token with
      | .symbol .bang => mapTree (.prefixed .not) (widen (Nat.le_succ _) (nested rest))
      | .symbol .minus => mapTree (.prefixed .neg) (widen (Nat.le_succ _) (nested rest))
      | .symbol .openParen => widen (Nat.le_succ _) (parenthesized expression rest)
      | .ident name => nameOrCall expression (normalizeName name) rest
      | .number x => finish (.literal (.number x)) rest (length_tail t rest)
      | .text s => finish (.literal (.text s)) rest (length_tail t rest)
      | .keyword .true => finish (.literal (.bool true)) rest (length_tail t rest)
      | .keyword .false => finish (.literal (.bool false)) rest (length_tail t rest)
      | .keyword .null => finish (.literal .null) rest (length_tail t rest)
      | _ => stop .noOperand (t :: rest)

/-- Operands whose nested phrases may go `budget` levels deeper. -/
def operand (limit : Nat) : Nat → Phrase Expr
  -- literals, names and calls without arguments need no level of their own
  | 0, ts => operandWith (tooDeep limit) (tooDeep limit) ts
  | budget + 1, ts => operandWith (operand limit budget) (climb (operand limit budget)) ts

/-- An expression is one level of nesting itself. -/
def expression (limit : Nat) : Nat → Phrase Expr
  | 0, ts => tooDeep limit ts
  | budget + 1, ts => climb (operand limit budget) ts

/-! ## Parts of statements -/

/-- Statements up to the closing brace. -/
def statementsFrom (statement : Phrase Stmt) (ts : Tokens) : Result Block ts.length :=
  match ts with
  | [] => stop (.expected .closeBrace) []
  | t :: rest =>
      if t.token = .symbol .closeBrace then
        finish [] rest (length_tail t rest)
      else
        andThen (statement (t :: rest)) fun s ts₁ h₁ =>
          mapTree (s :: ·) (widen (Nat.le_of_lt h₁) (statementsFrom statement ts₁))
termination_by ts.length
decreasing_by exact h₁

/-- Statements between braces. -/
def braces (statement : Phrase Stmt) : Phrase Block := fun ts =>
  andThen (expect .openBrace .openBrace ts) fun _ ts₁ h₁ =>
    widen (Nat.le_of_lt h₁) (statementsFrom statement ts₁)

/-- The parameter names of a declaration, one and then one more after every comma; `seen` holds
the ones so far. A repeated name is noticed once it has been read. -/
def parametersFrom (seen : List String) (ts : Tokens) : Result (List String) ts.length :=
  andThen (expectName .parameterName ts) fun name ts₁ h₁ =>
    if name ∈ seen then
      stop (.duplicateParameter name) ts₁
    else
      match ts₁, h₁ with
      | [], h₁ => finish (seen ++ [name]) [] h₁
      | t :: rest, h₁ =>
          if t.token = .symbol .comma then
            widen (Nat.le_of_lt (Nat.lt_trans (length_tail t rest) h₁))
              (parametersFrom (seen ++ [name]) rest)
          else
            finish (seen ++ [name]) (t :: rest) h₁
termination_by ts.length
decreasing_by exact Nat.lt_trans (length_tail t rest) h₁

/-- The parameter list of a declaration between its parentheses. -/
def parameters : Phrase (List String) := fun ts =>
  andThen (expect .openParen .openParen ts) fun _ ts₁ h₁ =>
    match ts₁, h₁ with
    | ⟨.symbol .closeParen, _⟩ :: rest, h₁ =>
        finish [] rest (Nat.lt_trans (length_tail _ rest) h₁)
    | ts₁, h₁ =>
        andThen (widen (Nat.le_of_lt h₁) (parametersFrom [] ts₁)) fun params ts₂ h₂ =>
          mapTree (fun _ => params) (widen (Nat.le_of_lt h₂) (expect .closeParen .closeParen ts₂))

/-! ## Statements -/

/-- The parsers for the phrases inside a statement. The parser for a conditional after `else`
begins at its keyword. -/
structure Parts where
  expression : Phrase Expr
  block : Phrase Block
  functionBody : Phrase Block
  elseIf : Phrase Stmt

/-- What follows `else`: another conditional or a block. -/
def alternative (parts : Parts) : Phrase Block := fun ts =>
  match ts with
  -- no braces are written around it, but it takes a level as a block does
  | ⟨.keyword .if, line⟩ :: rest => mapTree ([·]) (parts.elseIf (⟨.keyword .if, line⟩ :: rest))
  | ts => parts.block ts

/-- A conditional after its keyword. -/
def conditional (parts : Parts) : Phrase Stmt := fun ts =>
  andThen (parts.expression ts) fun test ts₁ h₁ =>
    andThen (widen (Nat.le_of_lt h₁) (parts.block ts₁)) fun body ts₂ h₂ =>
      match ts₂, h₂ with
      | ⟨.keyword .else, _⟩ :: rest, h₂ =>
          mapTree (.choose test body)
            (widen (Nat.le_of_lt (Nat.lt_trans (length_tail _ rest) h₂)) (alternative parts rest))
      | ts₂, h₂ => finish (.when test body) ts₂ h₂

/-- A loop after its keyword. -/
def loop (parts : Parts) : Phrase Stmt := fun ts =>
  andThen (parts.expression ts) fun test ts₁ h₁ =>
    mapTree (.loop test) (widen (Nat.le_of_lt h₁) (parts.block ts₁))

/-- A declaration after its keyword. -/
def declaration (parts : Parts) : Phrase Stmt := fun ts =>
  andThen (expectName .functionName ts) fun name ts₁ h₁ =>
    andThen (widen (Nat.le_of_lt h₁) (parameters ts₁)) fun params ts₂ h₂ =>
      mapTree (.func name params) (widen (Nat.le_of_lt h₂) (parts.functionBody ts₂))

/-- A return after its keyword: it has a value unless a closing brace, a semicolon or the end of
the input follows. -/
def returned (parts : Parts) (ts : Tokens) : Result Stmt (ts.length + 1) :=
  match ts with
  | [] => finish (.ret none) [] (Nat.lt_succ_self _)
  | t :: rest =>
      if t.token = .symbol .closeBrace ∨ t.token = .symbol .semicolon then
        finish (.ret none) (t :: rest) (Nat.lt_succ_self _)
      else
        mapTree (fun e => .ret (some e)) (widen (Nat.le_succ _) (parts.expression (t :: rest)))

/-- A statement without the semicolon that may end it. -/
def bareStatement (inFunction : Bool) (parts : Parts) : Phrase Stmt := fun ts =>
  match ts with
  | ⟨.keyword .func, line⟩ :: rest =>
      if inFunction then
        stop .nestedFunction (⟨.keyword .func, line⟩ :: rest)
      else
        widen (Nat.le_succ _) (declaration parts rest)
  | ⟨.keyword .return, _⟩ :: rest => returned parts rest
  | ⟨.keyword .if, _⟩ :: rest => widen (Nat.le_succ _) (conditional parts rest)
  | ⟨.keyword .while, _⟩ :: rest => widen (Nat.le_succ _) (loop parts rest)
  -- the only place that looks two tokens ahead
  | ⟨.ident name, _⟩ :: ⟨.symbol .assign, _⟩ :: rest =>
      mapTree (.assign (normalizeName name))
        (widen (Nat.le_add_right rest.length 2) (parts.expression rest))
  | ts => mapTree .eval (parts.expression ts)

/-- A statement with the semicolon that may end it. -/
def terminated (p : Phrase Stmt) : Phrase Stmt := fun ts =>
  andThen (p ts) fun s ts₁ h₁ =>
    match ts₁, h₁ with
    | ⟨.symbol .semicolon, _⟩ :: rest, h₁ =>
        finish s rest (Nat.lt_trans (length_tail _ rest) h₁)
    | ts₁, h₁ => finish s ts₁ h₁

/-- A conditional that begins at its keyword. -/
def conditionalAtKeyword (parts : Parts) : Phrase Stmt := fun ts =>
  match ts with
  | [] => stop (.noOperand) []
  | _ :: rest => widen (Nat.le_succ _) (conditional parts rest)

/-- The parsers for the phrases inside a statement, with `budget` levels left; `inFunction` tells
whether declarations are out of place. -/
def parts (limit : Nat) (inFunction : Bool) : Nat → Parts
  | 0 =>
      { expression := expression limit 0
        block := tooDeep limit
        functionBody := tooDeep limit
        elseIf := tooDeep limit }
  | budget + 1 =>
      { expression := expression limit (budget + 1)
        block := fun ts =>
          braces (terminated (bareStatement inFunction (parts limit inFunction budget))) ts
        functionBody := fun ts =>
          braces (terminated (bareStatement true (parts limit true budget))) ts
        elseIf := fun ts => conditionalAtKeyword (parts limit inFunction budget) ts }

def statement (limit : Nat) (inFunction : Bool) (budget : Nat) : Phrase Stmt :=
  terminated (bareStatement inFunction (parts limit inFunction budget))

/-! ## Units -/

/-- All statements up to the end of the tokens. -/
def unit (limit : Nat) (ts : Tokens) : Except Stop Block :=
  match ts with
  | [] => .ok []
  | t :: rest =>
      -- the whole limit is there again for every statement
      match statement limit false limit (t :: rest) with
      | .error e => .error e
      | .ok first =>
          match unit limit first.rest with
          | .error e => .error e
          | .ok others => .ok (first.tree :: others)
termination_by ts.length
decreasing_by exact first.shorter

/-- The line that a refusal is reported on: that of the token it stopped at or, at the end of the
input, that of the last token. -/
def lineOf (ts : Tokens) (stopped : Stop) : Nat :=
  ((stopped.rest.head?.or ts.getLast?).map (·.line)).getD 1

def errorOf (ts : Tokens) (stopped : Stop) : CompileError :=
  ⟨lineOf ts stopped, stopped.fault, stopped.rest.head?.map (·.token)⟩

end Parser

/-- The syntax tree of a list of tokens, with at most `limit` levels of nesting. -/
def parseTokens (limit : Nat) (ts : List Located) : Except CompileError Block :=
  match Parser.unit limit ts with
  | .error stopped => .error (Parser.errorOf ts stopped)
  | .ok block => .ok block

/-- The syntax tree of a source. -/
def parse (limit : Nat) (source : String) : Except CompileError Block := do
  parseTokens limit (← tokenize source)

end Script
end ScriptHost
