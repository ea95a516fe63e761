import ScriptHost.Script.Syntax
import ScriptHost.Script.Token

/-!
# The grammar of the language

What a unit is, said of lists of tokens and without any parser:

* a unit is a row of statements, and so is what stands in a block;
* a statement declares a function, returns, is a conditional or a loop, assigns, or is an
  expression, and a semicolon may end it;
* an expression is made of operands and of binary operators at four levels, each of which joins
  what the next one binds more tightly, from the left;
* an operand is a literal, a name, a call, an expression in parentheses, or another operand behind
  a prefix operator.

Every judgement relates a list of tokens that begins with a phrase to the tree of the phrase and to
the tokens that are left behind it. Where the phrases alone would leave a choice, a condition on
the next token settles it: whatever may continue a phrase does. The number in a judgement tells how
many levels of nesting are left; an expression, the operand of a prefix operator, a block and a
conditional after `else` take one each.
-/

namespace ScriptHost
namespace Script

/-! ## Operators -/

/-- The levels of binary operators, the loosest first. -/
inductive Precedence
  | equality
  | comparison
  | term
  | factor
  deriving DecidableEq

/-- How tightly an operator binds. -/
def BinaryOp.precedence : BinaryOp → Precedence
  | .eq | .ne => .equality
  | .lt | .le | .gt | .ge => .comparison
  | .add | .sub => .term
  | .mul | .div => .factor

def BinaryOp.symbol : BinaryOp → Symbol
  | .eq => .eqEq
  | .ne => .notEq
  | .lt => .lt
  | .le => .ltEq
  | .gt => .gt
  | .ge => .gtEq
  | .add => .plus
  | .sub => .minus
  | .mul => .star
  | .div => .slash

namespace Grammar

/-- The token is the operator, and the operator is one of the level. -/
def Joins (p : Precedence) (op : BinaryOp) (t : Token) : Prop :=
  op.precedence = p ∧ t = .symbol op.symbol

/-- No operator of the level comes next. -/
def EndsBefore (p : Precedence) (rest : List Token) : Prop :=
  ∀ op t, rest.head? = some t → ¬ Joins p op t

/-! ## Expressions -/

/-- Tokens that stand for values. -/
inductive Literal : Token → Value → Prop
  | number (x) : Literal (.number x) (.number x)
  | text (s) : Literal (.text s) (.text s)
  | true : Literal (.keyword .true) (.bool true)
  | false : Literal (.keyword .false) (.bool false)
  | null : Literal (.keyword .null) .null

mutual

/-- What operators join. -/
inductive Operand : Nat → List Token → Expr → List Token → Prop
  | literal {d t v rest} : Literal t v → Operand d (t :: rest) (.literal v) rest
  -- with an opening parenthesis behind it the name would begin a call
  | name {d x rest} : rest.head? ≠ some (.symbol .openParen) →
      Operand d (.ident x :: rest) (.name (normalizeName x)) rest
  | call {d f ts args rest} : Arguments d ts args rest →
      Operand d (.ident f :: .symbol .openParen :: ts) (.call (normalizeName f) args) rest
  | parentheses {d ts e rest} : Expression d ts e (.symbol .closeParen :: rest) →
      Operand d (.symbol .openParen :: ts) e rest
  | not {d ts e rest} : Operand d ts e rest →
      Operand (d + 1) (.symbol .bang :: ts) (.prefixed .not e) rest
  | neg {d ts e rest} : Operand d ts e rest →
      Operand (d + 1) (.symbol .minus :: ts) (.prefixed .neg e) rest

/-- What the operators of a level join. -/
inductive Part : Precedence → Nat → List Token → Expr → List Token → Prop
  | factor {d ts e rest} : Operand d ts e rest → Part .factor d ts e rest
  | term {d ts e rest} : Joined .factor d ts e rest → Part .term d ts e rest
  | comparison {d ts e rest} : Joined .term d ts e rest → Part .comparison d ts e rest
  | equality {d ts e rest} : Joined .comparison d ts e rest → Part .equality d ts e rest

/-- One part, or several with operators of the level in between. -/
inductive Joined : Precedence → Nat → List Token → Expr → List Token → Prop
  | parts {p d ts first mid e rest} : Part p d ts first mid → Further p d first mid e rest →
      Joined p d ts e rest

/-- The further parts to the right of what has been joined so far. -/
inductive Further : Precedence → Nat → Expr → List Token → Expr → List Token → Prop
  | done {p d left rest} : EndsBefore p rest → Further p d left rest left rest
  | more {p d left op t ts right mid e rest} : Joins p op t → Part p d ts right mid →
      Further p d (.binary op left right) mid e rest → Further p d left (t :: ts) e rest

/-- Every expression takes one level of nesting. -/
inductive Expression : Nat → List Token → Expr → List Token → Prop
  | nested {d ts e rest} : Joined .equality d ts e rest → Expression (d + 1) ts e rest

/-- The arguments of a call with the closing parenthesis. -/
inductive Arguments : Nat → List Token → List Expr → List Token → Prop
  | none {d rest} : Arguments d (.symbol .closeParen :: rest) [] rest
  | some {d ts args rest} : ArgumentList d ts args (.symbol .closeParen :: rest) →
      Arguments d ts args rest

/-- One argument at least, with commas between them. -/
inductive ArgumentList : Nat → List Token → List Expr → List Token → Prop
  | last {d ts e rest} : Expression d ts e rest → rest.head? ≠ some (.symbol .comma) →
      ArgumentList d ts [e] rest
  | more {d ts e mid args rest} : Expression d ts e (.symbol .comma :: mid) →
      ArgumentList d mid args rest → ArgumentList d ts (e :: args) rest

end

/-! ## Parameters -/

/-- One parameter at least, in normal form. -/
inductive ParameterList : List Token → List String → List Token → Prop
  | last {x rest} : rest.head? ≠ some (.symbol .comma) →
      ParameterList (.ident x :: rest) [normalizeName x] rest
  | more {x ts params rest} : ParameterList ts params rest →
      ParameterList (.ident x :: .symbol .comma :: ts) (normalizeName x :: params) rest

/-- The parameters of a declaration between parentheses. -/
inductive Parameters : List Token → List String → List Token → Prop
  | none {rest} : Parameters (.symbol .openParen :: .symbol .closeParen :: rest) [] rest
  | some {ts params rest} : ParameterList ts params (.symbol .closeParen :: rest) →
      Parameters (.symbol .openParen :: ts) params rest

/-! ## Statements -/

/-- What comes next leaves a return without a value. -/
def NoValue (rest : List Token) : Prop :=
  rest = [] ∨ rest.head? = some (.symbol .closeBrace) ∨ rest.head? = some (.symbol .semicolon)

/-- What comes next is the left side of an assignment. -/
def Assigns (ts : List Token) : Prop :=
  ∃ x rest, ts = .ident x :: .symbol .assign :: rest

mutual

/-- A statement inside of a function, where none may be declared, or outside. -/
inductive Statement : Bool → Nat → List Token → Stmt → List Token → Prop
  | plain {inFunction d ts s rest} : Bare inFunction d ts s rest →
      rest.head? ≠ some (.symbol .semicolon) → Statement inFunction d ts s rest
  | ended {inFunction d ts s rest} : Bare inFunction d ts s (.symbol .semicolon :: rest) →
      Statement inFunction d ts s rest

/-- A statement without the semicolon that may end it. -/
inductive Bare : Bool → Nat → List Token → Stmt → List Token → Prop
  | func {d name ts params mid body rest} : Parameters ts params mid → params.Nodup →
      Block true d mid body rest →
      Bare false d (.keyword .func :: .ident name :: ts)
        (.func (normalizeName name) params body) rest
  | ret {inFunction d rest} : NoValue rest →
      Bare inFunction d (.keyword .return :: rest) (.ret none) rest
  | value {inFunction d ts e rest} : ¬ NoValue ts → Expression d ts e rest →
      Bare inFunction d (.keyword .return :: ts) (.ret (some e)) rest
  | conditional {inFunction d ts s rest} : Conditional inFunction d ts s rest →
      Bare inFunction d (.keyword .if :: ts) s rest
  | loop {inFunction d ts test mid body rest} : Expression d ts test mid →
      Block inFunction d mid body rest →
      Bare inFunction d (.keyword .while :: ts) (.loop test body) rest
  | assign {inFunction d x ts e rest} : Expression d ts e rest →
      Bare inFunction d (.ident x :: .symbol .assign :: ts) (.assign (normalizeName x) e) rest
  | eval {inFunction d ts e rest} : ¬ Assigns ts → Expression d ts e rest →
      Bare inFunction d ts (.eval e) rest

/-- A conditional behind its keyword. -/
inductive Conditional : Bool → Nat → List Token → Stmt → List Token → Prop
  | when {inFunction d ts test mid body rest} : Expression d ts test mid →
      Block inFunction d mid body rest → rest.head? ≠ some (.keyword .else) →
      Conditional inFunction d ts (.when test body) rest
  | choose {inFunction d ts test mid body mid' otherwise rest} : Expression d ts test mid →
      Block inFunction d mid body (.keyword .else :: mid') →
      Alternative inFunction d mid' otherwise rest →
      Conditional inFunction d ts (.choose test body otherwise) rest

/-- What follows `else`. -/
inductive Alternative : Bool → Nat → List Token → List Stmt → List Token → Prop
  | block {inFunction d ts body rest} : Block inFunction d ts body rest →
      Alternative inFunction d ts body rest
  | conditional {inFunction d ts s rest} : Conditional inFunction d ts s rest →
      Alternative inFunction (d + 1) (.keyword .if :: ts) [s] rest

/-- Every block takes one level of nesting. -/
inductive Block : Bool → Nat → List Token → List Stmt → List Token → Prop
  | braces {inFunction d ts body rest} :
      Statements inFunction d ts body (.symbol .closeBrace :: rest) →
      Block inFunction (d + 1) (.symbol .openBrace :: ts) body rest

inductive Statements : Bool → Nat → List Token → List Stmt → List Token → Prop
  | nil {inFunction d rest} : Statements inFunction d rest [] rest
  | cons {inFunction d ts s mid body rest} : Statement inFunction d ts s mid →
      Statements inFunction d mid body rest → Statements inFunction d ts (s :: body) rest

end

/-- All of the tokens are a unit with that tree, within so many levels of nesting. -/
def IsUnit (d : Nat) (ts : List Token) (block : List Stmt) : Prop :=
  Statements false d ts block []

/-! ## How phrases begin -/

/-- The tokens that an operand may begin with. -/
def Starts (t : Token) : Prop :=
  (∃ v, Literal t v) ∨ (∃ x, t = .ident x) ∨ t = .symbol .openParen ∨ t = .symbol .bang ∨
    t = .symbol .minus

section Beginnings

variable {d : Nat} {ts rest : List Token} {e : Expr} {p : Precedence}

/-- An operand has a first token. -/
theorem Operand.starts (h : Operand d ts e rest) : ∃ t rest', ts = t :: rest' ∧ Starts t := by
  cases h with
  | literal h => exact ⟨_, _, rfl, .inl ⟨_, h⟩⟩
  | name _ => exact ⟨_, _, rfl, .inr (.inl ⟨_, rfl⟩)⟩
  | call _ => exact ⟨_, _, rfl, .inr (.inl ⟨_, rfl⟩)⟩
  | parentheses _ => exact ⟨_, _, rfl, .inr (.inr (.inl rfl))⟩
  | not _ => exact ⟨_, _, rfl, .inr (.inr (.inr (.inl rfl)))⟩
  | neg _ => exact ⟨_, _, rfl, .inr (.inr (.inr (.inr rfl)))⟩

/-- The first operand of a row of parts begins the row. -/
theorem Joined.starts (h : Joined p d ts e rest) : ∃ t rest', ts = t :: rest' ∧ Starts t := by
  -- Each level starts with a part of the level below, so the levels are climbed one by one.
  have hfactor {ts rest e} (h : Part .factor d ts e rest) :
      ∃ t rest', ts = t :: rest' ∧ Starts t := by
    cases h with
    | factor h => exact h.starts
  have hterm {ts rest e} (h : Part .term d ts e rest) :
      ∃ t rest', ts = t :: rest' ∧ Starts t := by
    cases h with
    | term h =>
        cases h with
        | parts h _ => exact hfactor h
  have hcomparison {ts rest e} (h : Part .comparison d ts e rest) :
      ∃ t rest', ts = t :: rest' ∧ Starts t := by
    cases h with
    | comparison h =>
        cases h with
        | parts h _ => exact hterm h
  cases h with
  | parts h _ =>
      cases p with
      | factor => exact hfactor h
      | term => exact hterm h
      | comparison => exact hcomparison h
      | equality =>
          cases h with
          | equality h =>
              cases h with
              | parts h _ => exact hcomparison h

theorem Expression.starts (h : Expression d ts e rest) : ∃ t rest', ts = t :: rest' ∧ Starts t := by
  cases h with
  | nested h => exact h.starts

theorem ArgumentList.starts {args : List Expr} (h : ArgumentList d ts args rest) :
    ∃ t rest', ts = t :: rest' ∧ Starts t := by
  cases h with
  | last h _ => exact h.starts
  | more h _ => exact h.starts

/-- The symbols that expressions start with. -/
theorem starts_symbol {s : Symbol} :
    Starts (.symbol s) ↔ s = .openParen ∨ s = .bang ∨ s = .minus := by
  constructor
  · rintro (⟨v, h⟩ | ⟨x, h⟩ | h | h | h) <;> cases h <;> simp
  · rintro (rfl | rfl | rfl) <;> simp [Starts]

/-- The keywords that they start with. -/
theorem starts_keyword {k : Keyword} :
    Starts (.keyword k) ↔ k = .true ∨ k = .false ∨ k = .null := by
  constructor
  · rintro (⟨v, h⟩ | ⟨x, h⟩ | h | h | h) <;> cases h <;> simp
  · rintro (rfl | rfl | rfl)
    · exact .inl ⟨_, .true⟩
    · exact .inl ⟨_, .false⟩
    · exact .inl ⟨_, .null⟩

theorem Operand.starts_head {t : Token} (h : Operand d (t :: ts) e rest) : Starts t := by
  rcases h.starts with ⟨_, _, heq, hstarts⟩
  cases heq
  exact hstarts

theorem Expression.starts_head {t : Token} (h : Expression d (t :: ts) e rest) : Starts t := by
  rcases h.starts with ⟨_, _, heq, hstarts⟩
  cases heq
  exact hstarts

end Beginnings

/-- A literal is an operand of its own, whatever comes next. -/
theorem operand_literal_iff {d : Nat} {t : Token} {v : Value} {ts rest : List Token} {e : Expr}
    (hliteral : Literal t v) : Operand d (t :: ts) e rest ↔ .literal v = e ∧ ts = rest := by
  constructor
  · intro h
    cases hliteral with
    | _ =>
        cases h with
        | literal h =>
            cases h
            exact ⟨rfl, rfl⟩
  · rintro ⟨rfl, rfl⟩
    exact .literal hliteral

/-- No statement is empty, and none begins where a block ends. -/
theorem Bare.begins {inFunction : Bool} {d : Nat} {ts rest : List Token} {s : Stmt}
    (h : Bare inFunction d ts s rest) :
    ∃ t rest', ts = t :: rest' ∧ t ≠ .symbol .closeBrace := by
  cases h with
  | eval _ he =>
      rcases he.starts with ⟨t, rest', rfl, hstarts⟩
      refine ⟨t, rest', rfl, ?_⟩
      rintro rfl
      simp [starts_symbol] at hstarts
  | _ => exact ⟨_, _, rfl, nofun⟩

/-- No statement begins with a closing brace. -/
theorem Statement.begins {inFunction : Bool} {d : Nat} {ts rest : List Token} {s : Stmt}
    (h : Statement inFunction d ts s rest) :
    ∃ t rest', ts = t :: rest' ∧ t ≠ .symbol .closeBrace := by
  cases h with
  | plain h _ => exact h.begins
  | ended h => exact h.begins

end Grammar

end Script
end ScriptHost
