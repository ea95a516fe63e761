import ScriptHost.Proofs.Emission
import ScriptHost.Proofs.Numerals

/-!
# Literals of a source

The numbers in the tree of a source come from its numerals, and so they are plain: the lexer makes
no others and the parser only passes them on. The constants of a function come from the literals
of its tree and are therefore plain as well, which means that an entry of the constant pool is
every literal that it serves.
-/

namespace ScriptHost
namespace Script

/-! ## Plain values and trees -/

/-- Neither a NaN nor a negative zero. -/
def Value.IsPlain : Value → Prop
  | .number x => Number.IsPlain x
  | _ => True

theorem Value.isPlain_null : Value.null.IsPlain :=
  trivial

/-- Among plain values equality of the language is identity. -/
theorem Value.eq_of_equals {v w : Value} (hv : v.IsPlain) (hw : w.IsPlain)
    (h : v.equals w = true) : v = w := by
  unfold equals at h
  split at h
  · rfl
  · rw [beq_iff_eq.1 h]
  · rw [Number.eq_of_beq_of_plain hv hw h]
  · rw [beq_iff_eq.1 h]
  · cases h

mutual

/-- All literals of the tree are plain. -/
def Expr.IsPlain : Expr → Prop
  | .literal v => v.IsPlain
  | .name _ => True
  | .prefixed _ e => e.IsPlain
  | .binary _ l r => l.IsPlain ∧ r.IsPlain
  | .call _ args => Expr.ArePlain args

def Expr.ArePlain : List Expr → Prop
  | [] => True
  | e :: rest => e.IsPlain ∧ Expr.ArePlain rest

end

mutual

/-- So are those of declarations. -/
def Stmt.IsPlain : Stmt → Prop
  | .func _ _ body => Stmt.ArePlain body
  | .ret none => True
  | .ret (some e) => e.IsPlain
  | .when test body => test.IsPlain ∧ Stmt.ArePlain body
  | .choose test body otherwise =>
      test.IsPlain ∧ Stmt.ArePlain body ∧ Stmt.ArePlain otherwise
  | .loop test body => test.IsPlain ∧ Stmt.ArePlain body
  | .assign _ e => e.IsPlain
  | .eval e => e.IsPlain

def Stmt.ArePlain : Block → Prop
  | [] => True
  | s :: rest => s.IsPlain ∧ Stmt.ArePlain rest

end

/-! ## Tokens -/

def Token.IsPlain : Token → Prop
  | .number x => Number.IsPlain x
  | _ => True

/-- All numerals among the tokens are plain. -/
def PlainTokens (ts : List Located) : Prop :=
  ∀ t ∈ ts, t.token.IsPlain

namespace PlainTokens

variable {t : Located} {ts : List Located}

theorem nil : PlainTokens [] := by
  intro t ht
  cases ht

theorem cons (ht : t.token.IsPlain) (hts : PlainTokens ts) : PlainTokens (t :: ts) := by
  intro u hu
  rcases List.mem_cons.1 hu with rfl | hu
  · exact ht
  · exact hts u hu

theorem head (h : PlainTokens (t :: ts)) : t.token.IsPlain :=
  h t List.mem_cons_self

theorem tail (h : PlainTokens (t :: ts)) : PlainTokens ts :=
  fun u hu => h u (List.mem_cons_of_mem t hu)

end PlainTokens

namespace Lexer

theorem isPlain_word (name : String) : (word name).IsPlain := by
  unfold word
  split <;> trivial

theorem isPlain_numeral {c : Char} {rest : List Char} {t : Token} {n : Nat}
    (h : numeral c rest = (.token t, n)) : t.IsPlain := by
  unfold numeral at h
  dsimp only at h
  split at h
  · split at h <;> cases h <;> exact Number.isPlain_ofScientific _ _
  · cases h
    exact Number.isPlain_ofScientific _ _

theorem isPlain_stringLiteral {rest : List Char} {t : Token} {n : Nat}
    (h : stringLiteral rest = (.token t, n)) : t.IsPlain := by
  unfold stringLiteral at h
  split at h
  · cases h
  · split at h <;> cases h
    trivial

theorem isPlain_orEqual {rest : List Char} {short long : Symbol} {t : Token} {n : Nat}
    (h : orEqual rest short long = (.token t, n)) : t.IsPlain := by
  unfold orEqual at h
  split at h <;> cases h <;> trivial

/-- Whatever token comes next is plain. -/
theorem isPlain_next {c : Char} {rest : List Char} {t : Token} {n : Nat}
    (h : next c rest = (.token t, n)) : t.IsPlain := by
  -- Only two kinds of tokens hold a value: numerals and string literals.
  unfold next at h
  split at h
  · cases h
  · split at h
    · cases h
      exact isPlain_word _
    · split at h
      · exact isPlain_numeral h
      · split at h
        · exact isPlain_stringLiteral h
        · split at h <;> cases h
          trivial
        · exact isPlain_orEqual h
        · exact isPlain_orEqual h
        · exact isPlain_orEqual h
        · exact isPlain_orEqual h
        all_goals cases h <;> trivial

/-- By induction on the characters. -/
theorem plainTokens_scan (line : Nat) (cs : List Char) {ts : List Located}
    (h : scan line cs = .ok ts) : PlainTokens ts := by
  fun_induction scan line cs generalizing ts with
  | case1 line =>
      cases h
      exact PlainTokens.nil
  | case2 => cases h
  | case3 =>
      -- blanks and comments leave no token
      rename_i ih
      exact ih h
  | case4 =>
      rename_i cs n _ lineAfter t hnext ih
      cases hrest : scan lineAfter (cs.drop n) with
      | error e =>
          rw [hrest] at h
          cases h
      | ok rest =>
          rw [hrest] at h
          cases h
          exact .cons (isPlain_next hnext) (ih hrest)

end Lexer

/-! ## Parsing -/

namespace Parser

variable {α β : Type} {m n : Nat}

/-- What is parsed, if anything is, has the property `P`, and only plain tokens are left. -/
def Gives (P : α → Prop) (r : Result α n) : Prop :=
  ∀ a, r = .ok a → P a.tree ∧ PlainTokens a.rest

/-- The same for every list of plain tokens. -/
def Yields (P : α → Prop) (p : Phrase α) : Prop :=
  ∀ ts, PlainTokens ts → Gives P (p ts)

section Combinators

variable {P : α → Prop} {Q : β → Prop}

/-- What stops gives no tree. -/
theorem gives_stop (fault : SyntaxFault) (ts : Tokens) :
    Gives P (stop fault ts : Result α n) := by
  intro a ha
  cases ha

/-- What ends gives its tree. -/
theorem gives_finish {tree : α} {ts : Tokens} (h : ts.length < n) (htree : P tree)
    (hts : PlainTokens ts) : Gives P (finish tree ts h) := by
  intro a ha
  cases ha
  exact ⟨htree, hts⟩

theorem yields_tooDeep (limit : Nat) : Yields P (tooDeep limit) :=
  fun ts _ => gives_stop _ ts

theorem gives_widen {r : Result α m} (h : m ≤ n) (hr : Gives P r) : Gives P (widen h r) := by
  intro a ha
  cases r with
  | error e => cases ha
  | ok b =>
      cases ha
      exact hr b rfl

/-- Another tree from a plain one. -/
theorem gives_mapTree {r : Result α n} {f : α → β} (hr : Gives P r)
    (hf : ∀ a, P a → Q (f a)) : Gives Q (mapTree f r) := by
  intro a ha
  cases r with
  | error e => cases ha
  | ok b =>
      cases ha
      exact ⟨hf b.tree (hr b rfl).1, (hr b rfl).2⟩

/-- One phrase after the other. -/
theorem gives_andThen {r : Result α n} {next : α → (ts : Tokens) → ts.length < n → Result β n}
    (hr : Gives P r)
    (hnext : ∀ a ts h, P a → PlainTokens ts → Gives Q (next a ts h)) :
    Gives Q (andThen r next) := by
  cases r with
  | error e =>
      intro a ha
      cases ha
  | ok b => exact hnext b.tree b.rest b.shorter (hr b rfl).1 (hr b rfl).2

end Combinators

/-! ### Single tokens -/

def Any (_ : α) : Prop :=
  True

theorem yields_expect (s : Symbol) (what : Expectation) : Yields Any (expect s what) := by
  intro ts hts
  cases ts with
  | nil => exact gives_stop _ _
  | cons t rest =>
      simp only [expect]
      split
      · exact gives_finish _ trivial hts.tail
      · exact gives_stop _ _

theorem yields_expectName (what : Expectation) : Yields Any (expectName what) := by
  intro ts hts
  cases ts with
  | nil => exact gives_stop _ _
  | cons t rest =>
      simp only [expectName]
      split
      · exact gives_finish _ trivial hts.tail
      · exact gives_stop _ _

/-! ### Expressions -/

/-- Operands with operators between them, by induction on the tokens. -/
theorem gives_chainFrom {level : Token → Option BinaryOp} {sub : Phrase Expr}
    (hsub : Yields Expr.IsPlain sub) (left : Expr) (ts : Tokens) (hleft : left.IsPlain)
    (hts : PlainTokens ts) : Gives Expr.IsPlain (chainFrom level sub left ts) := by
  -- no operator of the level, or one: then the joined tree is the next left operand
  fun_induction chainFrom level sub left ts with
  | case1 left => exact gives_finish _ hleft hts
  | case2 left t rest _ => exact gives_finish _ hleft hts
  | case3 left t rest op _ ih =>
      refine gives_widen _ (gives_andThen (hsub rest hts.tail) ?_)
      intro right ts h hright hts
      exact gives_widen _ (ih right ts h ⟨hleft, hright⟩ hts)

theorem yields_chain {level : Token → Option BinaryOp} {sub : Phrase Expr}
    (hsub : Yields Expr.IsPlain sub) : Yields Expr.IsPlain (chain level sub) := by
  intro ts hts
  refine gives_andThen (hsub ts hts) ?_
  intro first ts h hfirst hts
  exact gives_widen _ (gives_chainFrom hsub first ts hfirst hts)

theorem yields_climb {operand : Phrase Expr} (h : Yields Expr.IsPlain operand) :
    Yields Expr.IsPlain (climb operand) :=
  yields_chain (yields_chain (yields_chain (yields_chain h)))

/-- Arguments, by induction on the tokens. -/
theorem gives_argumentsFrom {expression : Phrase Expr}
    (hexpression : Yields Expr.IsPlain expression) (ts : Tokens) (hts : PlainTokens ts) :
    Gives Expr.ArePlain (argumentsFrom expression ts) := by
  -- The tokens behind an argument are part of those given, so they are plain as well.
  fun_induction argumentsFrom expression ts with
  | case1 ts ih =>
      refine gives_andThen (hexpression ts hts) ?_
      intro first ts₁ h₁ hfirst hts₁
      cases ts₁ with
      | nil => exact gives_finish _ ⟨hfirst, trivial⟩ hts₁
      | cons t rest =>
          dsimp only
          split
          · refine gives_mapTree (gives_widen _ (ih t rest h₁ hts₁.tail)) ?_
            intro args hargs
            exact ⟨hfirst, hargs⟩
          · exact gives_finish _ ⟨hfirst, trivial⟩ hts₁

theorem yields_arguments {expression : Phrase Expr}
    (hexpression : Yields Expr.IsPlain expression) :
    Yields Expr.ArePlain (arguments expression) := by
  intro ts hts
  unfold arguments
  split
  · exact gives_finish _ trivial hts.tail
  · refine gives_andThen (gives_argumentsFrom hexpression ts hts) ?_
    intro args ts₁ h₁ hargs hts₁
    exact gives_mapTree (gives_widen _ (yields_expect _ _ ts₁ hts₁)) fun _ _ => hargs

theorem yields_parenthesized {expression : Phrase Expr}
    (hexpression : Yields Expr.IsPlain expression) :
    Yields Expr.IsPlain (parenthesized expression) := by
  intro ts hts
  refine gives_andThen (hexpression ts hts) ?_
  intro e ts₁ h₁ he hts₁
  exact gives_mapTree (gives_widen _ (yields_expect _ _ ts₁ hts₁)) fun _ _ => he

/-- A name has no literal, and a call those of its arguments. -/
theorem gives_nameOrCall {expression : Phrase Expr}
    (hexpression : Yields Expr.IsPlain expression) (name : String) (ts : Tokens)
    (hts : PlainTokens ts) : Gives Expr.IsPlain (nameOrCall expression name ts) := by
  unfold nameOrCall
  split
  · exact gives_mapTree (gives_widen _ (yields_arguments hexpression _ hts.tail)) fun _ h => h
  · exact gives_finish _ trivial hts

/-- By the token that is ahead. -/
theorem yields_operandWith {nested expression : Phrase Expr}
    (hnested : Yields Expr.IsPlain nested) (hexpression : Yields Expr.IsPlain expression) :
    Yields Expr.IsPlain (operandWith nested expression) := by
  intro ts hts
  cases ts with
  | nil => exact gives_stop _ _
  | cons t rest =>
      have hrest := hts.tail
      simp only [operandWith]
      split
      · exact gives_mapTree (gives_widen _ (hnested rest hrest)) fun _ h => h
      · exact gives_mapTree (gives_widen _ (hnested rest hrest)) fun _ h => h
      · exact gives_widen _ (yields_parenthesized hexpression rest hrest)
      · exact gives_nameOrCall hexpression _ rest hrest
      · -- a numeral is the only token that makes a number
        rename_i x hx
        refine gives_finish _ ?_ hrest
        have hplain := hts.head
        rwa [hx] at hplain
      · exact gives_finish _ trivial hrest
      · exact gives_finish _ trivial hrest
      · exact gives_finish _ trivial hrest
      · exact gives_finish _ trivial hrest
      · exact gives_stop _ _

/-- Operands of any depth, by induction on the budget. -/
theorem yields_operand (limit budget : Nat) : Yields Expr.IsPlain (operand limit budget) := by
  induction budget with
  | zero =>
      intro ts hts
      exact yields_operandWith (yields_tooDeep limit) (yields_tooDeep limit) ts hts
  | succ budget ih =>
      intro ts hts
      exact yields_operandWith ih (yields_climb ih) ts hts

theorem yields_expression (limit budget : Nat) :
    Yields Expr.IsPlain (expression limit budget) := by
  cases budget with
  | zero => exact yields_tooDeep limit
  | succ budget => exact yields_climb (yields_operand limit budget)

/-! ### Statements -/

/-- Statements, by induction on the tokens. -/
theorem gives_statementsFrom {statement : Phrase Stmt} (hstatement : Yields Stmt.IsPlain statement)
    (ts : Tokens) (hts : PlainTokens ts) :
    Gives Stmt.ArePlain (statementsFrom statement ts) := by
  fun_induction statementsFrom statement ts with
  | case1 => exact gives_stop _ _
  | case2 t rest _ => exact gives_finish _ trivial hts.tail
  | case3 t rest _ ih =>
      refine gives_andThen (hstatement _ hts) ?_
      intro s ts₁ h₁ hs hts₁
      exact gives_mapTree (gives_widen _ (ih ts₁ h₁ hts₁)) fun _ h => ⟨hs, h⟩

/-- A block has the literals of its statements. -/
theorem yields_braces {statement : Phrase Stmt} (hstatement : Yields Stmt.IsPlain statement) :
    Yields Stmt.ArePlain (braces statement) := by
  intro ts hts
  refine gives_andThen (yields_expect _ _ ts hts) ?_
  intro _ ts₁ h₁ _ hts₁
  exact gives_widen _ (gives_statementsFrom hstatement ts₁ hts₁)

theorem gives_parametersFrom (seen : List String) (ts : Tokens) (hts : PlainTokens ts) :
    Gives Any (parametersFrom seen ts) := by
  fun_induction parametersFrom seen ts with
  | case1 seen ts ih =>
      refine gives_andThen (yields_expectName _ ts hts) ?_
      intro name ts₁ h₁ _ hts₁
      split
      · exact gives_stop _ _
      · cases ts₁ with
        | nil => exact gives_finish _ trivial hts₁
        | cons t rest =>
            dsimp only
            split
            · exact gives_widen _ (ih name t rest h₁ hts₁.tail)
            · exact gives_finish _ trivial hts₁

theorem yields_parameters : Yields Any parameters := by
  intro ts hts
  refine gives_andThen (yields_expect _ _ ts hts) ?_
  intro _ ts₁ h₁ _ hts₁
  split
  · exact gives_finish _ trivial hts₁.tail
  · refine gives_andThen (gives_widen _ (gives_parametersFrom [] _ hts₁)) ?_
    intro params ts₂ h₂ _ hts₂
    exact gives_mapTree (gives_widen _ (yields_expect _ _ ts₂ hts₂)) fun _ _ => trivial

/-- The parsers for the phrases inside a statement give plain trees. -/
structure Parts.ArePlain (parts : Parts) : Prop where
  expression : Yields Expr.IsPlain parts.expression
  block : Yields Stmt.ArePlain parts.block
  functionBody : Yields Stmt.ArePlain parts.functionBody
  elseIf : Yields Stmt.IsPlain parts.elseIf

section Statements

variable {parts : Parts} (hparts : parts.ArePlain)

include hparts

theorem yields_alternative : Yields Stmt.ArePlain (alternative parts) := by
  intro ts hts
  unfold alternative
  split
  · exact gives_mapTree (hparts.elseIf _ hts) fun _ h => ⟨h, trivial⟩
  · exact hparts.block _ hts

/-- An if has those of its blocks. -/
theorem yields_conditional : Yields Stmt.IsPlain (conditional parts) := by
  intro ts hts
  refine gives_andThen (hparts.expression ts hts) ?_
  intro test ts₁ h₁ htest hts₁
  refine gives_andThen (gives_widen _ (hparts.block ts₁ hts₁)) ?_
  intro body ts₂ h₂ hbody hts₂
  split
  · exact gives_mapTree (gives_widen _ (yields_alternative hparts _ hts₂.tail)) fun _ h =>
      ⟨htest, hbody, h⟩
  · exact gives_finish _ ⟨htest, hbody⟩ hts₂

theorem yields_loop : Yields Stmt.IsPlain (loop parts) := by
  intro ts hts
  refine gives_andThen (hparts.expression ts hts) ?_
  intro test ts₁ h₁ htest hts₁
  exact gives_mapTree (gives_widen _ (hparts.block ts₁ hts₁)) fun _ h => ⟨htest, h⟩

/-- A declaration has those of its body. -/
theorem yields_declaration : Yields Stmt.IsPlain (declaration parts) := by
  intro ts hts
  refine gives_andThen (yields_expectName _ ts hts) ?_
  intro name ts₁ h₁ _ hts₁
  refine gives_andThen (gives_widen _ (yields_parameters ts₁ hts₁)) ?_
  intro params ts₂ h₂ _ hts₂
  exact gives_mapTree (gives_widen _ (hparts.functionBody ts₂ hts₂)) fun _ h => h

/-- A return has those of its value. -/
theorem gives_returned (ts : Tokens) (hts : PlainTokens ts) :
    Gives Stmt.IsPlain (returned parts ts) := by
  cases ts with
  | nil => exact gives_finish _ trivial hts
  | cons t rest =>
      simp only [returned]
      split
      · exact gives_finish _ trivial hts
      · exact gives_mapTree (gives_widen _ (hparts.expression _ hts)) fun _ h => h

/-- By the token that is ahead. -/
theorem yields_bareStatement (inFunction : Bool) :
    Yields Stmt.IsPlain (bareStatement inFunction parts) := by
  intro ts hts
  unfold bareStatement
  split
  · split
    · exact gives_stop _ _
    · exact gives_widen _ (yields_declaration hparts _ hts.tail)
  · exact gives_returned hparts _ hts.tail
  · exact gives_widen _ (yields_conditional hparts _ hts.tail)
  · exact gives_widen _ (yields_loop hparts _ hts.tail)
  · exact gives_mapTree (gives_widen _ (hparts.expression _ hts.tail.tail)) fun _ h => h
  · exact gives_mapTree (hparts.expression _ hts) fun _ h => h

theorem yields_conditionalAtKeyword : Yields Stmt.IsPlain (conditionalAtKeyword parts) := by
  intro ts hts
  cases ts with
  | nil => exact gives_stop _ _
  | cons t rest =>
      exact gives_widen (Nat.le_succ _) (yields_conditional hparts rest hts.tail)

end Statements

theorem yields_terminated {p : Phrase Stmt} (hp : Yields Stmt.IsPlain p) :
    Yields Stmt.IsPlain (terminated p) := by
  intro ts hts
  refine gives_andThen (hp ts hts) ?_
  intro s ts₁ h₁ hs hts₁
  split
  · exact gives_finish _ hs hts₁.tail
  · exact gives_finish _ hs hts₁

/-- Parts of statements of any depth, by induction on the budget. -/
theorem arePlain_parts (limit budget : Nat) (inFunction : Bool) :
    (parts limit inFunction budget).ArePlain := by
  induction budget generalizing inFunction with
  | zero =>
      exact ⟨yields_expression limit 0, yields_tooDeep limit, yields_tooDeep limit,
        yields_tooDeep limit⟩
  | succ budget ih =>
      have hstatement (inFunction : Bool) := yields_terminated
        (yields_bareStatement (ih inFunction) inFunction)
      exact ⟨yields_expression limit (budget + 1), yields_braces (hstatement inFunction),
        yields_braces (hstatement true), yields_conditionalAtKeyword (ih inFunction)⟩

/-- A unit, by induction on the tokens. -/
theorem arePlain_unit (limit : Nat) (ts : Tokens) {block : Block} (hts : PlainTokens ts)
    (h : unit limit ts = .ok block) : Stmt.ArePlain block := by
  have hstatement : Yields Stmt.IsPlain (statement limit false limit) :=
    yields_terminated (yields_bareStatement (arePlain_parts limit limit false) false)
  fun_induction unit limit ts generalizing block with
  | case1 =>
      cases h
      trivial
  | case2 => cases h
  | case3 => cases h
  | case4 t rest first hfirst others hothers ih =>
      cases h
      rcases hstatement _ hts first hfirst with ⟨htree, hleft⟩
      exact ⟨htree, ih hleft hothers⟩

end Parser

/-- All literals in the tree of a source are plain. -/
theorem arePlain_parse {limit : Nat} {source : String} {block : Block}
    (h : parse limit source = .ok block) : Stmt.ArePlain block := by
  unfold parse at h
  cases htokens : tokenize source with
  | error e =>
      rw [htokens] at h
      cases h
  | ok ts =>
      rw [htokens] at h
      have hunit : parseTokens limit ts = .ok block := h
      unfold parseTokens at hunit
      split at hunit
      · cases hunit
      · rename_i hblock
        cases hunit
        exact Parser.arePlain_unit limit ts (Lexer.plainTokens_scan 1 _ htokens) hblock

/-! ## Constant pools -/

namespace Function

/-- All constants of the function are plain. -/
def IsPlain (f : Function) : Prop :=
  ∀ c ∈ f.constants, c.IsPlain

variable {f : Function}

/-- A function begins with an empty pool. -/
theorem isPlain_new (name : String) (paramCount : Nat) : (new name paramCount).IsPlain := by
  intro c hc
  simp [new] at hc

/-- Instructions are no constants. -/
theorem IsPlain.emit (hf : f.IsPlain) (op : Opcode) : (f.emit op).IsPlain :=
  hf

theorem IsPlain.addConstant (hf : f.IsPlain) {v : Value} (hv : v.IsPlain) :
    (f.addConstant v).1.IsPlain := by
  unfold Function.addConstant
  split
  · exact hf
  · intro c hc
    rcases Array.mem_push.1 hc with hc | rfl
    · exact hf c hc
    · exact hv

theorem IsPlain.emitConstant (hf : f.IsPlain) {v : Value} (hv : v.IsPlain) :
    (f.emitConstant v).IsPlain :=
  (hf.addConstant hv).emit _

theorem constants_addName (f : Function) (y : String) :
    (f.addName y).1.constants = f.constants := by
  unfold addName
  split <;> rfl

theorem IsPlain.addName (hf : f.IsPlain) (y : String) : (f.addName y).1.IsPlain := by
  unfold IsPlain
  rw [constants_addName]
  exact hf

section Trees

variable (params : List String)

theorem IsPlain.emitLoad (hf : f.IsPlain) (y : String) : (f.emitLoad params y).IsPlain := by
  unfold Function.emitLoad
  split
  · exact hf.emit _
  · exact (hf.addName y).emit _

theorem IsPlain.emitStore (hf : f.IsPlain) (y : String) : (f.emitStore params y).IsPlain := by
  unfold Function.emitStore
  split
  · exact hf.emit _
  · exact (hf.addName y).emit _

theorem IsPlain.emitCallee (hf : f.IsPlain) (y : String) : (f.emitCallee y).IsPlain :=
  (hf.addName y).emit _

mutual

/-- By recursion on the tree. -/
theorem isPlain_emitExpr {f : Function} (hf : f.IsPlain) :
    (e : Expr) → e.IsPlain → (f.emitExpr params e).IsPlain
  | .literal _ => fun he => hf.emitConstant he
  | .name y => fun _ => hf.emitLoad params y
  | .prefixed _ e => fun he => (isPlain_emitExpr hf e he).emit _
  | .binary _ l r => fun he =>
      (isPlain_emitExpr (isPlain_emitExpr hf l he.1) r he.2).emit _
  | .call y args => fun he => (isPlain_emitExprs (hf.emitCallee y) args he).emit _

theorem isPlain_emitExprs {f : Function} (hf : f.IsPlain) :
    (es : List Expr) → Expr.ArePlain es → (f.emitExprs params es).IsPlain
  | [] => fun _ => hf
  | e :: rest => fun hes => isPlain_emitExprs (isPlain_emitExpr hf e hes.1) rest hes.2

end

mutual

/-- By recursion on the tree. -/
theorem isPlain_emitStmt {f : Function} (hf : f.IsPlain) :
    (s : Stmt) → s.IsPlain → (f.emitStmt params s).IsPlain
  | .func _ _ _ => fun _ => hf
  | .ret none => fun _ => (hf.emitConstant Value.isPlain_null).emit _
  | .ret (some e) => fun he => (isPlain_emitExpr params hf e he).emit _
  | .when test body => fun hs =>
      isPlain_emitBlock ((isPlain_emitExpr params hf test hs.1).emit _) body hs.2
  | .choose test body otherwise => fun hs =>
      isPlain_emitBlock ((isPlain_emitBlock ((isPlain_emitExpr params hf test hs.1).emit _) body
        hs.2.1).emit _) otherwise hs.2.2
  | .loop test body => fun hs =>
      (isPlain_emitBlock ((isPlain_emitExpr params hf test hs.1).emit _) body hs.2).emit _
  | .assign y e => fun he => (isPlain_emitExpr params hf e he).emitStore params y
  | .eval e => fun he => (isPlain_emitExpr params hf e he).emit _

theorem isPlain_emitBlock {f : Function} (hf : f.IsPlain) :
    (b : Block) → Stmt.ArePlain b → (f.emitBlock params b).IsPlain
  | [] => fun _ => hf
  | s :: rest => fun hb => isPlain_emitBlock (isPlain_emitStmt hf s hb.1) rest hb.2

end

/-- A plain body is compiled to a plain pool. -/
theorem isPlain_ofBody (name : String) {body : Block} (hbody : Stmt.ArePlain body) :
    (ofBody name params body).IsPlain :=
  ((isPlain_emitBlock params (isPlain_new name _) body hbody).emitConstant
    Value.isPlain_null).emit _

end Trees

/-- The entry that serves a literal is the literal itself. -/
theorem getElem?_addConstant_of_isPlain {F : Function} (hF : F.IsPlain)
    {v : Value} (hv : v.IsPlain) (hextends : Extends (f.addConstant v).1 F) :
    F.constants[(f.addConstant v).2]? = some v := by
  rcases f.getElem?_addConstant v with ⟨c, hc, hserves⟩
  have hfinal := hextends.constants hc
  rcases hserves with rfl | ⟨_, hequals⟩
  · exact hfinal
  · -- an older entry that the language considers equal, and both are plain
    rw [hfinal, Value.eq_of_equals (hF c (Array.mem_of_getElem? hfinal)) hv hequals]

end Function

/-! ## Declared functions -/

def FuncDecl.IsPlain (d : FuncDecl) : Prop :=
  Stmt.ArePlain d.body

mutual

/-- Declarations of a plain tree are plain. -/
theorem isPlain_of_mem_declared {d : FuncDecl} :
    (s : Stmt) → s.IsPlain → d ∈ s.declared → d.IsPlain
  | .func _ _ _ => by
      intro hs hd
      rw [Stmt.declared, List.mem_singleton] at hd
      subst hd
      exact hs
  | .ret _ => by
      intro _ hd
      cases hd
  | .when _ body => fun hs hd => isPlain_of_mem_declaredIn body hs.2 hd
  | .choose _ body otherwise => by
      intro hs hd
      rw [Stmt.declared, List.mem_append] at hd
      rcases hd with hd | hd
      · exact isPlain_of_mem_declaredIn body hs.2.1 hd
      · exact isPlain_of_mem_declaredIn otherwise hs.2.2 hd
  | .loop _ body => fun hs hd => isPlain_of_mem_declaredIn body hs.2 hd
  | .assign _ _ => by
      intro _ hd
      cases hd
  | .eval _ => by
      intro _ hd
      cases hd

theorem isPlain_of_mem_declaredIn {d : FuncDecl} :
    (b : Block) → Stmt.ArePlain b → d ∈ declaredIn b → d.IsPlain
  | [] => by
      intro _ hd
      cases hd
  | s :: rest => by
      intro hb hd
      rw [declaredIn, List.mem_append] at hd
      rcases hd with hd | hd
      · exact isPlain_of_mem_declared s hb.1 hd
      · exact isPlain_of_mem_declaredIn rest hb.2 hd

end

end Script
end ScriptHost
