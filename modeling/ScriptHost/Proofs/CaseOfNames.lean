import ScriptHost.Proofs.LetterCase
import ScriptHost.Proofs.NestingLimits
import ScriptHost.Proofs.Stepping

/-!
# The case of identifiers does not matter

Wherever the parser takes an identifier it takes its normal form, and nothing else that it does
depends on the name. So two sources that differ only in the case of their identifiers are the same
unit, or both are refused on one line; a machine runs them to the same end.
-/

namespace ScriptHost
namespace Script

/-- Token by token the same, apart from the case of identifiers. -/
abbrev AlikeTokens : List Located → List Located → Prop :=
  List.Forall₂ Located.Alike

section Tokens

variable {t t' : Located} {tok : Token} {x : String} {line : Nat} {rest ts ts' : List Located}

/-- No symbol is an identifier. -/
theorem symbol_ne_ident (symbol : Symbol) (x : String) : Token.symbol symbol ≠ .ident x :=
  nofun

theorem keyword_ne_ident (k : Keyword) (x : String) : Token.keyword k ≠ .ident x :=
  nofun

theorem Located.Alike.symm (h : t.Alike t') : t'.Alike t := by
  rcases t with ⟨tok, line⟩
  rcases t' with ⟨tok', line'⟩
  rcases h with ⟨htoken, hline⟩
  refine ⟨?_, hline.symm⟩
  cases htoken with
  | same => exact .same _
  | ident hname => exact .ident hname.symm

theorem AlikeTokens.symm (h : AlikeTokens ts ts') : AlikeTokens ts' ts :=
  h.flip.imp fun _ _ => Located.Alike.symm

/-- Only identifiers have tokens of their kind to which they are alike. -/
theorem Located.Alike.fixed (h : Located.Alike ⟨tok, line⟩ t') (htok : ∀ x, tok ≠ .ident x) :
    t' = ⟨tok, line⟩ := by
  rcases t' with ⟨tok', line'⟩
  rcases h with ⟨htoken, hline⟩
  cases hline
  cases htoken with
  | same => rfl
  | ident => exact absurd rfl (htok _)

/-- A token that is no identifier stands at the same place on both sides. -/
theorem Located.Alike.token_iff (h : t.Alike t') (htok : ∀ x, tok ≠ .ident x) :
    t.token = tok ↔ t'.token = tok := by
  constructor
  · intro ht
    rcases t with ⟨_, line⟩
    cases ht
    rw [h.fixed htok]
  · intro ht
    rcases t' with ⟨_, line⟩
    cases ht
    rw [h.symm.fixed htok]

/-- What is no identifier is the same on both sides. -/
theorem AlikeTokens.fixed (h : AlikeTokens (⟨tok, line⟩ :: rest) ts')
    (htok : ∀ x, tok ≠ .ident x) :
    ∃ rest', ts' = ⟨tok, line⟩ :: rest' ∧ AlikeTokens rest rest' := by
  cases h with
  | cons ht hrest =>
      rw [ht.fixed htok]
      exact ⟨_, rfl, hrest⟩

/-- An identifier is one on both sides, with the same normal form. -/
theorem AlikeTokens.ident (h : AlikeTokens (⟨.ident x, line⟩ :: rest) ts') :
    ∃ y rest', ts' = ⟨.ident y, line⟩ :: rest' ∧ normalizeName x = normalizeName y ∧
      AlikeTokens rest rest' := by
  cases h with
  | @cons _ t' _ rest' ht hrest =>
      rcases t' with ⟨tok', line'⟩
      rcases ht with ⟨htoken, hline⟩
      cases hline
      cases htoken with
      | same => exact ⟨x, rest', rfl, rfl, hrest⟩
      | @ident _ y hname => exact ⟨y, rest', rfl, hname, hrest⟩

/-- A fixed token is not next in one list if it is not in the other. -/
theorem AlikeTokens.not_fixed (h : AlikeTokens ts ts')
    (hother : ∀ line rest, ts = ⟨tok, line⟩ :: rest → False) (htok : ∀ x, tok ≠ .ident x) :
    ∀ line rest', ts' ≠ ⟨tok, line⟩ :: rest' := by
  rintro line rest' rfl
  rcases h.symm.fixed htok with ⟨rest, rfl, _⟩
  exact hother line rest rfl

end Tokens

namespace Parser

variable {α β : Type} {m n m' n' : Nat} {ts ts' : Tokens}

/-- The same tree with alike tokens left, or the same complaint at alike tokens. -/
inductive Alike {α : Type} {m n : Nat} : Result α m → Result α n → Prop
  | ok {tree rest rest'} (h : rest.length < m) (h' : rest'.length < n) :
      AlikeTokens rest rest' → Alike (.ok ⟨tree, rest, h⟩) (.ok ⟨tree, rest', h'⟩)
  | stopped {fault rest rest'} : AlikeTokens rest rest' →
      Alike (.error ⟨fault, rest⟩) (.error ⟨fault, rest'⟩)

/-- The parser has alike results on alike tokens. -/
def IgnoresCase (p : Phrase α) : Prop :=
  ∀ ts ts', AlikeTokens ts ts' → Alike (p ts) (p ts')

/-! ## Combinators -/

section Combinators

variable {r : Result α m} {r' : Result α n}

/-- What follows on a phrase follows on it on both sides. -/
theorem Alike.andThen {next : α → (ts : Tokens) → ts.length < m → Result β m}
    {next' : α → (ts : Tokens) → ts.length < n → Result β n} (h : Alike r r')
    (hnext : ∀ a ts ts' hts hts', AlikeTokens ts ts' →
      Alike (next a ts hts) (next' a ts' hts')) :
    Alike (andThen r next) (andThen r' next') := by
  cases h with
  | ok hts hts' hrest => exact hnext _ _ _ hts hts' hrest
  | stopped hrest => exact .stopped hrest

theorem Alike.widen (h : Alike r r') (hle : m ≤ m') (hle' : n ≤ n') :
    Alike (widen hle r) (widen hle' r') := by
  cases h with
  | ok hts hts' hrest => exact .ok _ _ hrest
  | stopped hrest => exact .stopped hrest

theorem Alike.mapTree (h : Alike r r') (f : α → β) : Alike (mapTree f r) (mapTree f r') := by
  cases h with
  | ok hts hts' hrest => exact .ok _ _ hrest
  | stopped hrest => exact .stopped hrest

/-- Both sides come to an end with the same tree. -/
theorem alike_finish (tree : α) (h : AlikeTokens ts ts') (hts : ts.length < m)
    (hts' : ts'.length < n) : Alike (finish tree ts hts) (finish tree ts' hts') :=
  .ok hts hts' h

theorem alike_stop (fault : SyntaxFault) (h : AlikeTokens ts ts') :
    Alike (stop fault ts : Result α m) (stop fault ts' : Result α n) :=
  .stopped h

/-- How deep a phrase is nested has nothing to do with letters. -/
theorem ignoresCase_tooDeep (limit : Nat) : IgnoresCase (tooDeep limit : Phrase α) :=
  fun _ _ h => alike_stop _ h

end Combinators

/-! ## Single tokens -/

/-- A symbol is expected on both sides. -/
theorem ignoresCase_expect (s : Symbol) (what : Expectation) : IgnoresCase (expect s what) := by
  intro ts ts' h
  cases h with
  | nil => exact alike_stop _ .nil
  | @cons t t' rest rest' ht hrest =>
      have hiff : t.token = .symbol s ↔ t'.token = .symbol s := ht.token_iff (symbol_ne_ident _)
      simp only [expect]
      by_cases hs : t.token = .symbol s
      · rw [if_pos hs, if_pos (hiff.1 hs)]
        exact alike_finish _ hrest _ _
      · rw [if_neg hs, if_neg (mt hiff.2 hs)]
        exact alike_stop _ (.cons ht hrest)

/-- Of a name only the normal form is taken. -/
theorem ignoresCase_expectName (what : Expectation) : IgnoresCase (expectName what) := by
  intro ts ts' h
  cases h with
  | nil => exact alike_stop _ .nil
  | @cons t t' rest rest' ht hrest =>
      rcases t with ⟨tok, line⟩
      rcases t' with ⟨tok', line'⟩
      rcases ht with ⟨htoken, hline⟩
      -- Names that differ in case only have one normal form, which is all that is kept of them.
      cases htoken with
      | ident hname =>
          simp only [expectName, hname]
          exact alike_finish _ hrest _ _
      | same =>
          cases tok with
          | ident => exact alike_finish _ hrest _ _
          | _ => exact alike_stop _ (.cons ⟨.same _, hline⟩ hrest)

/-! ## Expressions -/

section Expressions

variable {level : Token → Option BinaryOp} {p nested : Phrase Expr}

/-- No identifier is an operator of the level. -/
def OnSymbols (level : Token → Option BinaryOp) : Prop :=
  ∀ x, level (.ident x) = none

/-- Operators are symbols, and so they are the same. -/
theorem level_of_alike (hlevel : OnSymbols level) {t t' : Token} (h : t.Alike t') :
    level t = level t' := by
  cases h with
  | same => rfl
  | ident => rw [hlevel, hlevel]

/-- A chain of operands and operators, by induction on the tokens. -/
theorem alike_chainFrom (hlevel : OnSymbols level) (h : IgnoresCase p) (left : Expr)
    (ts ts' : Tokens) (hts : AlikeTokens ts ts') :
    Alike (chainFrom level p left ts) (chainFrom level p left ts') := by
  fun_induction chainFrom level p left ts generalizing ts' with
  | case1 left =>
      cases hts
      rw [chainFrom]
      exact alike_finish _ .nil _ _
  | case2 left t rest hnone =>
      rcases hts with _ | ⟨ht, hrest⟩
      -- Operators are symbols, and those are alike only when they are the same.
      rw [chainFrom, ← level_of_alike hlevel ht.token, hnone]
      exact alike_finish _ (.cons ht hrest) _ _
  | case3 left t rest op hop ih =>
      rcases hts with _ | ⟨ht, hrest⟩
      rw [chainFrom, ← level_of_alike hlevel ht.token, hop]
      refine Alike.widen (Alike.andThen (h _ _ hrest) ?_) _ _
      exact fun right ts₁ ts₁' h₁ h₁' halike => (ih right ts₁ h₁ ts₁' halike).widen _ _

theorem IgnoresCase.chain (hlevel : OnSymbols level) (h : IgnoresCase p) :
    IgnoresCase (chain level p) :=
  fun _ _ hts => (h _ _ hts).andThen fun first ts₁ ts₁' _ _ h₁ =>
    (alike_chainFrom hlevel h first ts₁ ts₁' h₁).widen _ _

theorem IgnoresCase.climb (h : IgnoresCase p) : IgnoresCase (climb p) :=
  .chain (fun _ => rfl) (.chain (fun _ => rfl) (.chain (fun _ => rfl) (.chain (fun _ => rfl) h)))

/-- The arguments of a call, by induction on the tokens. -/
theorem alike_argumentsFrom (h : IgnoresCase p) (ts ts' : Tokens) (hts : AlikeTokens ts ts') :
    Alike (argumentsFrom p ts) (argumentsFrom p ts') := by
  fun_induction argumentsFrom p ts generalizing ts' with
  | case1 ts ih =>
      rw [argumentsFrom]
      refine (h _ _ hts).andThen fun first ts₁ ts₁' h₁ h₁' halike => ?_
      cases halike with
      | nil => exact alike_finish _ .nil _ _
      | @cons t t' rest rest' ht hrest =>
          have hiff : t.token = .symbol .comma ↔ t'.token = .symbol .comma :=
            ht.token_iff (symbol_ne_ident _)
          by_cases hcomma : t.token = .symbol .comma
          · simp only [hcomma, hiff.1 hcomma, if_true]
            exact ((ih t rest h₁ rest' hrest).widen _ _).mapTree _
          · simp only [hcomma, mt hiff.2 hcomma, if_false]
            exact alike_finish _ (.cons ht hrest) _ _

/-- A phrase with a closing parenthesis. -/
theorem IgnoresCase.closed {q : Phrase α} (h : IgnoresCase q) (what : Expectation) :
    IgnoresCase fun ts => Parser.andThen (q ts) fun e ts₁ h₁ =>
      Parser.mapTree (fun _ => e) (Parser.widen (Nat.le_of_lt h₁) (expect .closeParen what ts₁)) :=
  fun _ _ hts => (h _ _ hts).andThen fun _ _ _ _ _ h₁ =>
    ((ignoresCase_expect _ _ _ _ h₁).widen _ _).mapTree _

theorem IgnoresCase.arguments (h : IgnoresCase p) : IgnoresCase (arguments p) := by
  intro ts ts' hts
  have hfrom : IgnoresCase (argumentsFrom p) := alike_argumentsFrom h
  unfold Parser.arguments
  split
  · rcases hts.fixed (symbol_ne_ident _) with ⟨rest', rfl, hrest⟩
    exact alike_finish _ hrest _ _
  · rename_i hother
    split
    · exact absurd rfl (hts.not_fixed hother (symbol_ne_ident _) _ _)
    · exact hfrom.closed _ _ _ hts

theorem IgnoresCase.parenthesized (h : IgnoresCase p) : IgnoresCase (parenthesized p) :=
  h.closed _

/-- Only a parenthesis makes a name a call. -/
theorem alike_nameOrCall (h : IgnoresCase p) (name : String) (hts : AlikeTokens ts ts') :
    Alike (nameOrCall p name ts) (nameOrCall p name ts') := by
  unfold nameOrCall
  split
  · rcases hts.fixed (symbol_ne_ident _) with ⟨inner', rfl, hinner⟩
    exact ((h.arguments _ _ hinner).widen _ _).mapTree _
  · rename_i hother
    split
    · exact absurd rfl (hts.not_fixed hother (symbol_ne_ident _) _ _)
    · exact alike_finish _ hts _ _

/-- A name is the only operand that is read off an identifier. -/
theorem ignoresCase_operandWith (hnested : IgnoresCase nested) (h : IgnoresCase p) :
    IgnoresCase (operandWith nested p) := by
  intro ts ts' hts
  cases hts with
  | nil => exact alike_stop _ .nil
  | @cons t t' rest rest' ht hrest =>
      rcases t with ⟨tok, line⟩
      rcases t' with ⟨tok', line'⟩
      rcases ht with ⟨htoken, hline⟩
      cases htoken with
      | ident hname =>
          -- only the normal form goes into the tree
          simp only [operandWith, hname]
          exact alike_nameOrCall h _ hrest
      | same =>
          simp only [operandWith]
          split
          · exact ((hnested _ _ hrest).widen _ _).mapTree _
          · exact ((hnested _ _ hrest).widen _ _).mapTree _
          · exact (h.parenthesized _ _ hrest).widen _ _
          · exact alike_nameOrCall h _ hrest
          · exact alike_finish _ hrest _ _
          · exact alike_finish _ hrest _ _
          · exact alike_finish _ hrest _ _
          · exact alike_finish _ hrest _ _
          · exact alike_finish _ hrest _ _
          · exact alike_stop _ (.cons ⟨.same _, hline⟩ hrest)

/-- Operands of any depth, by induction on the budget. -/
theorem ignoresCase_operand (limit budget : Nat) : IgnoresCase (operand limit budget) := by
  induction budget with
  | zero => exact ignoresCase_operandWith (ignoresCase_tooDeep _) (ignoresCase_tooDeep _)
  | succ budget ih => exact ignoresCase_operandWith ih ih.climb

theorem ignoresCase_expression (limit budget : Nat) : IgnoresCase (expression limit budget) := by
  cases budget with
  | zero => exact ignoresCase_tooDeep _
  | succ budget => exact (ignoresCase_operand limit budget).climb

end Expressions

/-! ## Statements -/

section Statements

variable {p : Phrase Stmt}

/-- The statements of a block, by induction on the tokens. -/
theorem alike_statementsFrom (h : IgnoresCase p) (ts ts' : Tokens) (hts : AlikeTokens ts ts') :
    Alike (statementsFrom p ts) (statementsFrom p ts') := by
  fun_induction statementsFrom p ts generalizing ts' with
  | case1 =>
      cases hts
      rw [statementsFrom]
      exact alike_stop _ .nil
  | case2 t rest hclose =>
      rcases hts with _ | @⟨_, t', _, rest', ht, hrest⟩
      have hiff : t.token = .symbol .closeBrace ↔ t'.token = .symbol .closeBrace :=
        ht.token_iff (symbol_ne_ident _)
      rw [statementsFrom, if_pos (hiff.1 hclose)]
      exact alike_finish _ hrest _ _
  | case3 t rest hopen ih =>
      rcases hts with _ | @⟨_, t', _, rest', ht, hrest⟩
      have hiff : t.token = .symbol .closeBrace ↔ t'.token = .symbol .closeBrace :=
        ht.token_iff (symbol_ne_ident _)
      rw [statementsFrom, if_neg (mt hiff.2 hopen)]
      refine Alike.andThen (h _ _ (.cons ht hrest)) fun s ts₁ ts₁' h₁ h₁' halike => ?_
      exact ((ih ts₁ h₁ ts₁' halike).widen _ _).mapTree _

theorem IgnoresCase.braces (h : IgnoresCase p) : IgnoresCase (braces p) :=
  fun _ _ hts => (ignoresCase_expect _ _ _ _ hts).andThen fun _ _ _ _ _ h₁ =>
    (alike_statementsFrom h _ _ h₁).widen _ _

/-- Names are compared in their normal form, and in that form a repeated one is complained of. -/
theorem alike_parametersFrom (seen : List String) (ts ts' : Tokens) (hts : AlikeTokens ts ts') :
    Alike (parametersFrom seen ts) (parametersFrom seen ts') := by
  fun_induction parametersFrom seen ts generalizing ts' with
  | case1 seen ts ih =>
      rw [parametersFrom]
      refine (ignoresCase_expectName _ _ _ hts).andThen fun name ts₁ ts₁' h₁ h₁' halike => ?_
      -- the name is the same on both sides, and so are the names seen before it
      by_cases hseen : name ∈ seen
      · simp only [hseen, if_true]
        exact alike_stop _ halike
      simp only [hseen, if_false]
      cases halike with
      | nil => exact alike_finish _ .nil _ _
      | @cons t t' rest rest' ht hrest =>
          have hiff : t.token = .symbol .comma ↔ t'.token = .symbol .comma :=
            ht.token_iff (symbol_ne_ident _)
          by_cases hcomma : t.token = .symbol .comma
          · simp only [hcomma, hiff.1 hcomma, if_true]
            exact (ih name t rest h₁ rest' hrest).widen _ _
          · simp only [hcomma, mt hiff.2 hcomma, if_false]
            exact alike_finish _ (.cons ht hrest) _ _

/-- Parameters are compared by their normal forms. -/
theorem ignoresCase_parameters : IgnoresCase parameters := by
  intro ts ts' hts
  have hfrom : IgnoresCase (parametersFrom []) := alike_parametersFrom []
  refine (ignoresCase_expect _ _ _ _ hts).andThen fun _ ts₁ ts₁' h₁ h₁' halike => ?_
  split
  · rcases halike.fixed (symbol_ne_ident _) with ⟨rest', rfl, hrest⟩
    exact alike_finish _ hrest _ _
  · rename_i hother
    split
    · rcases halike.symm.fixed (symbol_ne_ident _) with ⟨rest, rfl, _⟩
      exact (hother _ _ _ rfl HEq.rfl).elim
    · refine Alike.andThen ((hfrom _ _ halike).widen _ _) fun params ts₂ ts₂' h₂ h₂' hleft => ?_
      exact ((ignoresCase_expect _ _ _ _ hleft).widen _ _).mapTree _

/-- A statement with a semicolon, or without one before a brace. -/
theorem IgnoresCase.terminated (h : IgnoresCase p) : IgnoresCase (terminated p) := by
  refine fun ts ts' hts => (h _ _ hts).andThen fun s ts₁ ts₁' h₁ h₁' halike => ?_
  split
  · rcases halike.fixed (symbol_ne_ident _) with ⟨rest', rfl, hrest⟩
    exact alike_finish _ hrest _ _
  · rename_i hother
    split
    · rcases halike.symm.fixed (symbol_ne_ident _) with ⟨rest, rfl, _⟩
      exact (hother _ _ _ rfl HEq.rfl).elim
    · exact alike_finish _ halike _ _

/-- The parsers for the phrases inside a statement do not mind the case of identifiers. -/
structure PartsIgnoreCase (ps : Parts) : Prop where
  expression : IgnoresCase ps.expression
  block : IgnoresCase ps.block
  functionBody : IgnoresCase ps.functionBody
  elseIf : IgnoresCase ps.elseIf

namespace PartsIgnoreCase

variable {ps : Parts} (h : PartsIgnoreCase ps)
include h

/-- What follows on a block of an if. -/
theorem alternative : IgnoresCase (alternative ps) := by
  intro ts ts' hts
  unfold Parser.alternative
  split
  · rcases hts.fixed (keyword_ne_ident _) with ⟨rest', rfl, hrest⟩
    exact (h.elseIf _ _ hts).mapTree _
  · rename_i hother
    split
    · exact absurd rfl (hts.not_fixed hother (keyword_ne_ident _) _ _)
    · exact h.block _ _ hts

theorem conditional : IgnoresCase (conditional ps) := by
  refine fun ts ts' hts => (h.expression _ _ hts).andThen fun test ts₁ ts₁' _ _ htest => ?_
  refine Alike.andThen ((h.block _ _ htest).widen _ _) fun body ts₂ ts₂' h₂ h₂' hbody => ?_
  split
  · rcases hbody.fixed (keyword_ne_ident _) with ⟨rest', rfl, hrest⟩
    exact ((h.alternative _ _ hrest).widen _ _).mapTree _
  · rename_i hother
    split
    · rcases hbody.symm.fixed (keyword_ne_ident _) with ⟨rest, rfl, _⟩
      exact (hother _ _ _ rfl HEq.rfl).elim
    · exact alike_finish _ hbody _ _

theorem loop : IgnoresCase (loop ps) :=
  fun _ _ hts => (h.expression _ _ hts).andThen fun _ _ _ _ _ h₁ =>
    ((h.block _ _ h₁).widen _ _).mapTree _

theorem declaration : IgnoresCase (declaration ps) :=
  fun _ _ hts => (ignoresCase_expectName _ _ _ hts).andThen fun _ _ _ _ _ h₁ =>
    Alike.andThen ((ignoresCase_parameters _ _ h₁).widen _ _) fun _ _ _ _ _ h₂ =>
      ((h.functionBody _ _ h₂).widen _ _).mapTree _

/-- A return with a value or without. -/
theorem alike_returned (hts : AlikeTokens ts ts') :
    Alike (returned ps ts) (returned ps ts') := by
  cases hts with
  | nil => exact alike_finish _ .nil _ _
  | @cons t t' rest rest' ht hrest =>
      have hbrace : t.token = .symbol .closeBrace ↔ t'.token = .symbol .closeBrace :=
        ht.token_iff (symbol_ne_ident _)
      have hsemicolon : t.token = .symbol .semicolon ↔ t'.token = .symbol .semicolon :=
        ht.token_iff (symbol_ne_ident _)
      simp only [returned, hbrace, hsemicolon]
      split
      · exact alike_finish _ (.cons ht hrest) _ _
      · exact ((h.expression _ _ (.cons ht hrest)).widen _ _).mapTree _

/-- An assignment is told by the token behind its name, which is no identifier. -/
theorem bareStatement (inFunction : Bool) : IgnoresCase (bareStatement inFunction ps) := by
  intro ts ts' hts
  unfold Parser.bareStatement
  split
  · rcases hts.fixed (keyword_ne_ident _) with ⟨rest', rfl, hrest⟩
    dsimp only
    split
    · exact alike_stop _ hts
    · exact (h.declaration _ _ hrest).widen _ _
  · rcases hts.fixed (keyword_ne_ident _) with ⟨rest', rfl, hrest⟩
    exact h.alike_returned hrest
  · rcases hts.fixed (keyword_ne_ident _) with ⟨rest', rfl, hrest⟩
    exact (h.conditional _ _ hrest).widen _ _
  · rcases hts.fixed (keyword_ne_ident _) with ⟨rest', rfl, hrest⟩
    exact (h.loop _ _ hrest).widen _ _
  · rcases hts.ident with ⟨y, rest₁', rfl, hname, hrest₁⟩
    rcases hrest₁.fixed (symbol_ne_ident _) with ⟨rest', rfl, hrest⟩
    simp only [hname]
    exact ((h.expression _ _ hrest).widen _ _).mapTree _
  -- no form of its own begins here, so none begins in the other tokens
  · rename_i hfunc hreturn hif hwhile hassign
    split
    · exact absurd rfl (hts.not_fixed hfunc (keyword_ne_ident _) _ _)
    · exact absurd rfl (hts.not_fixed hreturn (keyword_ne_ident _) _ _)
    · exact absurd rfl (hts.not_fixed hif (keyword_ne_ident _) _ _)
    · exact absurd rfl (hts.not_fixed hwhile (keyword_ne_ident _) _ _)
    · rcases hts.symm.ident with ⟨y, rest₁, rfl, hname, hrest₁⟩
      rcases hrest₁.fixed (symbol_ne_ident _) with ⟨rest, rfl, hrest⟩
      exact (hassign _ _ _ _ rfl).elim
    · exact (h.expression _ _ hts).mapTree _

theorem conditionalAtKeyword : IgnoresCase (conditionalAtKeyword ps) := by
  intro ts ts' hts
  cases hts with
  | nil => exact alike_stop _ .nil
  | cons ht hrest => exact (h.conditional _ _ hrest).widen (Nat.le_succ _) (Nat.le_succ _)

end PartsIgnoreCase

/-- Parts of statements of any depth, by induction on the budget. -/
theorem parts_ignoreCase (limit : Nat) (inFunction : Bool) (budget : Nat) :
    PartsIgnoreCase (parts limit inFunction budget) := by
  -- The phrases of one level are made of those of the level below.
  induction budget generalizing inFunction with
  | zero =>
      exact
        { expression := ignoresCase_expression limit 0
          block := ignoresCase_tooDeep limit
          functionBody := ignoresCase_tooDeep limit
          elseIf := ignoresCase_tooDeep limit }
  | succ budget ih =>
      exact
        { expression := ignoresCase_expression limit (budget + 1)
          block := ((ih inFunction).bareStatement inFunction).terminated.braces
          functionBody := ((ih true).bareStatement true).terminated.braces
          elseIf := (ih inFunction).conditionalAtKeyword }

theorem ignoresCase_statement (limit : Nat) (inFunction : Bool) (budget : Nat) :
    IgnoresCase (statement limit inFunction budget) :=
  ((parts_ignoreCase limit inFunction budget).bareStatement inFunction).terminated

end Statements

/-! ## Units -/

/-- The same block, or the same complaint at alike tokens. -/
inductive AlikeUnits : Except Stop Block → Except Stop Block → Prop
  | ok (block : Block) : AlikeUnits (.ok block) (.ok block)
  | stopped {fault rest rest'} : AlikeTokens rest rest' →
      AlikeUnits (.error ⟨fault, rest⟩) (.error ⟨fault, rest'⟩)

/-- Both units have the same tree, or the same fault at the same place. -/
theorem alike_unit (limit : Nat) (ts ts' : Tokens) (hts : AlikeTokens ts ts') :
    AlikeUnits (unit limit ts) (unit limit ts') := by
  induction hlength : ts.length using Nat.strongRecOn generalizing ts ts' with
  | ind n ih =>
      cases hts with
      | nil =>
          rw [unit]
          exact .ok _
      | @cons t t' rest rest' ht hrest =>
          have hfirst := ignoresCase_statement limit false limit _ _ (.cons ht hrest)
          -- what the first statements leave is alike again, and shorter than what there was
          rw [unit_cons, unit_cons]
          generalize statement limit false limit (t :: rest) = r at hfirst
          generalize statement limit false limit (t' :: rest') = r' at hfirst
          cases hfirst with
          | stopped hleft => exact .stopped hleft
          | @ok s left left' hleft hleft' halike =>
              have hothers := ih _ (hlength ▸ hleft) left left' halike rfl
              dsimp only [Except.bind]
              generalize unit limit left = others at hothers
              generalize unit limit left' = others' at hothers
              cases hothers with
              | stopped hleft => exact .stopped hleft
              | ok block => exact .ok _

/-- A complaint is made on the line of a token that both have, or of the last one. -/
theorem lineOf_of_alike {fault : SyntaxFault} {rest rest' : Tokens} (hts : AlikeTokens ts ts')
    (hrest : AlikeTokens rest rest') : lineOf ts ⟨fault, rest⟩ = lineOf ts' ⟨fault, rest'⟩ := by
  have hlines {l l' : Tokens} (h : AlikeTokens l l') : l.map (·.line) = l'.map (·.line) := by
    induction h with
    | nil => rfl
    | cons ht _ ih => exact List.cons_eq_cons.2 ⟨ht.line, ih⟩
  unfold lineOf
  dsimp only
  rw [Option.map_or, Option.map_or, ← List.head?_map, ← List.head?_map, ← List.getLast?_map,
    ← List.getLast?_map, hlines hts, hlines hrest]

end Parser

/-! ## Sources -/

/-- The same fault on the same line, at tokens that differ in the case of an identifier at most. -/
structure CompileError.Alike (e e' : CompileError) : Prop where
  line : e.line = e'.line
  fault : e.fault = e'.fault
  found : Option.Rel Token.Alike e.found e'.found

theorem CompileError.Alike.refl (e : CompileError) : e.Alike e := by
  refine ⟨rfl, rfl, ?_⟩
  cases e.found with
  | none => exact .none
  | some t => exact .some (.same t)

/-- An error names the line of the token at fault, which is the same. -/
theorem Parser.errorOf_of_alike {ts ts' rest rest' : Tokens} (fault : SyntaxFault)
    (hts : AlikeTokens ts ts') (hrest : AlikeTokens rest rest') :
    (errorOf ts ⟨fault, rest⟩).Alike (errorOf ts' ⟨fault, rest'⟩) := by
  refine ⟨lineOf_of_alike hts hrest, rfl, ?_⟩
  cases hrest with
  | nil => exact .none
  | cons ht _ => exact .some ht.token

variable {source source' : String}

/-- Both sources compile to the same functions, or not at all. -/
theorem compile_recased (h : Recased source.toList source'.toList) (limit : Nat) :
    (∃ compiled, compile limit source = .ok compiled ∧ compile limit source' = .ok compiled) ∨
      ∃ e e', compile limit source = .error e ∧ compile limit source' = .error e' ∧
        e.Alike e' := by
  unfold compile parse tokenize
  rcases Lexer.scan_recased h 1 with ⟨e, he, he'⟩ | ⟨ts, ts', hts, hts', halike⟩
  · rw [he, he']
    exact .inr ⟨e, e, rfl, rfl, .refl e⟩
  · have hunit := Parser.alike_unit limit ts ts' halike
    simp only [hts, hts', bind, Except.bind, parseTokens]
    generalize Parser.unit limit ts = r at hunit
    generalize Parser.unit limit ts' = r' at hunit
    cases hunit with
    | ok block => exact .inl ⟨_, rfl, rfl⟩
    | stopped hrest => exact .inr ⟨_, _, rfl, rfl, Parser.errorOf_of_alike _ halike hrest⟩

end Script

namespace Machine

open Script

variable {ν σ : Type} {source source' : String}

/-- A machine sees nothing of a source but what it is compiled to. -/
theorem runSource_of_compile_eq {m : Hosted ν σ} {compiled : CompiledUnit}
    (h : compile m.vm.limits.nestingDepth source = .ok compiled)
    (h' : compile m.vm.limits.nestingDepth source' = .ok compiled) (natives : Natives ν σ)
    (budget : Nat) : runSource natives budget source m = runSource natives budget source' m := by
  have hload : Exec.onVm (Vm.load source) m = Exec.onVm (Vm.load source') m := by
    simp only [Exec.onVm, Vm.load, h, h']
  have hbegin : beginSource source m = beginSource source' m := by
    rw [beginSource, beginSource, Attempt.bind_apply, Attempt.bind_apply, hload]
  rw [runSource, runSource, hbegin]

/-- Two sources that differ in nothing but the case of identifiers are the same unit, whatever the
limit of nesting, or both are refused for the same fault on the same line. So a machine runs them
to the same end, with the same result, globals and calls of native functions, or it refuses both
without a change. -/
theorem case_of_identifiers_is_ignored (h : Recased source.toList source'.toList) :
    (∀ limit,
      (∃ compiled, compile limit source = .ok compiled ∧ compile limit source' = .ok compiled) ∨
      ∃ e e', compile limit source = .error e ∧ compile limit source' = .error e' ∧
        e.Alike e') ∧
    ∀ (natives : Natives ν σ) (budget : Nat) (m : Hosted ν σ),
      runSource natives budget source m = runSource natives budget source' m ∨
      ∃ e e', e.Alike e' ∧
        runSource natives budget source m = some (.error (.compile e), m) ∧
        runSource natives budget source' m = some (.error (.compile e'), m) := by
  refine ⟨compile_recased h, ?_⟩
  intro natives budget m
  -- A unit that compiles leaves no trace of how its names were written; one that does not stops
  -- before anything is run.
  rcases compile_recased h m.vm.limits.nestingDepth with
    ⟨compiled, hsource, hsource'⟩ | ⟨e, e', he, he', halike⟩
  · exact .inl (runSource_of_compile_eq hsource hsource' natives budget)
  · refine .inr ⟨e, e', halike, ?_, ?_⟩
    · rw [runSource, beginSource_of_error he]
    · rw [runSource, beginSource_of_error he']

/-- A parameter is found under any spelling of its name, and so is the function. -/
theorem parameter_in_other_letters :
    Recased "func f(x) \x7b return X \x7d".toList "func F(X) \x7b return x \x7d".toList ∧
    ∃ compiled, compile 2 "func f(x) \x7b return X \x7d" = .ok compiled ∧
      compile 2 "func F(X) \x7b return x \x7d" = .ok compiled := by
  have hrecased :
      Recased "func f(x) \x7b return X \x7d".toList "func F(X) \x7b return x \x7d".toList := by
    have hname {c : Char} {name : String} (hchars : name.toList = [c])
        (hstart : Lexer.isNameStart c = true) (hkeyword : Lexer.keyword? name = none) :
        IsIdentifier name :=
      ⟨⟨c, [], hchars, hstart, nofun⟩, hkeyword⟩
    refine .other rfl nofun (.other rfl nofun ?_)
    refine .name (y := "F") rfl (hname rfl rfl rfl) rfl (.other rfl nofun ?_)
    refine .name (y := "X") rfl (hname rfl rfl rfl) rfl (.other rfl nofun ?_)
    refine .other rfl nofun (.other rfl nofun (.other rfl nofun ?_))
    refine .other rfl nofun (.other rfl nofun ?_)
    refine .name (y := "x") rfl (hname rfl rfl rfl) rfl (.other rfl nofun ?_)
    exact .other rfl nofun .nil
  have haccepted : (compile 2 "func f(x) \x7b return X \x7d").isOk = true := by
    decide +kernel
  refine ⟨hrecased, ?_⟩
  have hlaw := @case_of_identifiers_is_ignored Unit Unit _ _ hrecased
  rcases hlaw.1 2 with hsame | ⟨e, e', he, _⟩
  · exact hsame
  · rw [he] at haccepted
    cases haccepted

end Machine
end ScriptHost
