import ScriptHost.Proofs.Grammar
import ScriptHost.Proofs.NestingLimits

/-!
# The parser recognises the grammar

Each parser gives a tree exactly if the grammar derives it, and leaves the same tokens behind. The
combinators carry this from the parts of a phrase to the phrase, and the budget of a parser is the
number of levels that the judgement has left.
-/

namespace ScriptHost
namespace Script

namespace Parser

open Grammar

variable {α β : Type} {m n : Nat}

/-- The tokens without their lines. -/
def tokensOf (ts : Tokens) : List Token :=
  ts.map (·.token)

@[simp]
theorem tokensOf_nil : tokensOf [] = [] :=
  rfl

@[simp]
theorem tokensOf_cons (t : Located) (ts : Tokens) : tokensOf (t :: ts) = t.token :: tokensOf ts :=
  rfl

/-- The result is that tree, with those tokens behind it. -/
def Reads (r : Result α n) (a : α) (rest : List Token) : Prop :=
  ∃ x, r = .ok x ∧ x.tree = a ∧ tokensOf x.rest = rest

/-- The parser gives what the judgement derives, and nothing else. -/
def Decides (p : Phrase α) (D : List Token → α → List Token → Prop) : Prop :=
  ∀ ts a rest, Reads (p ts) a rest ↔ D (tokensOf ts) a rest

/-! ## Combinators -/

section Combinators

variable {a : α} {b : β} {rest : List Token}

@[simp]
theorem reads_stop (fault : SyntaxFault) (ts : Tokens) :
    Reads (stop fault ts : Result α n) a rest ↔ False := by
  constructor
  · rintro ⟨x, h, _⟩
    cases h
  · exact False.elim

@[simp]
theorem reads_finish {tree : α} {ts : Tokens} (h : ts.length < n) :
    Reads (finish tree ts h) a rest ↔ tree = a ∧ tokensOf ts = rest := by
  constructor
  · rintro ⟨x, hx, htree, hrest⟩
    cases hx
    exact ⟨htree, hrest⟩
  · rintro ⟨htree, hrest⟩
    exact ⟨_, rfl, htree, hrest⟩

@[simp]
theorem reads_widen {r : Result α m} (h : m ≤ n) :
    Reads (widen h r) a rest ↔ Reads r a rest := by
  cases r with
  | error e =>
      constructor
      · rintro ⟨x, hx, _⟩
        cases hx
      · rintro ⟨x, hx, _⟩
        cases hx
  | ok x =>
      constructor
      · rintro ⟨y, hy, htree, hrest⟩
        cases hy
        exact ⟨x, rfl, htree, hrest⟩
      · rintro ⟨y, hy, htree, hrest⟩
        cases hy
        exact ⟨_, rfl, htree, hrest⟩

/-- Another tree for the same tokens. -/
theorem reads_mapTree {r : Result α n} {f : α → β} :
    Reads (mapTree f r) b rest ↔ ∃ a, Reads r a rest ∧ f a = b := by
  cases r with
  | error e =>
      constructor
      · rintro ⟨x, hx, _⟩
        cases hx
      · rintro ⟨_, ⟨x, hx, _⟩, _⟩
        cases hx
  | ok x =>
      constructor
      · rintro ⟨y, hy, htree, hrest⟩
        cases hy
        exact ⟨x.tree, ⟨x, rfl, rfl, hrest⟩, htree⟩
      · rintro ⟨a, ⟨y, hy, htree, hrest⟩, rfl⟩
        cases hy
        exact ⟨_, rfl, congrArg f htree, hrest⟩

/-- What is read after `r` is told by what comes next, given the tree and the tokens of `r`. -/
theorem reads_andThen {r : Result α m} {next : α → (ts : Tokens) → ts.length < m → Result β m}
    (D : α → List Token → Prop)
    (hnext : ∀ a ts h, Reads (next a ts h) b rest ↔ D a (tokensOf ts)) :
    Reads (andThen r next) b rest ↔ ∃ a mid, Reads r a mid ∧ D a mid := by
  cases r with
  | error e =>
      constructor
      · rintro ⟨x, hx, _⟩
        cases hx
      · rintro ⟨_, _, ⟨x, hx, _⟩, _⟩
        cases hx
  | ok x =>
      show Reads (next x.tree x.rest x.shorter) b rest ↔ _
      -- What is read first is determined, so the tokens that it leaves are the middle.
      rw [hnext]
      constructor
      · intro h
        exact ⟨_, _, ⟨x, rfl, rfl, rfl⟩, h⟩
      · rintro ⟨_, _, ⟨y, hy, rfl, rfl⟩, h⟩
        cases hy
        exact h

/-- At the limit nothing is derived and nothing is read. -/
theorem decides_tooDeep (limit : Nat) : Decides (tooDeep limit) (fun _ (_ : α) _ => False) :=
  fun ts _ _ => reads_stop _ ts

end Combinators

/-! ## Single tokens -/

/-- A symbol is read if it comes first. -/
theorem reads_expect (s : Symbol) (what : Expectation) (ts : Tokens) (u : Unit)
    (rest : List Token) : Reads (expect s what ts) u rest ↔ tokensOf ts = .symbol s :: rest := by
  cases ts with
  | nil => simp [expect]
  | cons t ts =>
      by_cases h : t.token = .symbol s <;> simp [expect, h]

theorem reads_expectName (what : Expectation) (ts : Tokens) (name : String) (rest : List Token) :
    Reads (expectName what ts) name rest ↔
      ∃ x, tokensOf ts = .ident x :: rest ∧ normalizeName x = name := by
  cases ts with
  | nil => simp [expectName]
  | cons t ts =>
      rcases t with ⟨token, line⟩
      cases token with
      | ident x =>
          constructor
          · intro h
            simp only [expectName, reads_finish] at h
            exact ⟨x, by rw [tokensOf_cons, h.2], h.1⟩
          · rintro ⟨y, hts, hname⟩
            cases hts
            simp [expectName, hname, tokensOf]
      | _ => simp [expectName]

/-- Another token comes next, or none. -/
theorem head?_ne {t : Token} {ts : Tokens} (h : ∀ line rest, ts ≠ ⟨t, line⟩ :: rest) :
    (tokensOf ts).head? ≠ some t := by
  rcases ts with _ | ⟨⟨token, line⟩, ts⟩
  · nofun
  · intro hhead
    cases hhead
    exact h line ts rfl

/-! ## Binary operators -/

/-- The operator of a level that a token is, if it is one. -/
def operatorOf : Precedence → Token → Option BinaryOp
  | .equality => equalityOp
  | .comparison => comparisonOp
  | .term => termOp
  | .factor => factorOp

/-- Operators of a precedence are those that join its parts. -/
theorem operatorOf_eq_some {p : Precedence} {t : Token} {op : BinaryOp} :
    operatorOf p t = some op ↔ Joins p op t := by
  constructor
  · intro h
    -- the symbols of a level stand in a table of its own
    cases p <;> dsimp only [operatorOf, equalityOp, comparisonOp, termOp, factorOp] at h <;>
      split at h <;> cases h <;> exact ⟨rfl, rfl⟩
  · rintro ⟨rfl, rfl⟩
    cases op <;> rfl

section Chains

variable {p : Precedence} {sub : Phrase Expr} {d : Nat}

/-- The loop over further operands: either no operator of the level comes next, or one does and
what has been read so far becomes its left operand. -/
theorem reads_chainFrom (hsub : Decides sub (Part p d)) (left : Expr) (ts : Tokens) (e : Expr)
    (rest : List Token) :
    Reads (chainFrom (operatorOf p) sub left ts) e rest ↔
      Further p d left (tokensOf ts) e rest := by
  -- The induction is on the operators of the level, from the left: what has been read so far is the
  -- left operand of what follows.
  fun_induction chainFrom (operatorOf p) sub left ts with
  | case1 left =>
      rw [reads_finish]
      constructor
      · rintro ⟨rfl, rfl⟩
        refine .done fun _ _ hhead => ?_
        cases hhead
      · intro h
        cases h
        exact ⟨rfl, rfl⟩
  | case2 left t ts hnone =>
      rw [reads_finish]
      have hends (op : BinaryOp) : ¬ Joins p op t.token := by
        rw [← operatorOf_eq_some, hnone]
        intro h
        cases h
      constructor
      · rintro ⟨rfl, rfl⟩
        refine .done fun op u hu => ?_
        cases hu
        exact hends op
      · intro h
        cases h with
        | done _ => exact ⟨rfl, rfl⟩
        | more hjoins _ _ => exact absurd hjoins (hends _)
  | case3 left t ts op hop ih =>
      rw [reads_widen, reads_andThen
        (fun right mid => Further p d (.binary op left right) mid e rest)
        fun right ts h => by rw [reads_widen, ih right ts h]]
      have hjoins := operatorOf_eq_some.1 hop
      constructor
      · -- `operatorOf` decides `Joins`, so the grammar has to take the same operator.
        rintro ⟨right, mid, hright, hfurther⟩
        exact .more hjoins ((hsub _ _ _).1 hright) hfurther
      · intro h
        cases h with
        | done hends => exact absurd hjoins (hends op _ rfl)
        | more hjoins' hright hfurther =>
            obtain rfl : op = _ := Option.some.inj (hop.symm.trans (operatorOf_eq_some.2 hjoins'))
            exact ⟨_, _, (hsub _ _ _).2 hright, hfurther⟩

/-- Parts of a precedence with operators between them, from left to right. -/
theorem decides_chain (hsub : Decides sub (Part p d)) :
    Decides (chain (operatorOf p) sub) (Joined p d) := by
  intro ts e rest
  unfold chain
  rw [reads_andThen (fun first mid => Further p d first mid e rest)
    fun first ts h => by rw [reads_widen, reads_chainFrom hsub]]
  constructor
  · rintro ⟨first, mid, hfirst, hfurther⟩
    exact .parts ((hsub _ _ _).1 hfirst) hfurther
  · intro h
    cases h with
    | parts hfirst hfurther => exact ⟨_, _, (hsub _ _ _).2 hfirst, hfurther⟩

/-- What decides one precedence is a part of the next one. -/
theorem Decides.part {q : Precedence} {phrase : Phrase Expr}
    {D : List Token → Expr → List Token → Prop}
    (h : Decides phrase D) (hpart : ∀ ts e rest, D ts e rest ↔ Part q d ts e rest) :
    Decides phrase (Part q d) :=
  fun ts e rest => (h ts e rest).trans (hpart _ _ _)

/-- Every level joins what the level below it gives. -/
theorem decides_climb {operand : Phrase Expr} (h : Decides operand (Operand d)) :
    Decides (climb operand) (Joined .equality d) := by
  have hfactor : Decides (chain factorOp operand) (Joined .factor d) :=
    decides_chain (h.part fun _ _ _ => ⟨.factor, fun | .factor h => h⟩)
  have hterm : Decides (chain termOp (chain factorOp operand)) (Joined .term d) :=
    decides_chain (hfactor.part fun _ _ _ => ⟨.term, fun | .term h => h⟩)
  have hcomparison : Decides (chain comparisonOp (chain termOp (chain factorOp operand)))
      (Joined .comparison d) :=
    decides_chain (hterm.part fun _ _ _ => ⟨.comparison, fun | .comparison h => h⟩)
  exact decides_chain (p := .equality)
    (hcomparison.part fun _ _ _ => ⟨.equality, fun | .equality h => h⟩)

end Chains

/-! ## Operands -/

section Operands

variable {phrase nested : Phrase Expr} {d : Nat} {rest : List Token}

/-- By induction on the tokens. -/
theorem reads_argumentsFrom (h : Decides phrase (Expression d)) (ts : Tokens) (args : List Expr) :
    Reads (argumentsFrom phrase ts) args rest ↔ ArgumentList d (tokensOf ts) args rest := by
  fun_induction argumentsFrom phrase ts generalizing args with
  | case1 ts ih =>
      -- one argument, and then a comma with the others or what follows the list
      rw [reads_andThen fun first mid =>
        (∃ mid' others, mid = .symbol .comma :: mid' ∧ ArgumentList d mid' others rest ∧
          first :: others = args) ∨
        mid.head? ≠ some (.symbol .comma) ∧ [first] = args ∧ mid = rest]
      · constructor
        · rintro ⟨first, mid, hfirst, ⟨mid', others, rfl, hothers, rfl⟩ | ⟨hend, rfl, rfl⟩⟩
          · exact .more ((h _ _ _).1 hfirst) hothers
          · exact .last ((h _ _ _).1 hfirst) hend
        · intro hlist
          cases hlist with
          | last hfirst hend => exact ⟨_, _, (h _ _ _).2 hfirst, .inr ⟨hend, rfl, rfl⟩⟩
          | more hfirst hothers =>
              exact ⟨_, _, (h _ _ _).2 hfirst, .inl ⟨_, _, rfl, hothers, rfl⟩⟩
      · intro first ts₁ h₁
        cases ts₁ with
        | nil => simp
        | cons t ts₁ =>
            by_cases hcomma : t.token = .symbol .comma
            · simp [hcomma, reads_mapTree, ih t ts₁ h₁]
            · simp [hcomma]

/-- With the closing parenthesis, which may come at once. -/
theorem decides_arguments (h : Decides phrase (Expression d)) :
    Decides (arguments phrase) (Arguments d) := by
  intro ts args rest
  unfold arguments
  split
  · rename_i line ts
    rw [reads_finish]
    constructor
    · rintro ⟨rfl, rfl⟩
      exact .none
    · intro hargs
      cases hargs with
      | none => exact ⟨rfl, rfl⟩
      -- No expression starts with a closing parenthesis, so the two forms of a list exclude each
      -- other.
      | some hlist =>
          rcases hlist.starts with ⟨t, _, heq, hstarts⟩
          cases heq
          simp [starts_symbol] at hstarts
  · rename_i hopen
    rw [reads_andThen fun args' mid => args' = args ∧ mid = .symbol .closeParen :: rest]
    · constructor
      · rintro ⟨_, _, hlist, rfl, rfl⟩
        exact .some ((reads_argumentsFrom h _ _).1 hlist)
      · intro hargs
        have hnext := head?_ne fun line rest heq => hopen line rest heq
        generalize hts : tokensOf ts = toks at hargs hnext
        cases hargs with
        | none => exact absurd rfl hnext
        | some hlist =>
            subst hts
            exact ⟨_, _, (reads_argumentsFrom h _ _).2 hlist, rfl, rfl⟩
    · intro args' ts₁ h₁
      simp [reads_mapTree, reads_expect, and_comm]

/-- An expression with its parenthesis. -/
theorem reads_parenthesized (h : Decides phrase (Expression d)) (ts : Tokens) (e : Expr) :
    Reads (parenthesized phrase ts) e rest ↔
      Expression d (tokensOf ts) e (.symbol .closeParen :: rest) := by
  unfold parenthesized
  rw [reads_andThen fun e' mid => e' = e ∧ mid = .symbol .closeParen :: rest]
  · constructor
    · rintro ⟨_, _, he, rfl, rfl⟩
      exact (h _ _ _).1 he
    · intro he
      exact ⟨_, _, (h _ _ _).2 he, rfl, rfl⟩
  · intro e' ts₁ h₁
    simp [reads_mapTree, reads_expect, and_comm]

/-- A name, or a call if a parenthesis follows. -/
theorem reads_nameOrCall (h : Decides phrase (Expression d)) (x : String) (ts : Tokens) (e : Expr) :
    Reads (nameOrCall phrase (normalizeName x) ts) e rest ↔
      Operand d (.ident x :: tokensOf ts) e rest := by
  unfold nameOrCall
  split
  · rename_i line ts
    simp only [reads_mapTree, reads_widen, decides_arguments h ts _ rest]
    constructor
    · rintro ⟨args, hargs, rfl⟩
      exact .call hargs
    · intro hcall
      cases hcall with
      | literal hliteral => cases hliteral
      | name hname => exact absurd rfl hname
      | call hargs => exact ⟨_, hargs, rfl⟩
  · -- Without a parenthesis the name stands for itself, and the grammar asks for just that.
    rename_i hopen
    have hnext := head?_ne fun line rest heq => hopen line rest heq
    rw [reads_finish]
    constructor
    · rintro ⟨rfl, rfl⟩
      exact .name hnext
    · intro hname
      generalize tokensOf ts = toks at hname hnext
      cases hname with
      | literal hliteral => cases hliteral
      | name _ => exact ⟨rfl, rfl⟩
      | call _ => exact absurd rfl hnext

/-- The operand of a prefix operator is one level further in. -/
def Inner (d : Nat) (ts : List Token) (e : Expr) (rest : List Token) : Prop :=
  ∃ k, d = k + 1 ∧ Operand k ts e rest

/-- By the token that comes first. -/
theorem decides_operandWith (hnested : Decides nested (Inner d))
    (h : Decides phrase (Expression d)) : Decides (operandWith nested phrase) (Operand d) := by
  intro ts e rest
  rcases ts with _ | ⟨⟨token, line⟩, ts⟩
  · simp only [operandWith, reads_stop, false_iff]
    intro hoperand
    rcases hoperand.starts with ⟨_, _, hnone, _⟩
    cases hnone
  · -- All tokens with which no operand starts are refused alike.
    have hstop (hstarts : ¬ Starts token) (n : Nat) :
        Reads (stop .noOperand (⟨token, line⟩ :: ts) : Result Expr n) e rest ↔
          Operand d (tokensOf (⟨token, line⟩ :: ts)) e rest := by
      rw [reads_stop, false_iff]
      exact fun hoperand => hstarts hoperand.starts_head
    -- The parser and the grammar both choose by the first token, so each token leaves one rule.
    cases token with
    | ident x => exact reads_nameOrCall h x ts e
    | number x =>
        simp only [operandWith, reads_finish, tokensOf_cons, operand_literal_iff (.number x)]
    | text s => simp only [operandWith, reads_finish, tokensOf_cons, operand_literal_iff (.text s)]
    | keyword k =>
        cases k with
        | true => simp only [operandWith, reads_finish, tokensOf_cons, operand_literal_iff .true]
        | false => simp only [operandWith, reads_finish, tokensOf_cons, operand_literal_iff .false]
        | null => simp only [operandWith, reads_finish, tokensOf_cons, operand_literal_iff .null]
        | _ => exact hstop (by simp [starts_keyword]) _
    | symbol s =>
        cases s with
        | openParen =>
            simp only [operandWith, reads_widen, reads_parenthesized h, tokensOf_cons]
            constructor
            · exact .parentheses
            · intro hoperand
              cases hoperand with
              | literal hliteral => cases hliteral
              | parentheses he => exact he
        | bang =>
            simp only [operandWith, reads_mapTree, reads_widen, hnested ts, tokensOf_cons]
            constructor
            · rintro ⟨e, ⟨k, rfl, he⟩, rfl⟩
              exact .not he
            · intro hoperand
              cases hoperand with
              | literal hliteral => cases hliteral
              | not he => exact ⟨_, ⟨_, rfl, he⟩, rfl⟩
        | minus =>
            simp only [operandWith, reads_mapTree, reads_widen, hnested ts, tokensOf_cons]
            constructor
            · rintro ⟨e, ⟨k, rfl, he⟩, rfl⟩
              exact .neg he
            · intro hoperand
              cases hoperand with
              | literal hliteral => cases hliteral
              | neg he => exact ⟨_, ⟨_, rfl, he⟩, rfl⟩
        | _ => exact hstop (by simp [starts_symbol]) _

/-- An expression takes one level. -/
theorem expression_succ_iff {ts rest : List Token} {e : Expr} :
    Joined .equality d ts e rest ↔ Expression (d + 1) ts e rest :=
  ⟨.nested, fun | .nested h => h⟩

/-- By induction on the depth. -/
theorem decides_operand (limit d : Nat) : Decides (operand limit d) (Operand d) := by
  induction d with
  | zero =>
      refine decides_operandWith (fun ts e rest => ?_) fun ts e rest => ?_
      · exact (decides_tooDeep limit ts e rest).trans ⟨False.elim, nofun⟩
      · exact (decides_tooDeep limit ts e rest).trans ⟨False.elim, nofun⟩
  | succ d ih =>
      refine decides_operandWith (fun ts e rest => ?_) fun ts e rest => ?_
      · exact (ih ts e rest).trans ⟨fun h => ⟨d, rfl, h⟩, fun | ⟨_, rfl, h⟩ => h⟩
      · exact (decides_climb ih ts e rest).trans expression_succ_iff

theorem decides_expression (limit d : Nat) : Decides (expression limit d) (Expression d) := by
  intro ts e rest
  cases d with
  | zero => exact (decides_tooDeep limit ts e rest).trans ⟨False.elim, nofun⟩
  | succ d => exact (decides_climb (decides_operand limit d) ts e rest).trans expression_succ_iff

end Operands

/-! ## Parameters -/

section Parameters

variable {rest : List Token}

/-- A new name at the end repeats nothing. -/
theorem nodup_snoc {seen : List String} {name : String} (hseen : seen.Nodup)
    (hnew : name ∉ seen) : (seen ++ [name]).Nodup := by
  refine List.nodup_append.2 ⟨hseen, by simp, ?_⟩
  rintro x hx y hy rfl
  exact hnew (List.mem_singleton.1 hy ▸ hx)

theorem not_mem_of_nodup {seen others : List String} {name : String}
    (h : (seen ++ name :: others).Nodup) : name ∉ seen :=
  fun hmem => (List.nodup_append.1 h).2.2 name hmem name List.mem_cons_self rfl

/-- By induction on the tokens. No name is that of an earlier parameter. -/
theorem reads_parametersFrom (seen : List String) (ts : Tokens) (hseen : seen.Nodup)
    (all : List String) :
    Reads (parametersFrom seen ts) all rest ↔
      ∃ params, ParameterList (tokensOf ts) params rest ∧ seen ++ params = all ∧ all.Nodup := by
  fun_induction parametersFrom seen ts generalizing all with
  | case1 seen ts ih =>
      rw [reads_andThen fun name mid => name ∉ seen ∧
        ((∃ mid' others, mid = .symbol .comma :: mid' ∧ ParameterList mid' others rest ∧
            seen ++ name :: others = all ∧ all.Nodup) ∨
          mid.head? ≠ some (.symbol .comma) ∧ seen ++ [name] = all ∧ mid = rest)]
      · simp only [reads_expectName]
        constructor
        · rintro ⟨_, mid, ⟨x, hts, rfl⟩, hnew, ⟨mid', others, rfl, hothers, hall, hdistinct⟩ |
            ⟨hend, rfl, rfl⟩⟩
          · rw [hts]
            exact ⟨_, .more hothers, hall, hdistinct⟩
          · rw [hts]
            exact ⟨_, .last hend, rfl, nodup_snoc hseen hnew⟩
        · rintro ⟨params, hlist, rfl, hdistinct⟩
          generalize tokensOf ts = toks at hlist
          cases hlist with
          | @last x _ hend =>
              exact ⟨_, _, ⟨x, rfl, rfl⟩, not_mem_of_nodup hdistinct, .inr ⟨hend, rfl, rfl⟩⟩
          | @more x _ others _ hothers =>
              exact ⟨_, _, ⟨x, rfl, rfl⟩, not_mem_of_nodup hdistinct,
                .inl ⟨_, _, rfl, hothers, rfl, hdistinct⟩⟩
      · -- The parser looks for the name among those before it at once, the grammar asks that the
        -- whole list has no repetition.
        intro name ts₁ h₁
        by_cases hknown : name ∈ seen
        · simp [hknown]
        · cases ts₁ with
          | nil => simp [hknown]
          | cons t ts₁ =>
              by_cases hcomma : t.token = .symbol .comma
              · simp [hcomma, hknown, ih name t ts₁ h₁ (nodup_snoc hseen hknown)]
              · simp [hcomma, hknown]

/-- Parameters have different names. -/
theorem decides_parameters :
    Decides parameters fun ts params rest => Parameters ts params rest ∧ params.Nodup := by
  intro ts params rest
  unfold parameters
  rw [reads_andThen fun _ mid => (mid = .symbol .closeParen :: rest ∧ params = []) ∨
    (ParameterList mid params (.symbol .closeParen :: rest) ∧ params.Nodup)]
  · simp only [reads_expect]
    constructor
    · rintro ⟨_, mid, hts, ⟨rfl, rfl⟩ | ⟨hlist, hdistinct⟩⟩
      · rw [hts]
        exact ⟨.none, List.nodup_nil⟩
      · rw [hts]
        exact ⟨.some hlist, hdistinct⟩
    · rintro ⟨hparams, hdistinct⟩
      generalize tokensOf ts = toks at hparams
      cases hparams with
      | none => exact ⟨(), _, rfl, .inl ⟨rfl, rfl⟩⟩
      | some hlist => exact ⟨(), _, rfl, .inr ⟨hlist, hdistinct⟩⟩
  · intro _ ts₁ h₁
    -- no list of parameters begins with the closing parenthesis
    have hnone (rest' : List Token) :
        ¬ ParameterList (.symbol .closeParen :: rest') params (.symbol .closeParen :: rest) :=
      nofun
    split
    · rw [reads_finish]
      simp [hnone, eq_comm, and_comm]
    · rename_i hopen
      have hnext : (tokensOf ts₁).head? ≠ some (.symbol .closeParen) := by
        refine head?_ne fun line rest heq => ?_
        subst heq
        exact hopen _ _ h₁ rfl HEq.rfl
      rw [reads_andThen fun all mid => all = params ∧ mid = .symbol .closeParen :: rest]
      · simp only [reads_widen, reads_parametersFrom [] _ List.nodup_nil, List.nil_append]
        constructor
        · rintro ⟨_, _, ⟨_, hlist, rfl, hdistinct⟩, rfl, rfl⟩
          exact .inr ⟨hlist, hdistinct⟩
        · rintro (⟨hts, _⟩ | ⟨hlist, hdistinct⟩)
          · exact absurd (hts ▸ rfl) hnext
          · exact ⟨_, _, ⟨_, hlist, rfl, hdistinct⟩, rfl, rfl⟩
      · intro all ts₂ h₂
        simp [reads_mapTree, reads_expect, and_comm]

end Parameters

/-! ## Statements -/

/-- By induction on the tokens. -/
theorem reads_statementsFrom {phrase : Phrase Stmt} {inFunction : Bool} {d : Nat}
    (h : Decides phrase (Statement inFunction d)) (ts : Tokens) (body : Block)
    (rest : List Token) :
    Reads (statementsFrom phrase ts) body rest ↔
      Statements inFunction d (tokensOf ts) body (.symbol .closeBrace :: rest) := by
  fun_induction statementsFrom phrase ts generalizing body with
  | case1 =>
      simp only [reads_stop, false_iff]
      intro hbody
      cases hbody with
      | cons hs _ =>
          rcases hs.begins with ⟨_, _, hnone, _⟩
          cases hnone
  | case2 t ts hclose =>
      rw [reads_finish, tokensOf_cons, hclose]
      constructor
      · rintro ⟨rfl, rfl⟩
        exact .nil
      · -- A statement never begins with the brace that closes its block.
        intro hbody
        cases hbody with
        | nil => exact ⟨rfl, rfl⟩
        | cons hs _ =>
            rcases hs.begins with ⟨_, _, heq, hne⟩
            cases heq
            exact absurd rfl hne
  | case3 t ts hopen ih =>
      rw [reads_andThen fun s mid => ∃ others, s :: others = body ∧
        Statements inFunction d mid others (.symbol .closeBrace :: rest)]
      · constructor
        · rintro ⟨s, mid, hs, others, rfl, hothers⟩
          exact .cons ((h _ _ _).1 hs) hothers
        · intro hbody
          generalize hts : tokensOf (t :: ts) = toks at hbody
          cases hbody with
          | nil => exact absurd (List.cons.inj hts).1 hopen
          | cons hs hothers =>
              subst hts
              exact ⟨_, _, (h _ _ _).2 hs, _, rfl, hothers⟩
      · intro s ts₁ h₁
        simp [reads_mapTree, ih ts₁ h₁, and_comm]

theorem decides_braces {phrase : Phrase Stmt} {inFunction : Bool} {d : Nat}
    (h : Decides phrase (Statement inFunction d)) :
    Decides (braces phrase) (Grammar.Block inFunction (d + 1)) := by
  intro ts body rest
  unfold braces
  rw [reads_andThen fun _ mid =>
    Statements inFunction d mid body (.symbol .closeBrace :: rest)]
  · simp only [reads_expect]
    constructor
    · rintro ⟨_, mid, hts, hbody⟩
      rw [hts]
      exact .braces hbody
    · intro hblock
      generalize tokensOf ts = toks at hblock
      cases hblock with
      | braces hbody => exact ⟨(), _, rfl, hbody⟩
  · intro _ ts₁ h₁
    rw [reads_widen, reads_statementsFrom h]

/-- A statement with its semicolon, or without one. -/
theorem decides_terminated {phrase : Phrase Stmt} {inFunction : Bool} {d : Nat}
    (h : Decides phrase (Bare inFunction d)) :
    Decides (terminated phrase) (Statement inFunction d) := by
  intro ts s rest
  unfold terminated
  rw [reads_andThen fun s' mid => s' = s ∧
    (mid = .symbol .semicolon :: rest ∨ mid = rest ∧ rest.head? ≠ some (.symbol .semicolon))]
  · constructor
    · rintro ⟨_, mid, hs, rfl, rfl | ⟨rfl, hend⟩⟩
      · exact .ended ((h _ _ _).1 hs)
      · exact .plain ((h _ _ _).1 hs) hend
    · intro hs
      cases hs with
      | plain hs hend => exact ⟨_, _, (h _ _ _).2 hs, rfl, .inr ⟨rfl, hend⟩⟩
      | ended hs => exact ⟨_, _, (h _ _ _).2 hs, rfl, .inl rfl⟩
  · -- The semicolon is taken whenever it is there. The grammar says so by asking of the form
    -- without one that none follows.
    intro s' ts₁ h₁
    split
    · rename_i line ts₁ _
      rw [reads_finish]
      constructor
      · rintro ⟨rfl, rfl⟩
        exact ⟨rfl, .inl rfl⟩
      · rintro ⟨rfl, hts | ⟨rfl, hend⟩⟩
        · exact ⟨rfl, (List.cons.inj hts).2⟩
        · exact absurd rfl hend
    · rename_i hopen
      have hnext : (tokensOf ts₁).head? ≠ some (.symbol .semicolon) := by
        refine head?_ne fun line rest heq => ?_
        subst heq
        exact hopen _ _ h₁ rfl HEq.rfl
      rw [reads_finish]
      constructor
      · rintro ⟨rfl, rfl⟩
        exact ⟨rfl, .inr ⟨rfl, hnext⟩⟩
      · rintro ⟨rfl, hts | ⟨rfl, _⟩⟩
        · exact absurd (hts ▸ rfl) hnext
        · exact ⟨rfl, rfl⟩

/-- The parsers for the phrases inside a statement decide what the grammar has in their places. -/
structure Sound (ps : Parts) (inFunction : Bool) (d : Nat) : Prop where
  expression : Decides ps.expression (Expression d)
  block : Decides ps.block (Grammar.Block inFunction d)
  functionBody : Decides ps.functionBody (Grammar.Block true d)
  elseIf : ∀ line ts s rest, Reads (ps.elseIf (⟨.keyword .if, line⟩ :: ts)) s rest ↔
    ∃ k, d = k + 1 ∧ Conditional inFunction k (tokensOf ts) s rest

namespace Sound

variable {ps : Parts} {inFunction : Bool} {d : Nat}

theorem alternative (h : Sound ps inFunction d) :
    Decides (alternative ps) (Alternative inFunction d) := by
  intro ts body rest
  unfold Parser.alternative
  split
  · rename_i line ts
    simp only [reads_mapTree, h.elseIf, tokensOf_cons]
    constructor
    · rintro ⟨s, ⟨k, rfl, hs⟩, rfl⟩
      exact .conditional hs
    · intro halternative
      cases halternative with
      | block hblock => cases hblock
      | conditional hs => exact ⟨_, ⟨_, rfl, hs⟩, rfl⟩
  · -- A block does not begin with the keyword, so the two forms exclude each other.
    rename_i hopen
    have hnext := head?_ne fun line rest heq => hopen line rest heq
    rw [h.block]
    constructor
    · exact .block
    · intro halternative
      generalize tokensOf ts = toks at halternative hnext
      cases halternative with
      | block hblock => exact hblock
      | conditional _ => exact absurd rfl hnext

/-- A test and a block, and perhaps what follows on an else. -/
theorem conditional (h : Sound ps inFunction d) :
    Decides (conditional ps) (Conditional inFunction d) := by
  intro ts s rest
  unfold Parser.conditional
  rw [reads_andThen fun test mid => ∃ body mid', Grammar.Block inFunction d mid body mid' ∧
    ((∃ mid'' otherwise, mid' = .keyword .else :: mid'' ∧
        Alternative inFunction d mid'' otherwise rest ∧ .choose test body otherwise = s) ∨
      mid'.head? ≠ some (.keyword .else) ∧ .when test body = s ∧ mid' = rest)]
  · constructor
    · rintro ⟨test, mid, htest, body, mid', hbody,
        ⟨mid'', otherwise, rfl, hotherwise, rfl⟩ | ⟨hend, rfl, rfl⟩⟩
      · exact .choose ((h.expression _ _ _).1 htest) hbody hotherwise
      · exact .when ((h.expression _ _ _).1 htest) hbody hend
    · intro hs
      cases hs with
      | when htest hbody hend =>
          exact ⟨_, _, (h.expression _ _ _).2 htest, _, _, hbody, .inr ⟨hend, rfl, rfl⟩⟩
      | choose htest hbody hotherwise =>
          exact ⟨_, _, (h.expression _ _ _).2 htest, _, _, hbody,
            .inl ⟨_, _, rfl, hotherwise, rfl⟩⟩
  · intro test ts₁ h₁
    rw [reads_andThen fun body mid' =>
      ((∃ mid'' otherwise, mid' = .keyword .else :: mid'' ∧
          Alternative inFunction d mid'' otherwise rest ∧ .choose test body otherwise = s) ∨
        mid'.head? ≠ some (.keyword .else) ∧ .when test body = s ∧ mid' = rest)]
    · simp only [reads_widen, h.block ts₁ _ _]
    · intro body ts₂ h₂
      split
      · simp [reads_mapTree, h.alternative _ _ _]
      · -- An `else` belongs to the conditional before it: the short form asks that none follows.
        rename_i hopen
        have hnext : (tokensOf ts₂).head? ≠ some (.keyword .else) := by
          refine head?_ne fun line rest heq => ?_
          subst heq
          exact hopen _ _ h₂ rfl HEq.rfl
        rw [reads_finish]
        constructor
        · rintro ⟨rfl, rfl⟩
          exact .inr ⟨hnext, rfl, rfl⟩
        · rintro (⟨mid'', otherwise, hts, _⟩ | ⟨_, rfl, rfl⟩)
          · exact absurd (hts ▸ rfl) hnext
          · exact ⟨rfl, rfl⟩

/-- What stands behind the keyword of a loop. -/
theorem reads_loop (h : Sound ps inFunction d) (ts : Tokens) (s : Stmt) (rest : List Token) :
    Reads (loop ps ts) s rest ↔ Bare inFunction d (.keyword .while :: tokensOf ts) s rest := by
  unfold Parser.loop
  rw [reads_andThen fun test mid => ∃ body, Grammar.Block inFunction d mid body rest ∧
    .loop test body = s]
  · constructor
    · rintro ⟨test, mid, htest, body, hbody, rfl⟩
      exact .loop ((h.expression _ _ _).1 htest) hbody
    · intro hs
      cases hs with
      | loop htest hbody => exact ⟨_, _, (h.expression _ _ _).2 htest, _, hbody, rfl⟩
      | eval _ he => exact absurd he.starts_head (by simp [starts_keyword])
  · intro test ts₁ h₁
    simp only [reads_mapTree, reads_widen, h.block ts₁ _ _]

/-- What stands behind the keyword of a declaration. -/
theorem reads_declaration (h : Sound ps inFunction d) (ts : Tokens) (s : Stmt) (rest : List Token) :
    Reads (declaration ps ts) s rest ↔ Bare false d (.keyword .func :: tokensOf ts) s rest := by
  unfold Parser.declaration
  rw [reads_andThen fun name mid => ∃ params mid' body, Parameters mid params mid' ∧
    params.Nodup ∧ Grammar.Block true d mid' body rest ∧ .func name params body = s]
  · simp only [reads_expectName]
    constructor
    · rintro ⟨_, mid, ⟨x, hts, rfl⟩, params, mid', body, hparams, hdistinct, hbody, rfl⟩
      rw [hts]
      exact .func hparams hdistinct hbody
    · intro hs
      generalize tokensOf ts = toks at hs
      cases hs with
      | func hparams hdistinct hbody =>
          exact ⟨_, _, ⟨_, rfl, rfl⟩, _, _, _, hparams, hdistinct, hbody, rfl⟩
      -- A declaration could only be taken for an expression, and none starts with a keyword of
      -- statements.
      | eval _ he => exact absurd he.starts_head (by simp [starts_keyword])
  · intro name ts₁ h₁
    rw [reads_andThen fun params mid' => ∃ body, Grammar.Block true d mid' body rest ∧
      .func name params body = s]
    · simp only [reads_widen, decides_parameters ts₁ _ _]
      constructor
      · rintro ⟨params, mid', ⟨hparams, hdistinct⟩, body, hbody, hs⟩
        exact ⟨params, mid', body, hparams, hdistinct, hbody, hs⟩
      · rintro ⟨params, mid', body, hparams, hdistinct, hbody, hs⟩
        exact ⟨params, mid', ⟨hparams, hdistinct⟩, body, hbody, hs⟩
    · intro params ts₂ h₂
      simp only [reads_mapTree, reads_widen, h.functionBody ts₂ _ _]

/-- What stands behind the keyword of a return. -/
theorem reads_returned (h : Sound ps inFunction d) (ts : Tokens) (s : Stmt) (rest : List Token) :
    Reads (returned ps ts) s rest ↔
      Bare inFunction d (.keyword .return :: tokensOf ts) s rest := by
  -- a return is all that the keyword begins
  have hreturn : Bare inFunction d (.keyword .return :: tokensOf ts) s rest ↔
      (NoValue (tokensOf ts) ∧ .ret none = s ∧ tokensOf ts = rest) ∨
      (¬ NoValue (tokensOf ts) ∧ ∃ e, Expression d (tokensOf ts) e rest ∧ .ret (some e) = s) := by
    constructor
    · intro hs
      generalize tokensOf ts = toks at hs
      cases hs with
      | ret hnone => exact .inl ⟨hnone, rfl, rfl⟩
      | value hsome he => exact .inr ⟨hsome, _, he, rfl⟩
      | eval _ he => exact absurd he.starts_head (by simp [starts_keyword])
    · rintro (⟨hnone, rfl, rfl⟩ | ⟨hsome, e, he, rfl⟩)
      · exact .ret hnone
      · exact .value hsome he
  rw [hreturn]
  cases ts with
  | nil => simp [returned, NoValue]
  | cons t ts =>
      have hnone : NoValue (tokensOf (t :: ts)) ↔
          t.token = .symbol .closeBrace ∨ t.token = .symbol .semicolon := by
        simp [NoValue]
      rw [hnone]
      by_cases hend : t.token = .symbol .closeBrace ∨ t.token = .symbol .semicolon
      · simp [returned, hend]
      · simp only [returned, hend, if_false, reads_mapTree, reads_widen,
          h.expression (t :: ts) _ _, false_and, false_or, not_false_eq_true, true_and]

/-- By the tokens that come first. -/
theorem bareStatement (h : Sound ps inFunction d) :
    Decides (bareStatement inFunction ps) (Bare inFunction d) := by
  intro ts s rest
  unfold Parser.bareStatement
  split
  · rename_i line ts
    cases inFunction with
    | true =>
        simp only [if_true, reads_stop, tokensOf_cons, false_iff]
        intro hs
        cases hs with
        | eval _ he => exact absurd he.starts_head (by simp [starts_keyword])
    | false =>
        simp only [Bool.false_eq_true, if_false, reads_widen, h.reads_declaration, tokensOf_cons]
  · exact h.reads_returned _ s rest
  · rename_i line ts
    rw [reads_widen, h.conditional]
    constructor
    · exact .conditional
    · intro hs
      cases hs with
      | conditional hs => exact hs
      | eval _ he => exact absurd he.starts_head (by simp [starts_keyword])
  · rw [reads_widen]
    exact h.reads_loop _ s rest
  · rename_i name line line' ts
    simp only [reads_mapTree, reads_widen, h.expression ts _ _, tokensOf_cons]
    constructor
    · rintro ⟨e, he, rfl⟩
      exact .assign he
    · intro hs
      cases hs with
      | assign he => exact ⟨_, he, rfl⟩
      | eval hother _ => exact absurd ⟨_, _, rfl⟩ hother
  · -- All that is left is an expression, and the grammar reaches its last rule by what the branches
    -- before have excluded.
    rename_i hfunc hreturn hif hwhile hassign
    have hother : ¬ Assigns (tokensOf ts) := by
      rintro ⟨x, rest', heq⟩
      rcases ts with _ | ⟨⟨t, line⟩, _ | ⟨⟨t', line'⟩, ts⟩⟩
      · cases heq
      · cases heq
      · cases heq
        exact hassign x line line' ts rfl
    have hfunc' := head?_ne fun line rest heq => hfunc line rest heq
    have hreturn' := head?_ne fun line rest heq => hreturn line rest heq
    have hif' := head?_ne fun line rest heq => hif line rest heq
    have hwhile' := head?_ne fun line rest heq => hwhile line rest heq
    simp only [reads_mapTree, h.expression ts _ _]
    constructor
    · rintro ⟨e, he, rfl⟩
      exact .eval hother he
    · intro hs
      generalize tokensOf ts = toks at hs hother hfunc' hreturn' hif' hwhile'
      cases hs with
      | func _ _ _ => exact absurd rfl hfunc'
      | ret _ => exact absurd rfl hreturn'
      | value _ _ => exact absurd rfl hreturn'
      | conditional _ => exact absurd rfl hif'
      | loop _ _ => exact absurd rfl hwhile'
      | assign _ => exact absurd ⟨_, _, rfl⟩ hother
      | eval _ he => exact ⟨_, he, rfl⟩

end Sound

/-- By induction on the depth. -/
theorem sound_parts (limit : Nat) (inFunction : Bool) (d : Nat) :
    Sound (parts limit inFunction d) inFunction d := by
  -- In the grammar, too, a nested phrase has one level less, and none without a level.
  induction d generalizing inFunction with
  | zero =>
      exact
        { expression := decides_expression limit 0
          block := fun ts body rest =>
            (decides_tooDeep limit ts body rest).trans ⟨False.elim, nofun⟩
          functionBody := fun ts body rest =>
            (decides_tooDeep limit ts body rest).trans ⟨False.elim, nofun⟩
          elseIf := fun line ts s rest =>
            (decides_tooDeep limit _ s rest).trans ⟨False.elim, nofun⟩ }
  | succ d ih =>
      exact
        { expression := decides_expression limit (d + 1)
          block := decides_braces (decides_terminated (ih inFunction).bareStatement)
          functionBody := decides_braces (decides_terminated (ih true).bareStatement)
          elseIf := fun line ts s rest => by
            show Reads (widen (Nat.le_succ _) (conditional (parts limit inFunction d) ts)) s rest ↔
              _
            rw [reads_widen, (ih inFunction).conditional]
            exact ⟨fun h => ⟨d, rfl, h⟩, fun | ⟨_, rfl, h⟩ => h⟩ }

theorem decides_statement (limit : Nat) (inFunction : Bool) (d : Nat) :
    Decides (statement limit inFunction d) (Statement inFunction d) :=
  decides_terminated (sound_parts limit inFunction d).bareStatement

/-! ## Units -/

/-- A unit is read if it is a row of statements up to the end. -/
theorem unit_eq_ok (limit : Nat) (ts : Tokens) (block : Block) :
    unit limit ts = .ok block ↔ Statements false limit (tokensOf ts) block [] := by
  -- The statements of a unit end with the tokens, those of a block at a brace; so this is proved
  -- beside `reads_statementsFrom`, by the same cases.
  fun_induction unit limit ts generalizing block with
  | case1 =>
      constructor
      · intro h
        cases h
        exact .nil
      · intro h
        cases h with
        | nil => rfl
        | cons hs _ =>
            rcases hs.begins with ⟨_, _, hnone, _⟩
            cases hnone
  | case2 t ts stopped herror =>
      refine iff_of_false nofun fun h => ?_
      generalize hts : tokensOf (t :: ts) = toks at h
      cases h with
      | nil => cases hts
      | cons hs _ =>
          subst hts
          rcases (decides_statement limit false limit _ _ _).2 hs with ⟨_, hok, _⟩
          cases herror.symm.trans hok
  | case3 t ts first hfirst stopped herror ih =>
      refine iff_of_false nofun fun h => ?_
      generalize hts : tokensOf (t :: ts) = toks at h
      cases h with
      | nil => cases hts
      | cons hs hothers =>
          subst hts
          rcases (decides_statement limit false limit _ _ _).2 hs with ⟨x, hok, _, rfl⟩
          cases hfirst.symm.trans hok
          cases herror.symm.trans ((ih _).2 hothers)
  | case4 t ts first hfirst others hothers ih =>
      constructor
      · intro h
        cases h
        exact .cons ((decides_statement limit false limit _ _ _).1 ⟨first, hfirst, rfl, rfl⟩)
          ((ih _).1 hothers)
      · intro h
        generalize hts : tokensOf (t :: ts) = toks at h
        cases h with
        | nil => cases hts
        | cons hs hrest =>
            subst hts
            rcases (decides_statement limit false limit _ _ _).2 hs with ⟨x, hok, rfl, rfl⟩
            cases hfirst.symm.trans hok
            cases hothers.symm.trans ((ih _).2 hrest)
            rfl

end Parser

/-! ## Sources -/

/-- The parser accepts just the units of the grammar. -/
theorem parseTokens_eq_ok (limit : Nat) (ts : List Located) (block : Block) :
    parseTokens limit ts = .ok block ↔ Grammar.IsUnit limit (ts.map (·.token)) block := by
  have hunit := Parser.unit_eq_ok limit ts block
  unfold parseTokens
  -- `parseTokens` only puts the line of the stop into the error.
  split
  · rename_i stopped hstopped
    rw [hstopped] at hunit
    constructor
    · intro h
      cases h
    · intro h
      cases hunit.2 h
  · rename_i block' hok
    rw [hok] at hunit
    constructor
    · intro h
      cases h
      exact hunit.1 rfl
    · intro h
      cases hunit.2 h
      rfl

namespace Grammar

variable {d d' : Nat} {ts : List Token} {block block' : List Stmt}

/-- Any tokens can have lines. -/
theorem exists_tokensOf (ts : List Token) : ∃ located, Parser.tokensOf located = ts := by
  induction ts with
  | nil => exact ⟨[], rfl⟩
  | cons t ts ih =>
      rcases ih with ⟨located, rfl⟩
      exact ⟨⟨t, 1⟩ :: located, rfl⟩

/-- What is a unit within so many levels of nesting is one within more. -/
theorem IsUnit.mono (h : IsUnit d ts block) (hle : d ≤ d') : IsUnit d' ts block := by
  rcases exists_tokensOf ts with ⟨located, rfl⟩
  have hparsed := (Parser.unit_eq_ok d located block).2 h
  rcases Parser.near_unit d d' located with ⟨_, _, hout⟩ | ⟨htighter, _⟩ | heq
  · cases hparsed.symm.trans hout
  · exact absurd htighter (Nat.not_lt.2 hle)
  · exact (Parser.unit_eq_ok d' located block).1 (heq ▸ hparsed)

/-- The grammar is not ambiguous: no list of tokens is a unit with two trees. -/
theorem IsUnit.unique (h : IsUnit d ts block) (h' : IsUnit d' ts block') : block = block' := by
  rcases exists_tokensOf ts with ⟨located, rfl⟩
  have hparsed := (Parser.unit_eq_ok _ located block).2 (h.mono (Nat.le_max_left d d'))
  have hparsed' := (Parser.unit_eq_ok _ located block').2 (h'.mono (Nat.le_max_right d d'))
  cases hparsed.symm.trans hparsed'
  rfl

end Grammar

/-- A source compiles exactly if its tokens are a unit of the grammar within the limit of nesting,
and the code is that of a tree which the grammar gives the unit. -/
theorem compilation_follows_the_grammar (limit : Nat) :
    (∀ ts block, parseTokens limit ts = .ok block ↔
      Grammar.IsUnit limit (ts.map (·.token)) block) ∧
    ∀ source compiled, compile limit source = .ok compiled ↔
      ∃ ts block, tokenize source = .ok ts ∧ Grammar.IsUnit limit (ts.map (·.token)) block ∧
        compiled = compileBlock block := by
  refine ⟨parseTokens_eq_ok limit, fun source compiled => ?_⟩
  simp only [compile, parse, ← parseTokens_eq_ok]
  cases tokenize source with
  | error e => simp [bind, Except.bind, Except.map]
  | ok ts =>
      cases hparsed : parseTokens limit ts with
      | error e => simp [bind, Except.bind, Except.map, hparsed]
      | ok block => simp [bind, Except.bind, Except.map, hparsed, eq_comm]

end Script
end ScriptHost
