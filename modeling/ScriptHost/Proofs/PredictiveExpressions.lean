import ScriptHost.Proofs.Prediction
import ScriptHost.Proofs.Recognition

/-!
# Expressions are read with foresight

Behind an expression there can stand a closing parenthesis or a brace, and none of these continues
it. An expression can always be completed: by `null` where an operand is missing, and by closing
parentheses. So the parser stops at the first token that fits no expression.
-/

namespace ScriptHost
namespace Script

namespace Parser

open Grammar

variable {α β : Type}

/-! ## What comes next -/

/-- Either the end comes next, or one of the symbols. -/
def AtSymbols (symbols : List Symbol) (k : Tokens) : Prop :=
  ∀ t, k.head? = some t → ∃ s ∈ symbols, t.token = .symbol s

/-- That token does not come next. -/
def NotAt (u : Token) (k : Tokens) : Prop :=
  ∀ t, k.head? = some t → t.token ≠ u

/-- No identifier comes next. -/
def NotAtName (k : Tokens) : Prop :=
  ∀ x, NotAt (.ident x) k

/-- What can follow an expression and does not go on with it. -/
def AfterExpression : Tokens → Prop :=
  AtSymbols [.closeParen, .openBrace, .closeBrace]

/-- What can follow a statement and does not go on with it. -/
def AfterStatement : Tokens → Prop :=
  AtSymbols [.closeBrace]

section Next

variable {symbols : List Symbol} {s : Symbol} {u : Token} {k k' ts : Tokens}

theorem atSymbols_nil : AtSymbols symbols [] := nofun

theorem atSymbols_cons {line : Nat} (h : s ∈ symbols) :
    AtSymbols symbols (⟨.symbol s, line⟩ :: k) := by
  intro t ht
  cases ht
  exact ⟨s, h, rfl⟩

/-- None of these symbols is that token. -/
theorem AtSymbols.notAt (h : AtSymbols symbols k) (hu : ∀ s ∈ symbols, .symbol s ≠ u) :
    NotAt u k := by
  intro t ht
  rcases h t ht with ⟨s, hs, heq⟩
  rw [heq]
  exact hu s hs

/-- What can follow a statement can follow its last expression. -/
theorem AfterStatement.expression (h : AfterStatement k) : AfterExpression k := by
  intro t ht
  rcases h t ht with ⟨s, hs, heq⟩
  refine ⟨s, ?_, heq⟩
  cases List.mem_singleton.1 hs
  decide

/-- Only the first token matters. -/
theorem NotAt.congr (h : NotAt u k) (hhead : k'.head? = k.head?) : NotAt u k' :=
  fun t ht => h t (hhead.symm.trans ht)

/-- Where nothing is read, what may follow decides like what follows. -/
theorem NotAt.same (h : NotAt u k) (hhead : k'.head? = k.head? ∨ AtSymbols symbols k')
    (hu : ∀ s ∈ symbols, .symbol s ≠ u) : NotAt u k' := by
  rcases hhead with hhead | hk
  · exact h.congr hhead
  · exact hk.notAt hu

/-- The token comes first or it does not. -/
theorem at_or_notAt (u : Token) (ts : Tokens) :
    (∃ line rest, ts = ⟨u, line⟩ :: rest) ∨ NotAt u ts := by
  rcases ts with _ | ⟨⟨token, line⟩, rest⟩
  · exact .inr nofun
  · by_cases htoken : token = u
    · exact .inl ⟨line, rest, by rw [htoken]⟩
    · refine .inr fun t ht => ?_
      cases ht
      exact htoken

theorem notAt_of_ne (h : ∀ line rest, ts ≠ ⟨u, line⟩ :: rest) : NotAt u ts :=
  (at_or_notAt u ts).resolve_left fun ⟨line, rest, heq⟩ => h line rest heq

/-- A name comes first or it does not. -/
theorem atName_or_notAtName (ts : Tokens) :
    (∃ x line rest, ts = ⟨.ident x, line⟩ :: rest) ∨ NotAtName ts := by
  by_cases h : NotAtName ts
  · exact .inr h
  · rcases Classical.not_forall.1 h with ⟨x, hx⟩
    exact .inl ⟨x, (at_or_notAt (.ident x) ts).resolve_right hx⟩

end Next

/-! ## Single tokens -/

/-- The tokens to complete an expression, and a block. -/
def anExpression : List Spelling :=
  [.keyword .null]

/-- The shortest block. -/
def aBlock : List Spelling :=
  [.symbol .openBrace, .symbol .closeBrace]

/-- The phrase is read with foresight within so many levels, and it can be completed from its
beginning. -/
structure IsPredictive (p : Nat → Phrase α) (F : Tokens → Prop) (more : List Spelling) (d : Nat) :
    Prop where
  foresees : ∀ ts, Foresees (leveled p) F d ts
  fills : Fills (leveled p) F 1 (laid more)

/-- Without tokens there is nothing to read. -/
theorem leveled_nil (p : Nat → Phrase α) (d : Nat) : ∃ s, leveled p d [] = .error s := by
  cases hread : leveled p d [] with
  | error s => exact ⟨s, rfl⟩
  | ok read => exact absurd (length_lt_of_leveled hread) (Nat.not_lt_zero _)

theorem Leveled.seq_nil {x : Leveled α} {f : α → Leveled β} {d : Nat}
    (h : ∃ s, x d [] = .error s) : ∃ s, x.seq f d [] = .error s := by
  rcases h with ⟨s, hs⟩
  refine ⟨s, ?_⟩
  show (x d []).bind _ = _
  rw [hs]
  rfl

theorem Leveled.map_nil {x : Leveled α} {g : α → β} {d : Nat} (h : ∃ s, x d [] = .error s) :
    ∃ s, x.map g d [] = .error s := by
  rcases h with ⟨s, hs⟩
  refine ⟨s, ?_⟩
  show (x d []).map _ = _
  rw [hs]
  rfl

section SingleTokens

variable {F : Tokens → Prop} {d : Nat}

/-- A symbol that is there is taken. -/
theorem leveled_expect (s : Symbol) (what : Expectation) (line : Nat) (rest : Tokens) :
    leveled (fun _ => expect s what) d (⟨.symbol s, line⟩ :: rest) = .ok ((), rest) := by
  simp [leveled, expect]

/-- A symbol fills the place where it is expected. -/
theorem fills_expect {n : Nat} (s : Symbol) (what : Expectation) :
    Fills (leveled fun _ => expect s what) F n (laid [.symbol s]) :=
  fun _ k _ _ => ⟨(), leveled_expect s what 1 k⟩

/-- A reader of one symbol sees at once whether it is there. -/
theorem foresees_expect (s : Symbol) (what : Expectation) (ts : Tokens) :
    Foresees (leveled fun _ => expect s what) F d ts := by
  rcases at_or_notAt (.symbol s) ts with ⟨line, rest, rfl⟩ | hother
  · exact .reads [_] rest () rfl fun _ _ rest' _ => leveled_expect s what line rest'
  · have hstop (ts' : Tokens) (d' : Nat) (h : NotAt (.symbol s) ts') :
        leveled (fun _ => expect s what) d' ts' = .error ⟨.expected what, ts'⟩ := by
      rcases ts' with _ | ⟨t, tail⟩
      · rfl
      · simp [leveled, expect, h t rfl]
    refine .refused (hstop ts d hother) (.expected _ _) fun t tail heq d' _ tail' => ?_
    exact ⟨_, hstop _ d' (hother.congr (by rw [heq]; rfl))⟩

/-- What is no name is refused. -/
theorem expectName_refuses {what : Expectation} {ts : Tokens} (h : NotAtName ts) :
    leveled (fun _ => expectName what) d ts = .error ⟨.expected what, ts⟩ := by
  rcases ts with _ | ⟨⟨token, line⟩, rest⟩
  · rfl
  · cases token with
    | ident x => exact absurd rfl (h x _ rfl)
    | _ => rfl

/-- A reader of one name sees at once whether it is there. -/
theorem foresees_expectName (what : Expectation) (ts : Tokens) :
    Foresees (leveled fun _ => expectName what) F d ts := by
  rcases atName_or_notAtName ts with ⟨x, line, rest, rfl⟩ | hother
  · exact .reads [_] rest (normalizeName x) rfl fun _ _ _ _ => rfl
  · refine .refused (expectName_refuses hother) (.expected _ _) fun t tail heq d' _ tail' => ?_
    exact ⟨_, expectName_refuses fun x => (hother x).congr (by rw [heq]; rfl)⟩

end SingleTokens

/-! ## Binary operators -/

section Chains

variable {p : Precedence} {sub : Nat → Phrase Expr} {d n : Nat}

/-- What may follow an expression does not continue one. -/
theorem operatorOf_of_after {k : Tokens} (h : AfterExpression k) :
    ∀ t, k.head? = some t → operatorOf p t.token = none := by
  intro t ht
  rcases h t ht with ⟨s, hs, heq⟩
  rw [heq]
  simp only [List.mem_cons, List.not_mem_nil, or_false] at hs
  rcases hs with rfl | rfl | rfl <;> cases p <;> rfl

/-- The operands to the right of what has been joined so far. -/
def operandsFrom (p : Precedence) (sub : Nat → Phrase Expr) (left : Expr) : Leveled Expr :=
  fun d ts => outcome (chainFrom (operatorOf p) (sub d) left ts)

/-- Without an operator the expression ends. -/
theorem operandsFrom_done {left : Expr} {ts : Tokens}
    (h : ∀ t, ts.head? = some t → operatorOf p t.token = none) :
    operandsFrom p sub left d ts = .ok (left, ts) := by
  unfold operandsFrom
  cases ts with
  | nil =>
      rw [chainFrom]
      rfl
  | cons t rest =>
      rw [chainFrom, h t rfl]
      rfl

/-- With an operator one operand more is read. -/
theorem operandsFrom_more {left : Expr} {op : BinaryOp} {t : Located}
    (hop : operatorOf p t.token = some op) (rest : Tokens) :
    operandsFrom p sub left d (t :: rest) =
      (leveled sub).seq (fun right => operandsFrom p sub (.binary op left right)) d rest := by
  unfold operandsFrom
  rw [chainFrom, hop]
  simp only [outcome_widen]
  exact outcome_andThen rfl fun _ _ _ => outcome_widen _

/-- Nothing more need follow. -/
theorem fills_operandsFrom (left : Expr) : Fills (operandsFrom p sub left) AfterExpression n [] :=
  fun _ _ _ hk => ⟨left, operandsFrom_done (operatorOf_of_after hk)⟩

/-- By induction on the tokens. -/
theorem foresees_operandsFrom (h : IsPredictive sub AfterExpression anExpression d) (left : Expr)
    (ts : Tokens) : Foresees (operandsFrom p sub left) AfterExpression d ts := by
  induction hn : ts.length using Nat.strongRecOn generalizing left ts with
  | ind n ih =>
      -- Without an operator ahead the chain is over and nothing is read.
      have hdone (hnone : ∀ t, ts.head? = some t → operatorOf p t.token = none) :
          Foresees (operandsFrom p sub left) AfterExpression d ts := by
        refine .nothing left fun d' _ rest' hrest => operandsFrom_done ?_
        rcases hrest with hhead | hk
        · exact fun t ht => hnone t (hhead.symm.trans ht)
        · exact operatorOf_of_after hk
      rcases ts with _ | ⟨t, rest⟩
      · exact hdone nofun
      · cases hop : operatorOf p t.token with
        | none =>
            refine hdone fun t' ht => ?_
            cases ht
            exact hop
        | some op =>
            -- After an operator only an operand is missing.
            have hfill : Fills ((leveled sub).seq fun right => operandsFrom p sub
                (.binary op left right)) AfterExpression 1 (laid anExpression) :=
              h.fills.seq (fun _ => fills_operandsFrom _) fun _ hk => hk
            refine .after [t] (fun d' rest' => operandsFrom_more hop rest') hfill.completes ?_
            refine (h.foresees rest).seq [] (fun right rest₁ hread => ?_)
              (fun _ => fills_operandsFrom _) (fun _ hk => hk) fun _ hk => hk
            have hlt := length_lt_of_leveled hread
            refine ih rest₁.length ?_ _ rest₁ rfl
            rw [List.length_cons] at hn
            omega

/-- A level is an operand with what follows. -/
theorem leveled_chain :
    leveled (fun d => chain (operatorOf p) (sub d)) = (leveled sub).seq (operandsFrom p sub) := by
  funext d ts
  exact outcome_andThen rfl fun _ _ _ => outcome_widen _

/-- A single token can be a whole level. -/
theorem fills_chain {t : Located} (h : Fills (leveled sub) AfterExpression n [t]) :
    Fills (leveled fun d => chain (operatorOf p) (sub d)) AfterExpression n [t] := by
  rw [leveled_chain]
  exact h.seq fills_operandsFrom fun _ hk => hk

theorem fills_climb {t : Located} (h : Fills (leveled sub) AfterExpression n [t]) :
    Fills (leveled fun d => climb (sub d)) AfterExpression n [t] :=
  fills_chain (p := .equality) (fills_chain (p := .comparison) (fills_chain (p := .term)
    (fills_chain (p := .factor) h)))

/-- If operands are foreseen, then so are levels. -/
theorem IsPredictive.chain (h : IsPredictive sub AfterExpression anExpression d) :
    IsPredictive (fun d => chain (operatorOf p) (sub d)) AfterExpression anExpression d where
  foresees ts := by
    rw [leveled_chain]
    exact (h.foresees ts).seq [] (fun first rest _ => foresees_operandsFrom h first rest)
      fills_operandsFrom (fun _ hk => hk) fun _ hk => hk
  fills := fills_chain h.fills

theorem IsPredictive.climb (h : IsPredictive sub AfterExpression anExpression d) :
    IsPredictive (fun d => climb (sub d)) AfterExpression anExpression d :=
  IsPredictive.chain (p := .equality) (IsPredictive.chain (p := .comparison)
    (IsPredictive.chain (p := .term) (IsPredictive.chain (p := .factor) h)))

end Chains

/-! ## Operands -/

section Operands

variable {ex nested : Nat → Phrase Expr} {d : Nat}

/-- What stands behind an argument. -/
def argumentsMore (ex : Nat → Phrase Expr) (first : Expr) : Leveled (List Expr) := fun d ts =>
  match ts with
  | [] => .ok ([first], [])
  | t :: rest =>
      if t.token = .symbol .comma then
        (leveled fun d => argumentsFrom (ex d)).map (first :: ·) d rest
      else
        .ok ([first], t :: rest)

/-- Arguments are one with what follows. -/
theorem leveled_argumentsFrom :
    leveled (fun d => argumentsFrom (ex d)) = (leveled ex).seq (argumentsMore ex) := by
  funext d ts
  show outcome (argumentsFrom (ex d) ts) = _
  rw [argumentsFrom]
  refine outcome_andThen rfl fun first ts₁ h₁ => ?_
  cases ts₁ with
  | nil => rfl
  | cons t rest =>
      by_cases hcomma : t.token = .symbol .comma
      · simp only [argumentsMore, hcomma, if_true, outcome_mapTree, outcome_widen]
        rfl
      · simp only [argumentsMore, hcomma, if_false, outcome_finish]

/-- With a comma there are more. -/
theorem argumentsMore_comma {first : Expr} {line : Nat} {rest : Tokens} :
    argumentsMore ex first d (⟨.symbol .comma, line⟩ :: rest) =
      (leveled fun d => argumentsFrom (ex d)).map (first :: ·) d rest := by
  unfold argumentsMore
  exact if_pos rfl

theorem argumentsMore_done {first : Expr} {ts : Tokens} (h : NotAt (.symbol .comma) ts) :
    argumentsMore ex first d ts = .ok ([first], ts) := by
  unfold argumentsMore
  split
  · rfl
  · rw [if_neg (h _ rfl)]

theorem fills_argumentsMore (first : Expr) : Fills (argumentsMore ex first) AfterExpression 1 [] :=
  fun _ _ _ hk => ⟨_, argumentsMore_done (hk.notAt (by decide))⟩

theorem fills_argumentsFrom (h : IsPredictive ex AfterExpression anExpression d) :
    Fills (leveled fun d => argumentsFrom (ex d)) AfterExpression 1 (laid anExpression) := by
  rw [leveled_argumentsFrom]
  exact h.fills.seq fills_argumentsMore fun _ hk => hk

/-- By induction on the tokens. -/
theorem foresees_argumentsFrom (h : IsPredictive ex AfterExpression anExpression d)
    (ts : Tokens) : Foresees (leveled fun d => argumentsFrom (ex d)) AfterExpression d ts := by
  induction hn : ts.length using Nat.strongRecOn generalizing ts with
  | ind n ih =>
      rw [leveled_argumentsFrom]
      refine (h.foresees ts).seq [] (fun first rest hread => ?_) fills_argumentsMore
        (fun _ hk => hk) fun _ hk => hk
      have hlt := length_lt_of_leveled hread
      rcases at_or_notAt (.symbol .comma) rest with ⟨line, rest, rfl⟩ | hother
      · refine .after [_] (y := (leveled fun d => argumentsFrom (ex d)).map (first :: ·))
          (fun _ _ => argumentsMore_comma) ((fills_argumentsFrom h).map _).completes ?_
        refine (ih rest.length ?_ rest rfl).map _
        rw [List.length_cons] at hlt
        omega
      · exact .nothing _ fun _ _ _ hrest => argumentsMore_done (hother.same hrest (by decide))

/-- Arguments are foreseen up to their parenthesis. -/
theorem IsPredictive.arguments (h : IsPredictive ex AfterExpression anExpression d) :
    IsPredictive (fun d => arguments (ex d)) AfterExpression [.symbol .closeParen] d where
  foresees ts := by
    let listed : Leveled (List Expr) := (leveled fun d => argumentsFrom (ex d)).seq fun args =>
      (leveled fun _ => expect .closeParen .closeArguments).map fun _ => args
    have hlisted {ts' : Tokens} (hother : NotAt (.symbol .closeParen) ts') (d' : Nat) :
        leveled (fun d => Parser.arguments (ex d)) d' ts' = listed d' ts' := by
      show outcome (Parser.arguments (ex d') ts') = _
      unfold Parser.arguments
      split
      · exact absurd rfl (hother _ rfl)
      · refine outcome_andThen rfl fun args ts₁ h₁ => ?_
        rw [outcome_mapTree, outcome_widen]
        rfl
    rcases at_or_notAt (.symbol .closeParen) ts with ⟨line, rest, rfl⟩ | hother
    · exact .reads [_] rest [] rfl fun _ _ _ _ => rfl
    · refine .of_head (y := listed) (fun d' _ hhead => hlisted (hother.congr hhead) d')
        (Leveled.seq_nil (leveled_nil _ d)) atSymbols_nil ?_
      refine (foresees_argumentsFrom h ts).seq [.symbol .closeParen]
        (fun args rest _ => (foresees_expect _ _ rest).map _)
        (fun args => (fills_expect _ _).map _)
        (fun _ _ => atSymbols_cons (by decide)) fun _ hk => hk
  fills _ _ _ _ := ⟨[], rfl⟩

/-- An expression with its parenthesis. -/
theorem leveled_parenthesized :
    leveled (fun d => parenthesized (ex d)) = (leveled ex).seq fun e =>
      (leveled fun _ => expect .closeParen .closeParen).map fun _ => e := by
  funext d ts
  refine outcome_andThen rfl fun e ts₁ h₁ => ?_
  rw [outcome_mapTree, outcome_widen]
  rfl

/-- What is in parentheses is foreseen. -/
theorem IsPredictive.parenthesized (h : IsPredictive ex AfterExpression anExpression d) :
    IsPredictive (fun d => parenthesized (ex d)) AfterExpression
      (anExpression ++ [.symbol .closeParen]) d where
  foresees ts := by
    rw [leveled_parenthesized]
    exact (h.foresees ts).seq [.symbol .closeParen]
      (fun e rest _ => (foresees_expect _ _ rest).map _)
      (fun e => (fills_expect _ _).map _)
      (fun _ _ => atSymbols_cons (by decide)) fun _ hk => hk
  fills := by
    rw [leveled_parenthesized, laid_append]
    exact h.fills.seq (fun e => (fills_expect _ _).map _)
      fun _ _ => atSymbols_cons (by decide)

/-- What a name begins, as it is read behind the name. -/
def behindName (ex : Nat → Phrase Expr) (name : String) : Leveled Expr := fun d ts =>
  outcome (nameOrCall (ex d) name ts)

/-- With a parenthesis the name is called. -/
theorem behindName_call {name : String} {line : Nat} {rest : Tokens} :
    behindName ex name d (⟨.symbol .openParen, line⟩ :: rest) =
      (leveled fun d => arguments (ex d)).map (.call name) d rest := by
  unfold behindName nameOrCall
  rw [outcome_mapTree, outcome_widen]
  rfl

theorem behindName_done {name : String} {ts : Tokens} (h : NotAt (.symbol .openParen) ts) :
    behindName ex name d ts = .ok (.name name, ts) := by
  unfold behindName nameOrCall
  split
  · exact absurd rfl (h _ rfl)
  · rfl

theorem fills_behindName (name : String) :
    Fills (behindName ex name) AfterExpression 1 (laid []) :=
  fun _ _ _ hk => ⟨_, behindName_done (hk.notAt (by decide))⟩

theorem foresees_behindName (h : IsPredictive ex AfterExpression anExpression d) (name : String)
    (ts : Tokens) : Foresees (behindName ex name) AfterExpression d ts := by
  rcases at_or_notAt (.symbol .openParen) ts with ⟨line, rest, rfl⟩ | hother
  · exact .after [_] (fun _ _ => behindName_call) (h.arguments.fills.map _).completes
      ((h.arguments.foresees rest).map _)
  · exact .nothing _ fun _ _ _ hrest => behindName_done (hother.same hrest (by decide))

/-- The token that is ahead tells which operand comes. -/
theorem IsPredictive.operandWith (hnested : IsPredictive nested AfterExpression anExpression d)
    (h : IsPredictive ex AfterExpression anExpression d) :
    IsPredictive (fun d => operandWith (nested d) (ex d)) AfterExpression anExpression d where
  foresees ts := by
    let whole : Leveled Expr := leveled fun d => Parser.operandWith (nested d) (ex d)
    have hwhole : whole = leveled fun d => Parser.operandWith (nested d) (ex d) := rfl
    rw [← hwhole]
    -- an operand that is over with its first token
    have hdone {t : Located} {e : Expr} {rest : Tokens}
        (hread : ∀ d' rest', whole d' (t :: rest') = .ok (e, rest')) :
        Foresees whole AfterExpression d (t :: rest) :=
      .reads [t] rest e rfl fun d' _ rest' _ => hread d' rest'
    have hprefixed (op : PrefixOp) {t : Located} {rest : Tokens}
        (hread : ∀ d' rest', whole d' (t :: rest') = (leveled nested).map (.prefixed op) d' rest') :
        Foresees whole AfterExpression d (t :: rest) :=
      .after [t] hread (hnested.fills.map _).completes ((hnested.foresees rest).map _)
    have hstop {t : Located} {rest : Tokens}
        (hread : ∀ d' rest', whole d' (t :: rest') = .error ⟨.noOperand, t :: rest'⟩) :
        Foresees whole AfterExpression d (t :: rest) := by
      refine .refused (hread d rest) (.noOperand _) fun t' tail heq d' _ tail' => ?_
      cases heq
      exact ⟨_, hread d' tail'⟩
    rcases ts with _ | ⟨⟨token, line⟩, rest⟩
    · exact .refused rfl (.noOperand _) nofun
    · cases token with
      | ident x =>
          exact .after [_] (y := behindName ex (normalizeName x)) (fun _ _ => rfl)
            (fills_behindName _).completes (foresees_behindName h _ rest)
      | number x => exact hdone fun _ _ => rfl
      | text s => exact hdone fun _ _ => rfl
      | keyword k =>
          cases k with
          | true => exact hdone fun _ _ => rfl
          | false => exact hdone fun _ _ => rfl
          | null => exact hdone fun _ _ => rfl
          | _ => exact hstop fun _ _ => rfl
      | symbol s =>
          cases s with
          | bang =>
              refine hprefixed .not fun d' rest' => ?_
              exact (outcome_mapTree _).trans (congrArg _ (outcome_widen _))
          | minus =>
              refine hprefixed .neg fun d' rest' => ?_
              exact (outcome_mapTree _).trans (congrArg _ (outcome_widen _))
          | openParen =>
              exact .after [_] (y := leveled fun d => Parser.parenthesized (ex d))
                (fun _ rest' => outcome_widen (Nat.le_succ rest'.length))
                h.parenthesized.fills.completes
                (h.parenthesized.foresees rest)
          | _ => exact hstop fun _ _ => rfl
  fills _ _ _ _ := ⟨_, rfl⟩

end Operands

section Levels

variable (limit : Nat)

/-- A name can be a whole operand. -/
theorem fills_operand_ident {t : Located} {x : String} (ht : t.token = .ident x) :
    Fills (leveled (operand limit)) AfterExpression 0 [t] := by
  rcases t with ⟨_, line⟩
  cases ht
  intro d k _ hk
  refine ⟨.name (normalizeName x), ?_⟩
  show outcome (operand limit d (⟨.ident x, line⟩ :: k)) = _
  rw [operand_eq]
  show behindName (expression limit) (normalizeName x) d k = _
  exact behindName_done (hk.notAt (by decide))

theorem fills_operand_null :
    Fills (leveled (operand limit)) AfterExpression 0 (laid anExpression) := by
  intro d k _ _
  refine ⟨.literal .null, ?_⟩
  show outcome (operand limit d (⟨.keyword .null, 1⟩ :: k)) = _
  rw [operand_eq]
  rfl

/-- What fills the operands inside fills the expression. -/
theorem fills_expression {t : Located} (h : Fills (leveled (operand limit)) AfterExpression 0 [t]) :
    Fills (leveled (expression limit)) AfterExpression 1 [t] :=
  .nested (fun _ => rfl) (fills_climb h)

theorem predictive_operand (d : Nat) :
    IsPredictive (operand limit) AfterExpression anExpression d ∧
      IsPredictive (expression limit) AfterExpression anExpression d := by
  have hinner : Fills (leveled (innerOperand limit)) AfterExpression 1 (laid anExpression) :=
    .nested (fun _ => rfl) (fills_operand_null limit)
  have hexpression := fills_expression limit (fills_operand_null limit)
  have hoperand (d : Nat) (h : IsPredictive (innerOperand limit) AfterExpression anExpression d)
      (h' : IsPredictive (expression limit) AfterExpression anExpression d) :
      IsPredictive (operand limit) AfterExpression anExpression d := by
    have heq : operand limit = fun d => operandWith (innerOperand limit d) (expression limit d) :=
      funext (operand_eq limit)
    rw [heq]
    exact h.operandWith h'
  induction d with
  | zero =>
      have hzero : IsPredictive (expression limit) AfterExpression anExpression 0 :=
        ⟨fun ts => .tooDeep limit ts rfl, hexpression⟩
      exact ⟨hoperand 0 ⟨fun ts => .tooDeep limit ts rfl, hinner⟩ hzero, hzero⟩
  | succ d ih =>
      have hsucc : IsPredictive (expression limit) AfterExpression anExpression (d + 1) :=
        ⟨fun ts => (ih.1.climb.foresees ts).nested fun _ => rfl, hexpression⟩
      exact ⟨hoperand (d + 1)
        ⟨fun ts => (ih.1.foresees ts).nested fun _ => rfl, hinner⟩ hsucc, hsucc⟩

end Levels

end Parser

end Script
end ScriptHost
