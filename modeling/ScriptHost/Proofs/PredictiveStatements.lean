import Mathlib.Algebra.Order.BigOperators.Group.List
import Mathlib.Algebra.Order.Group.Nat
import ScriptHost.Proofs.PredictiveExpressions

/-!
# Statements are read with foresight

Behind a statement there can stand a closing brace or the end, and neither continues it. A list of
parameters can be completed by a name that is not in it, and a statement by empty blocks. So the
parser stops at the first token that fits no statement, except that it passes a repeated parameter
before it refuses it.
-/

namespace ScriptHost
namespace Script

namespace Parser

/-! ## Blocks -/

section Blocks

variable {st : Nat → Phrase Stmt} {F : Tokens → Prop} {d n : Nat}

theorem statementsFrom_closeBrace {line : Nat} {rest : Tokens} :
    leveled (fun d => statementsFrom (st d)) d (⟨.symbol .closeBrace, line⟩ :: rest) =
      .ok ([], rest) := by
  show outcome (statementsFrom (st d) _) = _
  rw [statementsFrom, if_pos rfl]
  rfl

theorem fills_statementsFrom :
    Fills (leveled fun d => statementsFrom (st d)) F n (laid [.symbol .closeBrace]) :=
  fun _ _ _ _ => ⟨[], statementsFrom_closeBrace⟩

/-- By induction on the tokens. -/
theorem foresees_statementsFrom (h : ∀ ts, Foresees (leveled st) AfterStatement d ts)
    (ts : Tokens) : Foresees (leveled fun d => statementsFrom (st d)) AfterStatement d ts := by
  induction hn : ts.length using Nat.strongRecOn generalizing ts with
  | ind n ih =>
      rcases ts with _ | ⟨t, rest⟩
      · refine .refused (s := ⟨.expected .closeBrace, []⟩) ?_ (.expected _ _) nofun
        show outcome (statementsFrom (st d) []) = _
        rw [statementsFrom]
        rfl
      · rcases at_or_notAt (.symbol .closeBrace) (t :: rest) with ⟨line, rest, heq⟩ | hother
        · rw [heq]
          exact .reads [_] rest [] rfl fun _ _ _ _ => statementsFrom_closeBrace
        · -- With a token that is no closing brace ahead, the loop is one statement and then itself.
          let more : Leveled Block := (leveled st).seq fun s =>
            (leveled fun d => statementsFrom (st d)).map (s :: ·)
          have hmore (d' : Nat) (ts' : Tokens) (hhead : ts'.head? = some t) :
              leveled (fun d => statementsFrom (st d)) d' ts' = more d' ts' := by
            rcases List.head?_eq_some_iff.1 hhead with ⟨tail, rfl⟩
            show outcome (statementsFrom (st d') (t :: tail)) = _
            rw [statementsFrom, if_neg (hother t rfl)]
            refine outcome_andThen rfl fun s ts₁ h₁ => ?_
            rw [outcome_mapTree, outcome_widen]
            rfl
          refine .of_head (y := more) hmore (Leveled.seq_nil (leveled_nil _ d)) atSymbols_nil ?_
          refine (h (t :: rest)).seq [.symbol .closeBrace] (fun s rest₁ hread => ?_)
            (fun s => fills_statementsFrom.map _) (fun _ _ => atSymbols_cons (by decide))
            fun _ hk => hk
          exact (ih rest₁.length (hn ▸ length_lt_of_leveled hread) rest₁ rfl).map _

/-- A brace, and then statements. -/
theorem leveled_braces :
    leveled (fun d => braces (st d)) = (leveled fun _ => expect .openBrace .openBrace).seq
      fun _ => leveled fun d => statementsFrom (st d) := by
  funext d ts
  exact outcome_andThen rfl fun _ _ _ => outcome_widen _

theorem fills_braces : Fills (leveled fun d => braces (st d)) F n (laid aBlock) := by
  rw [leveled_braces]
  exact Fills.seq (G := fun _ => True) (fills_expect _ _) (fun _ => fills_statementsFrom)
    fun _ _ => trivial

/-- A block is foreseen if its statements are. -/
theorem foresees_braces (h : ∀ ts, Foresees (leveled st) AfterStatement d ts) (ts : Tokens) :
    Foresees (leveled fun d => braces (st d)) AfterStatement d ts := by
  rw [leveled_braces]
  exact (foresees_expect (F := fun _ => True) _ _ ts).seq [.symbol .closeBrace]
    (fun _ rest _ => foresees_statementsFrom h rest) (fun _ => fills_statementsFrom)
    (fun _ _ => trivial) fun _ _ => trivial

end Blocks

/-! ## Parameters -/

section Parameters

variable {d : Nat}

/-- A name that is none of some given ones. -/
def longName (n : Nat) : String :=
  String.ofList (List.replicate (n + 1) 'x')

/-- However long, it is an identifier. -/
theorem isIdentifier_longName (n : Nat) : IsIdentifier (longName n) := by
  refine ⟨⟨'x', List.replicate n 'x', ?_, by decide, fun c hc => ?_⟩, ?_⟩
  · rw [longName, String.toList_ofList]
    rfl
  · rw [List.eq_of_mem_replicate hc]
    decide
  · -- no keyword begins with this letter
    refine List.find?_eq_none.2 fun k _ hk => ?_
    have hchars := congrArg String.toList (beq_iff_eq.1 hk)
    rw [longName, String.toList_ofList, List.replicate_succ] at hchars
    cases k <;> exact absurd (List.cons.inj hchars).1 (by decide)

theorem normalizeName_longName (n : Nat) : normalizeName (longName n) = longName n := by
  have hascii := lowerAfter_of_ascii (isIdentifier_longName n).ascii []
  rw [normalizeName, Text.lowercase, hascii, longName, String.toList_ofList, List.map_replicate]
  rfl

/-- One of them has not been used. -/
theorem exists_longName_notMem (seen : List String) : ∃ n, longName n ∉ seen := by
  refine ⟨(seen.map String.length).sum, fun h => ?_⟩
  have hle := List.le_sum_of_mem (List.mem_map_of_mem (f := String.length) h)
  rw [longName, String.length_ofList, List.length_replicate] at hle
  omega

/-- A name that has not been seen. -/
def newName (seen : List String) : Leveled String := fun d ts =>
  (leveled (fun _ => expectName .parameterName) d ts).bind fun read =>
    if read.1 ∈ seen then .error ⟨.duplicateParameter read.1, read.2⟩ else .ok read

/-- What stands behind a parameter. -/
def parametersMore (seen : List String) (name : String) : Leveled (List String) := fun d ts =>
  match ts with
  | [] => .ok (seen ++ [name], [])
  | t :: rest =>
      if t.token = .symbol .comma then
        leveled (fun _ => parametersFrom (seen ++ [name])) d rest
      else
        .ok (seen ++ [name], t :: rest)

/-- Parameters are one with what follows. -/
theorem leveled_parametersFrom (seen : List String) :
    leveled (fun _ => parametersFrom seen) = (newName seen).seq (parametersMore seen) := by
  -- The check is moved to the read of the name, where its failure blames the same tokens.
  let checked (name : String) : Leveled (List String) := fun d ts =>
    if name ∈ seen then .error ⟨.duplicateParameter name, ts⟩ else parametersMore seen name d ts
  funext d ts
  have hread : leveled (fun _ => parametersFrom seen) d ts =
      (leveled fun _ => expectName .parameterName).seq checked d ts := by
    show outcome (parametersFrom seen ts) = _
    rw [parametersFrom]
    refine outcome_andThen rfl fun name ts₁ h₁ => ?_
    by_cases hseen : name ∈ seen
    · simp only [checked, hseen, if_true, outcome_stop]
    · simp only [checked, hseen, if_false]
      cases ts₁ with
      | nil => rfl
      | cons t rest =>
          by_cases hcomma : t.token = .symbol .comma
          · simp only [parametersMore, hcomma, if_true, outcome_widen]
            rfl
          · simp only [parametersMore, hcomma, if_false, outcome_finish]
  rw [hread]
  unfold Leveled.seq newName
  cases leveled (fun _ => expectName .parameterName) d ts with
  | error s => rfl
  | ok read =>
      by_cases hseen : read.1 ∈ seen
      · simp only [Except.bind, checked, hseen, if_true]
      · simp only [Except.bind, checked, hseen, if_false]

/-- A name is taken before it is looked for among the others. -/
theorem newName_ident (seen : List String) {x : String} {line : Nat} {rest : Tokens} :
    newName seen d (⟨.ident x, line⟩ :: rest) =
      if normalizeName x ∈ seen then .error ⟨.duplicateParameter (normalizeName x), rest⟩
      else .ok (normalizeName x, rest) :=
  rfl

theorem newName_shorter {seen : List String} {name : String} {ts rest : Tokens}
    (h : newName seen d ts = .ok (name, rest)) : rest.length < ts.length := by
  unfold newName at h
  cases hread : leveled (fun _ => expectName .parameterName) d ts with
  | error s =>
      rw [hread] at h
      cases h
  | ok read =>
      rw [hread] at h
      rcases read with ⟨name', rest'⟩
      have hlt := length_lt_of_leveled hread
      by_cases hseen : name' ∈ seen
      · simp [Except.bind, hseen] at h
      · simp only [Except.bind, hseen, if_false] at h
        cases h
        exact hlt

/-- A reader of one new name sees whether there is a name. -/
theorem foresees_newName {F : Tokens → Prop} (seen : List String) (ts : Tokens) :
    Foresees (newName seen) F d ts := by
  have hstop (ts' : Tokens) (d' : Nat) (h : NotAtName ts') :
      newName seen d' ts' = .error ⟨.expected .parameterName, ts'⟩ := by
    unfold newName
    rw [expectName_refuses h]
    rfl
  rcases atName_or_notAtName ts with ⟨x, line, rest, rfl⟩ | hother
  · by_cases hseen : normalizeName x ∈ seen
    · have hrefuse (d' : Nat) (tail : Tokens) : newName seen d' (⟨.ident x, line⟩ :: tail) =
          .error ⟨.duplicateParameter (normalizeName x), tail⟩ :=
        (newName_ident seen).trans (if_pos hseen)
      refine .refused (hrefuse d rest) .passed fun t tail heq d' _ tail' => ?_
      cases heq
      exact ⟨_, hrefuse d' tail'⟩
    · exact .reads [_] rest _ rfl fun _ _ _ _ => (newName_ident seen).trans (if_neg hseen)
  · refine .refused (hstop ts d hother) (.expected _ _) fun t tail heq d' _ tail' => ?_
    exact ⟨_, hstop _ d' fun x => (hother x).congr (by rw [heq]; rfl)⟩

/-- Without a comma there are no more. -/
theorem parametersMore_done {seen : List String} {name : String} {ts : Tokens}
    (h : NotAt (.symbol .comma) ts) :
    parametersMore seen name d ts = .ok (seen ++ [name], ts) := by
  unfold parametersMore
  split
  · rfl
  · rw [if_neg (h _ rfl)]

theorem parametersMore_comma {seen : List String} {name : String} {line : Nat} {rest : Tokens} :
    parametersMore seen name d (⟨.symbol .comma, line⟩ :: rest) =
      leveled (fun _ => parametersFrom (seen ++ [name])) d rest := by
  unfold parametersMore
  exact if_pos rfl

/-- A name that has not been used is enough. -/
theorem exists_fills_parametersFrom (seen : List String) :
    ∃ more, Fills (leveled fun _ => parametersFrom seen) AfterExpression 0 (laid more) := by
  rcases exists_longName_notMem seen with ⟨n, hn⟩
  refine ⟨[.name (longName n) (isIdentifier_longName n)], fun d k _ hk =>
    ⟨seen ++ [longName n], ?_⟩⟩
  rw [leveled_parametersFrom]
  show (newName seen d (⟨.ident (longName n), 1⟩ :: k)).bind _ = _
  rw [newName_ident, normalizeName_longName, if_neg hn]
  exact parametersMore_done (hk.notAt (by decide))

/-- By induction on the tokens. -/
theorem foresees_parametersFrom (seen : List String) (ts : Tokens) :
    Foresees (leveled fun _ => parametersFrom seen) AfterExpression d ts := by
  induction hn : ts.length using Nat.strongRecOn generalizing seen ts with
  | ind n ih =>
      rw [leveled_parametersFrom]
      refine (foresees_newName (F := fun _ => True) seen ts).seq [] (fun name rest hread => ?_)
        (fun _ _ _ _ hk => ⟨_, parametersMore_done (hk.notAt (by decide))⟩)
        (fun _ _ => trivial) fun _ _ => trivial
      have hlt := newName_shorter hread
      rcases at_or_notAt (.symbol .comma) rest with ⟨line, rest, rfl⟩ | hother
      · -- what completes the list depends on the names so far
        rcases exists_fills_parametersFrom (seen ++ [name]) with ⟨more, hmore⟩
        refine .after [_] (fun _ _ => parametersMore_comma) hmore.completes ?_
        refine ih rest.length ?_ _ rest rfl
        rw [List.length_cons] at hlt
        omega
      · exact .nothing _ fun _ _ _ hrest => parametersMore_done (hother.same hrest (by decide))

/-- One parameter at least, with the closing parenthesis. -/
def listedParameters : Leveled (List String) :=
  (leveled fun _ => parametersFrom []).seq fun params =>
    (leveled fun _ => expect .closeParen .closeParen).map fun _ => params

/-- What stands behind the parenthesis that opens a list of parameters. -/
def inParentheses : Leveled (List String) := fun d ts =>
  match ts with
  | ⟨.symbol .closeParen, _⟩ :: rest => .ok ([], rest)
  | ts => listedParameters d ts

/-- If they are not closed at once there are parameters. -/
theorem inParentheses_listed {ts : Tokens} (h : NotAt (.symbol .closeParen) ts) :
    inParentheses d ts = listedParameters d ts := by
  unfold inParentheses
  split
  · exact absurd rfl (h _ rfl)
  · rfl

/-- An opening parenthesis, and then parameters. -/
theorem leveled_parameters :
    leveled (fun _ => parameters) =
      (leveled fun _ => expect .openParen .openParen).seq fun _ => inParentheses := by
  funext d ts
  refine outcome_andThen rfl fun _ ts₁ h₁ => ?_
  split
  · rfl
  · rename_i hother
    have hnext : NotAt (.symbol .closeParen) ts₁ := by
      refine notAt_of_ne fun line rest heq => ?_
      subst heq
      exact hother _ _ h₁ rfl HEq.rfl
    rw [inParentheses_listed hnext]
    refine outcome_andThen (outcome_widen _) fun params ts₂ h₂ => ?_
    rw [outcome_mapTree, outcome_widen]
    rfl

/-- It is seen at once whether there are parameters. -/
theorem foresees_inParentheses (ts : Tokens) : Foresees inParentheses AfterExpression d ts := by
  rcases at_or_notAt (.symbol .closeParen) ts with ⟨line, rest, rfl⟩ | hother
  · exact .reads [_] rest [] rfl fun _ _ _ _ => rfl
  · refine .of_head (y := listedParameters)
      (fun _ _ hhead => inParentheses_listed (hother.congr hhead))
      (Leveled.seq_nil (leveled_nil _ d)) atSymbols_nil ?_
    exact (foresees_parametersFrom [] ts).seq [.symbol .closeParen]
      (fun _ rest _ => (foresees_expect _ _ rest).map _) (fun _ => (fills_expect _ _).map _)
      (fun _ _ => atSymbols_cons (by decide)) fun _ hk => hk

theorem fills_inParentheses :
    Fills inParentheses AfterExpression 1 (laid [.symbol .closeParen]) :=
  fun _ _ _ _ => ⟨[], rfl⟩

theorem predictive_parameters :
    IsPredictive (fun _ => parameters) AfterExpression [.symbol .openParen, .symbol .closeParen]
      d where
  foresees ts := by
    rw [leveled_parameters]
    exact (foresees_expect (F := fun _ => True) _ _ ts).seq [.symbol .closeParen]
      (fun _ rest _ => foresees_inParentheses rest) (fun _ => fills_inParentheses)
      (fun _ _ => trivial) fun _ _ => trivial
  fills := by
    rw [leveled_parameters]
    exact Fills.seq (G := fun _ => True) (fills_expect _ _) (fun _ => fills_inParentheses)
      fun _ _ => trivial

end Parameters

/-! ## Statements -/

section Statements

variable {ps : Nat → Parts} {d : Nat}

/-- The parsers for the phrases inside a statement read with foresight. -/
structure PartsForesee (ps : Nat → Parts) (d : Nat) : Prop where
  expression : IsPredictive (fun d => (ps d).expression) AfterExpression anExpression d
  /-- a name can be an expression by itself -/
  name : ∀ t x, t.token = .ident x →
    Fills (leveled fun d => (ps d).expression) AfterExpression 1 [t]
  block : IsPredictive (fun d => (ps d).block) AfterStatement aBlock d
  functionBody : IsPredictive (fun d => (ps d).functionBody) AfterStatement aBlock d
  elseIf : ∀ ts, Foresees (leveled fun d => (ps d).elseIf) AfterStatement d ts

/-- What stands behind the block of a conditional. -/
def behindBody (ps : Nat → Parts) (test : Expr) (body : Block) : Leveled Stmt := fun d ts =>
  match ts with
  | ⟨.keyword .else, _⟩ :: rest =>
      (leveled fun d => alternative (ps d)).map (.choose test body) d rest
  | ts => .ok (.when test body, ts)

/-- Without an else the conditional ends. -/
theorem behindBody_done {test : Expr} {body : Block} {ts : Tokens}
    (h : NotAt (.keyword .else) ts) : behindBody ps test body d ts = .ok (.when test body, ts) := by
  unfold behindBody
  split
  · exact absurd rfl (h _ rfl)
  · rfl

theorem fills_behindBody (test : Expr) (body : Block) :
    Fills (behindBody ps test body) AfterStatement 1 (laid []) :=
  fun _ _ _ hk => ⟨_, behindBody_done (hk.notAt (by decide))⟩

/-- A test and a block with what follows. -/
theorem leveled_conditional :
    leveled (fun d => conditional (ps d)) = (leveled fun d => (ps d).expression).seq fun test =>
      (leveled fun d => (ps d).block).seq (behindBody ps test) := by
  funext d ts
  refine outcome_andThen rfl fun test ts₁ h₁ => ?_
  refine outcome_andThen (outcome_widen _) fun body ts₂ h₂ => ?_
  split
  · rw [outcome_mapTree, outcome_widen]
    rfl
  · rename_i hother
    refine (behindBody_done (notAt_of_ne fun line rest heq => ?_)).symm
    subst heq
    exact hother _ _ h₂ rfl HEq.rfl

theorem leveled_loop :
    leveled (fun d => loop (ps d)) = (leveled fun d => (ps d).expression).seq fun test =>
      (leveled fun d => (ps d).block).map (.loop test) := by
  funext d ts
  refine outcome_andThen rfl fun test ts₁ h₁ => ?_
  rw [outcome_mapTree, outcome_widen]
  rfl

/-- A name, parameters and a block. -/
theorem leveled_declaration :
    leveled (fun d => declaration (ps d)) =
      (leveled fun _ => expectName .functionName).seq fun name =>
        (leveled fun _ => parameters).seq fun params =>
          (leveled fun d => (ps d).functionBody).map (.func name params) := by
  funext d ts
  refine outcome_andThen rfl fun name ts₁ h₁ => ?_
  refine outcome_andThen (outcome_widen _) fun params ts₂ h₂ => ?_
  rw [outcome_mapTree, outcome_widen]
  rfl

theorem afterExpression_block {k : Tokens} : AfterExpression (laid aBlock ++ k) :=
  atSymbols_cons (by decide)

namespace PartsForesee

variable (h : PartsForesee ps d)
include h

/-- Either another conditional or a block follows on an else. -/
theorem alternative (ts : Tokens) :
    Foresees (leveled fun d => alternative (ps d)) AfterStatement d ts := by
  rcases at_or_notAt (.keyword .if) ts with ⟨line, rest, rfl⟩ | hother
  · refine .of_head (y := (leveled fun d => (ps d).elseIf).map ([·])) (fun d' ts' hhead => ?_)
      (Leveled.map_nil (leveled_nil _ d)) atSymbols_nil ((h.elseIf _).map _)
    rcases List.head?_eq_some_iff.1 hhead with ⟨tail, rfl⟩
    show outcome (mapTree ([·]) ((ps d').elseIf (⟨.keyword .if, line⟩ :: tail))) = _
    rw [outcome_mapTree]
    rfl
  · refine .of_head (y := leveled fun d => (ps d).block) (fun d' ts' hhead => ?_)
      (leveled_nil _ d) atSymbols_nil (h.block.foresees ts)
    show outcome (Parser.alternative (ps d') ts') = _
    unfold Parser.alternative
    split
    · exact absurd rfl (hother.congr hhead _ rfl)
    · rfl

theorem fills_alternative :
    Fills (leveled fun d => Parser.alternative (ps d)) AfterStatement 1 (laid aBlock) :=
  h.block.fills

theorem behindBody (test : Expr) (body : Block) (ts : Tokens) :
    Foresees (behindBody ps test body) AfterStatement d ts := by
  rcases at_or_notAt (.keyword .else) ts with ⟨line, rest, rfl⟩ | hother
  · exact .after [_] (fun _ _ => rfl) (h.fills_alternative.map _).completes
      ((h.alternative rest).map _)
  · exact .nothing _ fun _ _ _ hrest => behindBody_done (hother.same hrest (by decide))

/-- A conditional is foreseen, and can be completed. -/
theorem conditional : IsPredictive (fun d => conditional (ps d)) AfterStatement
    (anExpression ++ (aBlock ++ [])) d where
  foresees ts := by
    rw [leveled_conditional]
    refine (h.expression.foresees ts).seq (aBlock ++ []) (fun test rest _ => ?_) (fun test => ?_)
      (fun _ _ => afterExpression_block) fun _ hk => hk.expression
    · exact (h.block.foresees rest).seq [] (fun body rest _ => h.behindBody test body rest)
        (fills_behindBody test) (fun _ hk => hk) fun _ hk => hk
    · exact h.block.fills.seq (fills_behindBody test) fun _ hk => hk
  fills := by
    rw [leveled_conditional, laid_append]
    exact h.expression.fills.seq
      (fun test => h.block.fills.seq (fills_behindBody test) fun _ hk => hk)
      fun _ _ => afterExpression_block

theorem loop : IsPredictive (fun d => loop (ps d)) AfterStatement (anExpression ++ aBlock) d where
  foresees ts := by
    rw [leveled_loop]
    exact (h.expression.foresees ts).seq aBlock (fun test rest _ => (h.block.foresees rest).map _)
      (fun test => h.block.fills.map _) (fun _ _ => afterExpression_block)
      fun _ hk => hk.expression
  fills := by
    rw [leveled_loop, laid_append]
    exact h.expression.fills.seq (fun test => h.block.fills.map _)
      fun _ _ => afterExpression_block

theorem declaration : IsPredictive (fun d => declaration (ps d)) AfterStatement
    ([.name (longName 0) (isIdentifier_longName 0)] ++
      ([.symbol .openParen, .symbol .closeParen] ++ aBlock)) d where
  foresees ts := by
    rw [leveled_declaration]
    refine (foresees_expectName (F := fun _ => True) _ ts).seq
      ([.symbol .openParen, .symbol .closeParen] ++ aBlock) (fun name rest _ => ?_)
      (fun name => ?_) (fun _ _ => trivial) fun _ _ => trivial
    · exact (predictive_parameters.foresees rest).seq aBlock
        (fun params rest _ => (h.functionBody.foresees rest).map _)
        (fun params => h.functionBody.fills.map _) (fun _ _ => afterExpression_block)
        fun _ hk => hk.expression
    · rw [laid_append]
      exact (predictive_parameters (d := d)).fills.seq
        (fun params => h.functionBody.fills.map _) fun _ _ => afterExpression_block
  fills := by
    rw [leveled_declaration, laid_append, laid_append]
    refine Fills.seq (G := fun _ => True) (fun _ _ _ _ => ⟨_, rfl⟩) (fun name => ?_)
      fun _ _ => trivial
    exact (predictive_parameters (d := d)).fills.seq (fun params => h.functionBody.fills.map _)
      fun _ _ => afterExpression_block

end PartsForesee

/-- A return as it is read behind its keyword. -/
def behindReturn (ps : Nat → Parts) : Leveled Stmt := fun d ts =>
  outcome (returned (ps d) ts)

/-- A return without a value ends before a brace or a semicolon. -/
theorem behindReturn_done {ts : Tokens} (h : AtSymbols [.closeBrace, .semicolon] ts) :
    behindReturn ps d ts = .ok (.ret none, ts) := by
  unfold behindReturn returned
  cases ts with
  | nil => rfl
  | cons t rest =>
      rcases h t rfl with ⟨s, hs, heq⟩
      have hend : t.token = .symbol .closeBrace ∨ t.token = .symbol .semicolon := by
        rcases List.mem_pair.1 hs with rfl | rfl
        · exact .inl heq
        · exact .inr heq
      simp only [hend, if_true, outcome_finish]

theorem AfterStatement.noValue {k : Tokens} (h : AfterStatement k) :
    AtSymbols [.closeBrace, .semicolon] k := by
  intro t ht
  rcases h t ht with ⟨s, hs, heq⟩
  exact ⟨s, List.mem_cons.2 (.inl (List.mem_singleton.1 hs)), heq⟩

/-- Nothing more need follow. -/
theorem fills_behindReturn : Fills (behindReturn ps) AfterStatement 1 (laid []) :=
  fun _ _ _ hk => ⟨_, behindReturn_done hk.noValue⟩

theorem PartsForesee.behindReturn (h : PartsForesee ps d) (ts : Tokens) :
    Foresees (behindReturn ps) AfterStatement d ts := by
  by_cases hdone : AtSymbols [.closeBrace, .semicolon] ts
  · refine .nothing _ fun _ _ _ hrest => behindReturn_done ?_
    rcases hrest with hhead | hk
    · exact fun t ht => hdone t (hhead.symm.trans ht)
    · exact hk.noValue
  · refine .of_head (y := (leveled fun d => (ps d).expression).map fun e => .ret (some e))
      (fun d' ts' hhead => ?_) (Leveled.map_nil (leveled_nil _ d)) atSymbols_nil
      (((h.expression.foresees ts).map _).weaken fun _ hk => hk.expression)
    rcases ts' with _ | ⟨t, tail⟩
    · exact absurd (fun t ht => by rw [← hhead] at ht; cases ht) hdone
    · have hvalue : ¬ (t.token = .symbol .closeBrace ∨ t.token = .symbol .semicolon) := by
        refine fun hend => hdone fun u hu => ?_
        cases hhead.trans hu
        rcases hend with hend | hend
        · exact ⟨_, by decide, hend⟩
        · exact ⟨_, by decide, hend⟩
      show outcome (returned (ps d') (t :: tail)) = _
      simp only [returned, hvalue, if_false, outcome_mapTree, outcome_widen]
      rfl

/-- The tokens that are ahead tell which statement comes. -/
theorem PartsForesee.bareStatement (h : PartsForesee ps d) (inFunction : Bool) (ts : Tokens) :
    Foresees (leveled fun d => bareStatement inFunction (ps d)) AfterStatement d ts := by
  let evaluated : Leveled Stmt := (leveled fun d => (ps d).expression).map .eval
  have hweak (k : Tokens) (hk : AfterStatement k) : AfterExpression k := hk.expression
  have hevaluated : Foresees evaluated AfterStatement d ts :=
    ((h.expression.foresees ts).map _).weaken hweak
  -- a phrase behind a keyword
  have hskip (p : Nat → Phrase Stmt) (d' : Nat) (rest' : Tokens) :
      outcome (widen (Nat.le_succ rest'.length) (p d' rest')) = leveled p d' rest' :=
    outcome_widen _
  -- nothing but an expression begins in this way
  have hother (hhead : ∀ d' ts', ts'.head? = ts.head? →
      leveled (fun d => Parser.bareStatement inFunction (ps d)) d' ts' = evaluated d' ts') :
      Foresees (leveled fun d => Parser.bareStatement inFunction (ps d)) AfterStatement d ts :=
    .of_head hhead (Leveled.map_nil (leveled_nil _ d)) atSymbols_nil hevaluated
  have heval {d' : Nat} {ts' : Tokens} (heq : Parser.bareStatement inFunction (ps d') ts' =
      mapTree .eval ((ps d').expression ts')) :
      leveled (fun d => Parser.bareStatement inFunction (ps d)) d' ts' = evaluated d' ts' := by
    show outcome (Parser.bareStatement inFunction (ps d') ts') = _
    rw [heq, outcome_mapTree]
    rfl
  rcases ts with _ | ⟨⟨token, line⟩, rest⟩
  · refine hother fun d' ts' hhead => ?_
    rw [List.head?_eq_none_iff.1 hhead]
    exact heval rfl
  · have hsingle (heq : ∀ d' tail, Parser.bareStatement inFunction (ps d') (⟨token, line⟩ :: tail) =
        mapTree .eval ((ps d').expression (⟨token, line⟩ :: tail))) :
        Foresees (leveled fun d => Parser.bareStatement inFunction (ps d)) AfterStatement d
          (⟨token, line⟩ :: rest) := by
      refine hother fun d' ts' hhead => ?_
      rcases List.head?_eq_some_iff.1 hhead with ⟨tail, rfl⟩
      exact heval (heq d' tail)
    cases token with
    | ident x =>
        rcases at_or_notAt (.symbol .assign) rest with ⟨line', rest, rfl⟩ | hnext
        · refine .after [_, _]
            (y := (leveled fun d => (ps d).expression).map (.assign (normalizeName x)))
            (fun d' rest' => ?_) (h.expression.fills.map _ |>.weaken hweak).completes
            (((h.expression.foresees rest).map _).weaken hweak)
          show outcome (mapTree _ (widen (Nat.le_add_right rest'.length 2)
            ((ps d').expression rest'))) = _
          rw [outcome_mapTree, outcome_widen]
          rfl
        · -- a name that is not assigned to begins an expression, and can be all of it
          refine .of_next (A := NotAt (.symbol .assign)) (fun _ _ hk hhead => hk.congr hhead)
            (fun _ hk => hk.notAt (by decide)) atSymbols_nil hnext (fun d' tail htail => ?_)
            (((h.name _ x rfl).map _).weaken hweak) hevaluated
          refine heval ?_
          rcases tail with _ | ⟨⟨next, line'⟩, tail⟩
          · rfl
          · cases next with
            | symbol s =>
                cases s with
                | assign => exact absurd rfl (htail _ rfl)
                | _ => rfl
            | _ => rfl
    | number x => exact hsingle fun _ _ => rfl
    | text s => exact hsingle fun _ _ => rfl
    | symbol s => exact hsingle fun _ _ => rfl
    | keyword k =>
        cases k with
        | func =>
            cases inFunction with
            | true =>
                refine .refused rfl (.next nofun) fun t tail heq d' _ tail' => ?_
                cases heq
                exact ⟨_, rfl⟩
            | false =>
                exact .after [_] (hskip fun d => Parser.declaration (ps d))
                  h.declaration.fills.completes (h.declaration.foresees rest)
        | «return» =>
            exact .after [_] (fun _ _ => rfl) fills_behindReturn.completes (h.behindReturn rest)
        | «if» =>
            exact .after [_] (hskip fun d => Parser.conditional (ps d))
              h.conditional.fills.completes (h.conditional.foresees rest)
        | «while» =>
            exact .after [_] (hskip fun d => Parser.loop (ps d)) h.loop.fills.completes
              (h.loop.foresees rest)
        | _ => exact hsingle fun _ _ => rfl

/-- The semicolon that may end a statement. -/
def semicolon (s : Stmt) : Leveled Stmt := fun _ ts =>
  match ts with
  | ⟨.symbol .semicolon, _⟩ :: rest => .ok (s, rest)
  | ts => .ok (s, ts)

/-- Without a semicolon the statement ends. -/
theorem semicolon_done {s : Stmt} {ts : Tokens} (h : NotAt (.symbol .semicolon) ts) :
    semicolon s d ts = .ok (s, ts) := by
  unfold semicolon
  split
  · exact absurd rfl (h _ rfl)
  · rfl

/-- A statement, and then perhaps a semicolon. -/
theorem leveled_terminated (p : Nat → Phrase Stmt) :
    leveled (fun d => terminated (p d)) = (leveled p).seq semicolon := by
  funext d ts
  refine outcome_andThen rfl fun s ts₁ h₁ => ?_
  split
  · rfl
  · rename_i hother
    refine (semicolon_done (notAt_of_ne fun line rest heq => ?_)).symm
    subst heq
    exact hother _ _ h₁ rfl HEq.rfl

/-- A statement with its semicolon is foreseen if it is without. -/
theorem foresees_terminated {p : Nat → Phrase Stmt}
    (h : ∀ ts, Foresees (leveled p) AfterStatement d ts) (ts : Tokens) :
    Foresees (leveled fun d => terminated (p d)) AfterStatement d ts := by
  rw [leveled_terminated]
  refine (h ts).seq [] (fun s rest _ => ?_)
    (fun s _ _ _ hk => ⟨s, semicolon_done (hk.notAt (by decide))⟩) (fun _ hk => hk) fun _ hk => hk
  rcases at_or_notAt (.symbol .semicolon) rest with ⟨line, rest, rfl⟩ | hother
  · exact .reads [_] rest s rfl fun _ _ _ _ => rfl
  · exact .nothing s fun _ _ _ hrest => semicolon_done (hother.same hrest (by decide))

theorem PartsForesee.conditionalAtKeyword (h : PartsForesee ps d) (ts : Tokens) :
    Foresees (leveled fun d => conditionalAtKeyword (ps d)) AfterStatement d ts := by
  rcases ts with _ | ⟨t, rest⟩
  · exact .refused rfl (.noOperand _) nofun
  · refine .after [t] (y := leveled fun d => Parser.conditional (ps d)) (fun d' rest' => ?_)
      h.conditional.fills.completes (h.conditional.foresees rest)
    show outcome (widen (Nat.le_succ rest'.length) (Parser.conditional (ps d') rest')) = _
    rw [outcome_widen]
    rfl

end Statements

section Levels

variable (limit : Nat)

/-- By induction on the depth. -/
theorem partsForesee (inFunction : Bool) (d : Nat) : PartsForesee (parts limit inFunction) d := by
  have hexpression (inFunction : Bool) (d : Nat) :
      IsPredictive (fun d => (parts limit inFunction d).expression) AfterExpression anExpression
        d := by
    simp only [expression_parts]
    exact (predictive_operand limit d).2
  have hname (inFunction : Bool) (t : Located) (x : String) (ht : t.token = .ident x) :
      Fills (leveled fun d => (parts limit inFunction d).expression) AfterExpression 1 [t] := by
    simp only [expression_parts]
    exact fills_expression limit (fills_operand_ident limit ht)
  have hblock (inFunction : Bool) :
      Fills (leveled fun d => (parts limit inFunction d).block) AfterStatement 1 (laid aBlock) :=
    .nested (fun _ => rfl) (fills_braces (n := 0))
  have hbody (inFunction : Bool) :
      Fills (leveled fun d => (parts limit inFunction d).functionBody) AfterStatement 1
        (laid aBlock) :=
    .nested (fun _ => rfl) (fills_braces (n := 0))
  -- Without a level left every nested phrase is too deep; with one, it is made of the phrases of
  -- the level below.
  induction d generalizing inFunction with
  | zero =>
      exact
        { expression := hexpression inFunction 0
          name := hname inFunction
          block := ⟨fun ts => .tooDeep limit ts rfl, hblock inFunction⟩
          functionBody := ⟨fun ts => .tooDeep limit ts rfl, hbody inFunction⟩
          elseIf := fun ts => .tooDeep limit ts rfl }
  | succ d ih =>
      have hbraces (inFunction : Bool) (ts : Tokens) :=
        foresees_braces (foresees_terminated ((ih inFunction).bareStatement inFunction)) ts
      exact
        { expression := hexpression inFunction (d + 1)
          name := hname inFunction
          block := ⟨fun ts => (hbraces inFunction ts).nested fun _ => rfl, hblock inFunction⟩
          functionBody := ⟨fun ts => (hbraces true ts).nested fun _ => rfl, hbody inFunction⟩
          elseIf := fun ts => ((ih inFunction).conditionalAtKeyword ts).nested fun _ => rfl }

theorem foresees_statement (inFunction : Bool) (d : Nat) (ts : Tokens) :
    Foresees (leveled (statement limit inFunction)) AfterStatement d ts :=
  foresees_terminated ((partsForesee limit inFunction d).bareStatement inFunction) ts

end Levels

end Parser

end Script
end ScriptHost
