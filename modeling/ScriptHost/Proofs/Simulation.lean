import ScriptHost.Proofs.Activations

/-!
# Compiled code follows evaluation

The code of a tree, wherever it stands in a function, does what the evaluation of the tree does: it
leaves the value of an expression on top of the operands, and it ends a statement with the locals of
its flow or by leaving the activation. A call is followed by induction on the fuel, everything else
by induction on the tree.
-/

namespace ScriptHost
namespace Machine

open Script Evaluation

variable {ν σ : Type}

/-! ## What code needs in order to follow a tree -/

/-- A machine at a call with its arguments follows `apply`, whoever the caller is. -/
def CallsFollow (natives : Natives ν σ) (x : Setting ν) (depth n : Nat)
    (apply : Definition ν → List Value → Evaluation σ Value) : Prop :=
  ∀ (definition : Definition ν) (args : List Value) (caller : Activation) (ip argc : Nat)
    (locals : Locals) (T : Array Value) (U : Array (CallSetup ν)) (y : String) (w : World σ)
    (m : Hosted ν σ),
    (∀ d, definition = .declared d → d.IsPlain) → depth ≤ caller.callers.size →
    caller.function.code[ip]? = some (.call argc) →
    caller.At x ip locals (T ++ args.toArray) (U.push (caller.setup locals T y definition)) w m →
    Follows natives depth n m (fun v w m => caller.At x (ip + 1) locals (T.push v) U w m)
      (apply definition args w)

/-- What the functions of a machine and the calls of an evaluation have to do with each other. -/
structure Corresponds (natives : Natives ν σ) (x : Setting ν) (depth n : Nat)
    (defs : Definitions ν) (apply : Definition ν → List Value → Evaluation σ Value) : Prop where
  functions : ∀ name, x.functions.get? name = (defs.get? name).map callableOf
  plain : ∀ name d, defs.get? name = some (.declared d) → d.IsPlain
  calls : CallsFollow natives x depth n apply

/-- An activation above the given depth whose function has plain constants and these parameters. -/
structure Activation.IsReady (a : Activation) (depth : Nat) (params : List String) : Prop where
  above : depth ≤ a.callers.size
  plain : a.function.IsPlain
  params : a.function.paramCount = params.length

/-! ## Expressions -/

section Expressions

variable {natives : Natives ν σ} {x : Setting ν} {depth n : Nat} {a : Activation}
variable {defs : Definitions ν} {apply : Definition ν → List Value → Evaluation σ Value}
variable {params : List String} {locals : Locals} {U : Array (CallSetup ν)}

mutual

/-- By recursion on the tree: its code leaves the value on the stack. -/
theorem follows_expr (hcorresponds : Corresponds natives x depth n defs apply)
    (ha : a.IsReady depth params) (hnames : locals.map Prod.fst = params)
    (f : Function) (T : Array Value) (U : Array (CallSetup ν)) (w : World σ) (m : Hosted ν σ) :
    (e : Expr) → e.IsPlain → Function.Extends (f.emitExpr params e) a.function →
      a.At x f.code.size locals T U w m →
      Follows natives depth n m
        (fun v w m => a.At x (f.code.size + e.size) locals (T.push v) U w m)
        (evalExpr defs apply locals e w)
  | .literal v => by
      intro he hF hat
      exact follows_literal ha.above ha.plain he hF hat
  | .name y => by
      intro _ hF hat
      exact follows_readName ha.above ha.params hnames hF hat
  | .prefixed op e => by
      intro he hF hat
      have hop := hF.code (Function.getElem?_code_emit (f.emitExpr params e) (.prefixed op))
      rw [Function.size_emitExpr] at hop
      refine follows_bind (follows_expr hcorresponds ha hnames f T U w m e he
        ((Function.extends_emit _ _).trans hF) hat) ?_
      intro v w' m' hat'
      exact follows_prefixed ha.above hop hat'
  | .binary op l r => by
      intro he hF hat
      have hboth := (Function.extends_emit _ _).trans hF
      have hop := hF.code
        (Function.getElem?_code_emit ((f.emitExpr params l).emitExpr params r) (.binary op))
      rw [Function.size_emitExpr, Function.size_emitExpr] at hop
      have hsize : f.code.size + (Expr.binary op l r).size =
          f.code.size + l.size + r.size + 1 := by
        simp only [Expr.size, Nat.add_assoc]
      rw [hsize]
      refine follows_bind (follows_expr hcorresponds ha hnames f T U w m l he.1
        ((Function.extends_emitExpr params _ r).trans hboth) hat) ?_
      intro v w' m' hat'
      rw [← Function.size_emitExpr params] at hat'
      -- the left value lies on top while the right operand is evaluated
      refine follows_bind (follows_expr hcorresponds ha hnames
        (f.emitExpr params l) (T.push v) U w' m' r he.2 hboth hat') ?_
      intro v' w'' m'' hat''
      rw [Function.size_emitExpr] at hat''
      exact follows_binary ha.above hop hat''
  | .call y args => by
      intro he hF hat
      have hargs := (Function.extends_emit _ _).trans hF
      have hop := hF.code
        (Function.getElem?_code_emit ((f.emitCallee y).emitExprs params args) (.call args.length))
      rw [Function.size_emitExprs] at hop
      have hsize : f.code.size + (Expr.call y args).size =
          (f.emitCallee y).code.size + Expr.sizes args + 1 := by
        simp only [Expr.size, Function.size_emitCallee]
        omega
      rw [hsize]
      refine follows_bind (follows_resolve ha.above hcorresponds.functions
        ((Function.extends_emitExprs params _ args).trans hargs) hat) ?_
      rintro definition w' m' ⟨hdefinition, hat'⟩
      rw [← Function.size_emitCallee f y] at hat'
      -- the arguments pile up above what is there, and the callee waits in its setup
      refine follows_bind (follows_exprs hcorresponds ha hnames
        (f.emitCallee y) T _ w' m' args he hargs hat') ?_
      intro vs w'' m'' hat''
      refine hcorresponds.calls definition vs a _ _ locals T U y w'' m'' ?_ ha.above hop hat''
      rintro d rfl
      exact hcorresponds.plain _ d hdefinition

/-- Arguments are left on the stack in their order. -/
theorem follows_exprs (hcorresponds : Corresponds natives x depth n defs apply)
    (ha : a.IsReady depth params) (hnames : locals.map Prod.fst = params)
    (f : Function) (T : Array Value) (U : Array (CallSetup ν)) (w : World σ) (m : Hosted ν σ) :
    (es : List Expr) → Expr.ArePlain es → Function.Extends (f.emitExprs params es) a.function →
      a.At x f.code.size locals T U w m →
      Follows natives depth n m
        (fun vs w m => a.At x (f.code.size + Expr.sizes es) locals (T ++ vs.toArray) U w m)
        (evalExprs defs apply locals es w)
  | [] => by
      intro _ _ hat
      exact follows_done (by simpa [Expr.sizes] using hat)
  | e :: rest => by
      intro hes hF hat
      refine follows_bind (follows_expr hcorresponds ha hnames f T U w m e hes.1
        ((Function.extends_emitExprs params _ rest).trans hF) hat) ?_
      intro v w' m' hat'
      rw [← Function.size_emitExpr params] at hat'
      refine follows_map (follows_exprs hcorresponds ha hnames
        (f.emitExpr params e) (T.push v) U w' m' rest hes.2 hF hat') ?_
      intro vs w'' m'' hat''
      have hsize : f.code.size + Expr.sizes (e :: rest) =
          (f.emitExpr params e).code.size + Expr.sizes rest := by
        simp only [Expr.sizes, Function.size_emitExpr, Nat.add_assoc]
      rw [hsize]
      simpa using hat''

end

end Expressions

/-! ## Statements -/

section Statements

variable {natives : Natives ν σ} {x : Setting ν} {depth n : Nat} {a : Activation}
variable {params : List String} {locals : Locals} {U : Array (CallSetup ν)}
variable {w : World σ} {m : Hosted ν σ} {v : Value} {ip : Nat} {f : Function}

variable {defs : Definitions ν} {apply : Definition ν → List Value → Evaluation σ Value}

/-- A test with the jump that leaves it. -/
theorem follows_test (hcorresponds : Corresponds natives x depth n defs apply)
    (ha : a.IsReady depth params) (hnames : locals.map Prod.fst = params)
    {test : Expr} {target : Nat} (htest : test.IsPlain)
    (hF : Function.Extends ((f.emitExpr params test).emit (.jumpIfFalse target)) a.function)
    (hat : a.At x f.code.size locals #[] U w m) :
    Follows natives depth n m
      (fun v w m =>
        a.At x (if v.isTruthy then f.code.size + test.size + 1 else target) locals #[] U w m)
      (evalExpr defs apply locals test w) := by
  have hop := hF.code (Function.getElem?_code_emit (f.emitExpr params test) (.jumpIfFalse target))
  rw [Function.size_emitExpr] at hop
  refine (follows_expr hcorresponds ha hnames f #[] U w m test htest
    ((Function.extends_emit _ _).trans hF) hat).then_goes ?_
  intro v w' m' hat'
  rcases goes_jumpIfFalse ha.above hop hat' with ⟨m'', hgoes, hat''⟩
  exact ⟨1, m'', hgoes, hat''⟩

/-- A statement with what follows on it. -/
theorem follows_followedBy {first : Evaluation σ Flow} {next : Locals → Evaluation σ Flow}
    {ip' : Nat} (hfirst : Follows natives depth n m (a.Ends x params U ip) (first w))
    (hnext : ∀ locals w m, locals.map Prod.fst = params → a.At x ip locals #[] U w m →
      Follows natives depth n m (a.Ends x params U ip') (next locals w)) :
    Follows natives depth n m (a.Ends x params U ip')
      ((first >>= Evaluation.followedBy next) w) := by
  refine follows_bind hfirst ?_
  intro flow w' m' hends
  cases flow with
  | next locals => exact hnext locals w' m' hends.1 hends.2
  | returned v => exact follows_done hends

/-- Each round of a loop takes a step of its own, the jump back. -/
theorem follows_whileTrue {test : Locals → Evaluation σ Value}
    {body : Locals → Evaluation σ Flow} {start inside after : Nat}
    (hdepth : depth ≤ a.callers.size) (hback : a.function.code[ip]? = some (.jump start))
    (htest : ∀ locals w m, locals.map Prod.fst = params → a.At x start locals #[] U w m →
      Follows natives depth n m
        (fun v w m => a.At x (if v.isTruthy then inside else after) locals #[] U w m)
        (test locals w))
    (hbody : ∀ locals w m, locals.map Prod.fst = params → a.At x inside locals #[] U w m →
      Follows natives depth n m (a.Ends x params U ip) (body locals w))
    {rounds : Nat} (hle : rounds ≤ n) (hnames : locals.map Prod.fst = params)
    (hat : a.At x start locals #[] U w m) :
    Follows natives depth rounds m (a.Ends x params U after)
      (whileTrue test body rounds locals w) := by
  induction rounds generalizing locals w m with
  | zero => exact .inr ⟨0, m, Nat.le_refl 0, .refl⟩
  | succ rounds ih =>
      refine follows_bind ((htest locals w m hnames hat).mono hle) ?_
      intro v w' m' hat'
      by_cases hv : v.isTruthy = true
      · rw [if_pos hv] at hat' ⊢
        -- a round that returns ends the loop with it
        refine follows_followedBy ((hbody locals w' m' hnames hat').mono hle) ?_
        intro locals' w'' m'' hnames' hat''
        rcases goes_jump hdepth hback hat'' with ⟨m₁, hgoes, hat₁⟩
        -- the jump back is the step that this round adds
        rw [Nat.add_comm]
        exact hgoes.follows (ih (Nat.le_of_succ_le hle) hnames' hat₁)
      · rw [if_neg hv] at hat' ⊢
        exact follows_done ⟨hnames, hat'⟩

mutual

/-- By recursion on the tree: its code ends where the next statement begins, or leaves the
function. -/
theorem follows_stmt (hcorresponds : Corresponds natives x depth n defs apply)
    (ha : a.IsReady depth params) (f : Function) (locals : Locals)
    (hnames : locals.map Prod.fst = params) (w : World σ) (m : Hosted ν σ) :
    (s : Stmt) → s.IsPlain → Function.Extends (f.emitStmt params s) a.function →
      a.At x f.code.size locals #[] U w m →
      Follows natives depth n m (a.Ends x params U (f.code.size + s.size))
        (execStmt defs apply n locals s w)
  | .func _ _ _ => by
      intro _ _ hat
      exact follows_done ⟨hnames, hat⟩
  | .ret none => by
      intro _ hF hat
      have hop := hF.code (Function.getElem?_code_emit (f.emitConstant .null) .ret)
      rw [Function.size_emitConstant] at hop
      have hconstant := (Function.extends_emit (f.emitConstant .null) .ret).trans hF
      show Follows natives depth n m _
        (((pure .null : Evaluation σ Value) >>= fun v => pure (Flow.returned v)) w)
      refine follows_bind (follows_literal ha.above ha.plain Value.isPlain_null hconstant hat) ?_
      intro v w' m' hat'
      exact follows_ret (n := n) ha.above hop hat'
  | .ret (some e) => by
      intro hs hF hat
      have hop := hF.code (Function.getElem?_code_emit (f.emitExpr params e) .ret)
      rw [Function.size_emitExpr] at hop
      refine follows_bind (follows_expr hcorresponds ha hnames f #[] U w m e hs
        ((Function.extends_emit _ _).trans hF) hat) ?_
      intro v w' m' hat'
      exact follows_ret (n := n) ha.above hop hat'
  | .when test body => by
      intro hs hF hat
      let jump := (f.emitExpr params test).emit
        (.jumpIfFalse ((f.emitExpr params test).nextIndex + 1 + Stmt.sizes body))
      have hend : jump.code.size + Stmt.sizes body =
          f.code.size + (Stmt.when test body).size := by
        simp only [jump, Function.size_code_emit, Function.size_emitExpr, Stmt.size]
        omega
      have htarget : (f.emitExpr params test).nextIndex + 1 + Stmt.sizes body =
          f.code.size + (Stmt.when test body).size := by
        rw [← hend, Function.size_code_emit, Function.nextIndex]
      have hinside : jump.code.size = f.code.size + test.size + 1 := by
        rw [Function.size_code_emit, Function.size_emitExpr]
      refine follows_bind (follows_test hcorresponds ha hnames hs.1
        ((Function.extends_emitBlock params jump body).trans hF) hat) ?_
      intro v w' m' hat'
      -- a true test goes on into the body, a false one jumps behind it
      by_cases hv : v.isTruthy = true
      · rw [if_pos hv] at hat' ⊢
        rw [← hinside] at hat'
        rw [← hend]
        exact follows_block hcorresponds ha jump locals hnames w' m' body hs.2
          hF hat'
      · rw [if_neg hv] at hat' ⊢
        exact follows_done ⟨hnames, htarget ▸ hat'⟩
  | .choose test body otherwise => by
      intro hs hF hat
      let afterBody := (f.emitExpr params test).nextIndex + 1 + Stmt.sizes body + 1
      let jump := (f.emitExpr params test).emit (.jumpIfFalse afterBody)
      let skip := (jump.emitBlock params body).emit (.jump (afterBody + Stmt.sizes otherwise))
      have hinside : jump.code.size = f.code.size + test.size + 1 := by
        rw [Function.size_code_emit, Function.size_emitExpr]
      have hotherwise : skip.code.size = afterBody := by
        simp only [skip, jump, afterBody, Function.size_code_emit, Function.size_emitBlock,
          Function.nextIndex]
      have hend : afterBody + Stmt.sizes otherwise =
          f.code.size + (Stmt.choose test body otherwise).size := by
        simp only [afterBody, Function.nextIndex, Function.size_emitExpr, Stmt.size]
        omega
      have hskip := (Function.extends_emitBlock params skip otherwise).trans hF
      have hbody := (Function.extends_emit (jump.emitBlock params body) _).trans hskip
      have hop := hskip.code (Function.getElem?_code_emit (jump.emitBlock params body) _)
      rw [Function.size_emitBlock] at hop
      refine follows_bind (follows_test hcorresponds ha hnames hs.1
        ((Function.extends_emitBlock params jump body).trans hbody) hat) ?_
      intro v w' m' hat'
      by_cases hv : v.isTruthy = true
      · rw [if_pos hv] at hat' ⊢
        rw [← hinside] at hat'
        -- a body that does not return ends with the jump over the alternative
        refine (follows_block hcorresponds ha jump locals hnames w' m' body
          hs.2.1 hbody hat').then_goes ?_
        intro flow w'' m'' hends
        cases flow with
        | next locals' =>
            rcases goes_jump ha.above hop hends.2 with ⟨m₁, hgoes, hat₁⟩
            exact ⟨1, m₁, hgoes, hends.1, hend ▸ hat₁⟩
        | returned v => exact ⟨0, m'', .refl, hends⟩
      · rw [if_neg hv] at hat' ⊢
        rw [← hotherwise] at hat'
        rw [← hend, ← hotherwise]
        exact follows_block hcorresponds ha skip locals hnames w' m' otherwise
          hs.2.2 hF hat'
  | .loop test body => by
      intro hs hF hat
      let afterBody := (f.emitExpr params test).nextIndex + 1 + Stmt.sizes body + 1
      let jump := (f.emitExpr params test).emit (.jumpIfFalse afterBody)
      have hinside : jump.code.size = f.code.size + test.size + 1 := by
        rw [Function.size_code_emit, Function.size_emitExpr]
      have hend : f.code.size + (Stmt.loop test body).size = afterBody := by
        simp only [afterBody, Function.nextIndex, Function.size_emitExpr, Stmt.size]
        omega
      have hbody := (Function.extends_emit (jump.emitBlock params body) _).trans hF
      have hop := hF.code (Function.getElem?_code_emit (jump.emitBlock params body) _)
      rw [Function.size_emitBlock] at hop
      -- said of any locals and any world, since every round may change them
      have htest : ∀ locals w m, locals.map Prod.fst = params →
          a.At x f.code.size locals #[] U w m →
          Follows natives depth n m
            (fun v w m =>
              a.At x (if v.isTruthy then jump.code.size else afterBody) locals #[] U w m)
            (evalExpr defs apply locals test w) := by
        intro locals w m hnames hat
        rw [hinside]
        exact follows_test hcorresponds ha hnames hs.1
          ((Function.extends_emitBlock params jump body).trans hbody) hat
      have hround : ∀ locals w m, locals.map Prod.fst = params →
          a.At x jump.code.size locals #[] U w m →
          Follows natives depth n m (a.Ends x params U (jump.code.size + Stmt.sizes body))
            (execBlock defs apply n locals body w) := by
        intro locals w m hnames hat
        exact follows_block hcorresponds ha jump locals hnames w m body hs.2
          hbody hat
      rw [hend]
      exact follows_whileTrue ha.above hop htest hround (Nat.le_refl n) hnames hat
  | .assign y e => by
      intro hs hF hat
      refine follows_bind (follows_expr hcorresponds ha hnames f #[] U w m e hs
        ((Function.extends_emitStore params _ y).trans hF) hat) ?_
      intro v w' m' hat'
      rw [← Function.size_emitExpr params] at hat'
      have hsize : f.code.size + (Stmt.assign y e).size = (f.emitExpr params e).code.size + 1 := by
        simp only [Stmt.size, Function.size_emitExpr, Nat.add_assoc]
      rw [hsize]
      exact follows_assign ha.above ha.params hnames hF hat'
  | .eval e => by
      intro hs hF hat
      have hop := hF.code (Function.getElem?_code_emit (f.emitExpr params e) .pop)
      rw [Function.size_emitExpr] at hop
      refine follows_bind (follows_expr hcorresponds ha hnames f #[] U w m e hs
        ((Function.extends_emit _ _).trans hF) hat) ?_
      intro v w' m' hat'
      rcases goes_pop ha.above hop hat' with ⟨m'', hgoes, hat''⟩
      exact hgoes.follows_same (follows_done ⟨hnames, hat''⟩)

/-- Statement after statement. -/
theorem follows_block (hcorresponds : Corresponds natives x depth n defs apply)
    (ha : a.IsReady depth params) (f : Function) (locals : Locals)
    (hnames : locals.map Prod.fst = params) (w : World σ) (m : Hosted ν σ) :
    (b : Block) → Stmt.ArePlain b → Function.Extends (f.emitBlock params b) a.function →
      a.At x f.code.size locals #[] U w m →
      Follows natives depth n m (a.Ends x params U (f.code.size + Stmt.sizes b))
        (execBlock defs apply n locals b w)
  | [] => by
      intro _ _ hat
      exact follows_done ⟨hnames, hat⟩
  | s :: rest => by
      intro hb hF hat
      refine follows_followedBy (follows_stmt hcorresponds ha f locals hnames w m
        s hb.1 ((Function.extends_emitBlock params _ rest).trans hF) hat) ?_
      intro locals' w' m' hnames' hat'
      rw [← Function.size_emitStmt params] at hat'
      have hrest := follows_block hcorresponds ha (f.emitStmt params s) locals'
        hnames' w' m' rest hb.2 hF hat'
      rwa [Function.size_emitStmt, Nat.add_assoc] at hrest

end

end Statements

/-! ## Calls -/

section Calls

variable {natives : Natives ν σ} {x : Setting ν} {depth n : Nat} {a caller : Activation}
variable {defs : Definitions ν} {apply : Definition ν → List Value → Evaluation σ Value}
variable {params : List String} {locals : Locals} {T : Array Value} {U : Array (CallSetup ν)}
variable {w : World σ} {m : Hosted ν σ} {args : List Value} {y : String} {ip argc : Nat}

/-- A body leaves its function with a value. -/
theorem follows_body (hcorresponds : Corresponds natives x depth n defs apply)
    (hdepth : depth ≤ a.callers.size) {name : String} {body : Block}
    (hfunction : a.function = Function.ofBody name params body) (hbody : Stmt.ArePlain body)
    (hnames : locals.map Prod.fst = params) (hat : a.At x 0 locals #[] U w m) :
    Follows natives depth n m (a.Left x U)
      ((execBlock defs apply n locals body >>= fun flow => pure flow.value) w) := by
  let g := (Function.new name params.length).emitBlock params body
  have ha : a.IsReady depth params := by
    refine ⟨hdepth, ?_, ?_⟩
    · rw [hfunction]
      exact Function.isPlain_ofBody params name hbody
    · rw [hfunction, Function.paramCount_ofBody]
  -- Behind the block of a body stand a null and a return, for the body that returns nothing.
  have hF : Function.Extends ((g.emitConstant .null).emit .ret) a.function := by
    rw [hfunction]
    exact Function.Extends.refl _
  have hop := hF.code (Function.getElem?_code_emit (g.emitConstant .null) .ret)
  rw [Function.size_emitConstant] at hop
  have hconstant := (Function.extends_emit (g.emitConstant .null) .ret).trans hF
  refine follows_bind (follows_block hcorresponds ha
    (Function.new name params.length) locals hnames w m body hbody
    ((Function.extends_emitConstant g .null).trans hconstant) hat) ?_
  intro flow w' m' hends
  cases flow with
  | returned v => exact follows_done hends
  | next locals' =>
      rcases hends with ⟨_, hat'⟩
      rw [← Function.size_emitBlock params] at hat'
      show Follows natives depth n m' (a.Left x U)
        (((pure .null : Evaluation σ Value) >>= pure) w')
      refine follows_bind (follows_literal hdepth ha.plain Value.isPlain_null hconstant hat') ?_
      intro v w'' m'' hat''
      exact follows_ret (n := n) hdepth hop hat''

/-- A call finds its callee and its arguments on the stack. -/
theorem step_call (natives : Natives ν σ) {definition : Definition ν} {S : Array Value}
    (hS : S = caller.below ++ valuesOf locals ++ T)
    (hop : caller.function.code[ip]? = some (.call argc))
    (hat : caller.At x ip locals (T ++ args.toArray)
      (U.push (caller.setup locals T y definition)) w m) :
    ∃ k, step natives m =
      Step.call natives (x.machine (S ++ args.toArray)
        (U.push ⟨normalizeName y, callableOf definition, S.size⟩)
        (caller.callers.push ⟨caller.function, ip + 1, caller.below.size⟩) w.globals k w.host) := by
  rcases hat with ⟨k, rfl⟩
  subst hS
  refine ⟨k + 1, ?_⟩
  rw [step_machine hop, execute_call, Activation.machine, ← Array.append_assoc]
  rfl

/-- A native function gets the operands above its base, in order. -/
theorem call_native_append {native : ν} {S : Array Value} {F : Array Frame}
    {g : Store.Table Value} {k : Nat} {host : σ} :
    Step.call natives (x.machine (S ++ args.toArray) (U.push ⟨y, .native native, S.size⟩) F g k
        host) =
      match natives native args host with
      | (.ok v, host) => Step.push v (x.machine S U F g k host)
      | (.error e, host) => (.error e, x.machine S U F g k host) := by
  have hargs : ((S ++ args.toArray).drop S.size).toList = args := by
    simp [Array.drop_eq_extract]
  rcases h : natives native args host with ⟨e | v, host'⟩
  all_goals rw [call_native, take_append_size, hargs, h]

/-- There is no room for a frame or for the missing arguments, or the callee begins with its
arguments as its locals where they stand. -/
theorem call_declared {S : Array Value} {F : Array Frame} {g : Store.Table Value} {k : Nat}
    {host : σ} (natives : Natives ν σ) (y : String) (d : FuncDecl) :
    (∃ e m, IsLimit e ∧ Step.call natives (x.machine (S ++ args.toArray)
        (U.push ⟨y, .script d.compile, S.size⟩) F g k host) = (.error e, m)) ∨
    Step.call natives (x.machine (S ++ args.toArray) (U.push ⟨y, .script d.compile, S.size⟩) F g k
        host) =
      (.ok (), x.machine (S ++ valuesOf (bindArguments d.params args)) U
        (F.push ⟨d.compile, 0, S.size⟩) g k host) := by
  have hbase : S.size ≤ (S ++ args.toArray).size := by
    rw [Array.size_append]
    exact Nat.le_add_right _ _
  have hadjusted : adjusted (S ++ args.toArray) S.size d.compile.paramCount =
      S ++ valuesOf (bindArguments d.params args) := by
    rw [FuncDecl.compile, Function.paramCount_ofBody, adjusted_append]
  rcases call_script natives y d.compile hbase with ⟨_, hfull⟩ | ⟨own, hfull⟩ | ⟨hok, _⟩
  · exact .inl ⟨.callDepthExceeded _, _, trivial, hfull⟩
  · exact .inl ⟨.stackOverflow, _, trivial, hfull⟩
  · rw [hadjusted] at hok
    exact .inr hok

/-- A native function is called with the values of its arguments. -/
theorem follows_callNative {native : ν} (hdepth : depth ≤ caller.callers.size)
    (hop : caller.function.code[ip]? = some (.call argc))
    (hat : caller.At x ip locals (T ++ args.toArray)
      (U.push (caller.setup locals T y (.native native))) w m) :
    Follows natives depth n m (fun v w m => caller.At x (ip + 1) locals (T.push v) U w m)
      (callNative natives native args w) := by
  rcases step_call natives rfl hop hat with ⟨k, hcall⟩
  have hstep := hcall.trans call_native_append
  rw [callNative]
  rcases hnative : natives native args w.host with ⟨_ | v, host⟩
  · rw [hnative] at hstep
    exact follows_fails (hat.above hdepth) hstep
  · rw [hnative] at hstep
    exact follows_push (w := ⟨w.globals, host⟩) (j := k) (hat.above hdepth) hstep

theorem follows_callDeclared {d : FuncDecl}
    (hcorresponds : Corresponds natives x depth n defs (callAt natives defs n)) (hd : d.IsPlain)
    (hdepth : depth ≤ caller.callers.size)
    (hop : caller.function.code[ip]? = some (.call argc))
    (hat : caller.At x ip locals (T ++ args.toArray)
      (U.push (caller.setup locals T y (.declared d))) w m) :
    Follows natives depth (n + 1) m (fun v w m => caller.At x (ip + 1) locals (T.push v) U w m)
      (callAt natives defs (n + 1) (.declared d) args w) := by
  -- `S` is the stack below the arguments, where the new frame is set.
  obtain ⟨S, hS⟩ : ∃ S, S = caller.below ++ valuesOf locals ++ T := ⟨_, rfl⟩
  rcases step_call natives hS hop hat with ⟨k, hcall⟩
  rcases call_declared natives (normalizeName y) d with ⟨e, m', hlimit, hfull⟩ | hok
  · exact follows_of_exceeds (exceeds_of_step (hat.above hdepth) (hcall.trans hfull) hlimit)
  · let callee : Activation :=
      ⟨d.compile, S, caller.callers.push ⟨caller.function, ip + 1, caller.below.size⟩⟩
    have hcallee : depth ≤ callee.callers.size := by
      rw [Array.size_push]
      omega
    have hgoes := goes_of_step (hat.above hdepth) (hcall.trans hok)
    have hstart : callee.At x 0 (bindArguments d.params args) #[] U w
        (x.machine (S ++ valuesOf (bindArguments d.params args)) U
          (callee.callers.push ⟨d.compile, 0, S.size⟩) w.globals k w.host) :=
      ⟨k, by rw [Activation.machine, Array.append_empty]⟩
    have hbody := follows_body hcorresponds hcallee rfl hd (names_bindArguments d.params args)
      hstart
    refine (hgoes.follows (hbody.then_goes ?_)).mono (Nat.le_of_eq (Nat.add_comm n 1))
    rintro v w' m' ⟨k', rfl⟩
    refine ⟨0, _, .refl, k', ?_⟩
    rw [machine_push, ← hS]

theorem callsFollow (hfunctions : ∀ name, x.functions.get? name = (defs.get? name).map callableOf)
    (hplain : ∀ name d, defs.get? name = some (.declared d) → d.IsPlain) (n : Nat) :
    CallsFollow natives x depth n (callAt natives defs n) := by
  -- a body may call one level less deep than its own call
  induction n with
  | zero =>
      intro definition args caller ip argc locals T U y w m hd hdepth hop hat
      cases definition with
      | native native => exact follows_callNative hdepth hop hat
      -- no fuel: any run lasts no steps at all
      | declared d => exact .inr ⟨0, m, Nat.le_refl 0, .refl⟩
  | succ n ih =>
      intro definition args caller ip argc locals T U y w m hd hdepth hop hat
      cases definition with
      | native native => exact follows_callNative hdepth hop hat
      | declared d =>
          exact follows_callDeclared ⟨hfunctions, hplain, ih⟩ (hd d rfl) hdepth hop hat

end Calls

end Machine

end ScriptHost
