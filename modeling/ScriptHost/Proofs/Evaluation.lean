import ScriptHost.Machine.Step

/-!
# Evaluation of trees

What a source means without any code: the meaning of its tree, node by node. Operands and arguments
are evaluated from left to right and all of them always; a callee is resolved before its arguments;
a parameter is a local of its activation and every other name a global. A script may loop or recurse
for ever, so an evaluation has fuel, one unit for each round of a loop and for each call below
another, and gives nothing when there is not enough of it.
-/

namespace ScriptHost

open Script

/-! ## Evaluations -/

/-- What an evaluation reads and changes besides its locals. -/
structure Evaluation.World (σ : Type) where
  globals : Store.Table Value
  host : σ

/-- An evaluation changes the world, and gives nothing if its fuel is used up. -/
def Evaluation (σ α : Type) : Type :=
  Evaluation.World σ → Option (Except ScriptError α × Evaluation.World σ)

namespace Evaluation

open Machine (Natives)

variable {ν σ α β : Type}

def done (a : α) : Evaluation σ α := fun w =>
  some (.ok a, w)

/-- An error ends the evaluation, and what has been done to the world stays done. -/
def andThen (x : Evaluation σ α) (f : α → Evaluation σ β) : Evaluation σ β := fun w =>
  match x w with
  | none => none
  | some (.ok a, w) => f a w
  | some (.error e, w) => some (.error e, w)

instance : Monad (Evaluation σ) where
  pure := done
  bind := andThen

/-- There is no fuel left. -/
def exhausted : Evaluation σ α := fun _ =>
  none

def ofExcept (r : Except ScriptError α) : Evaluation σ α := fun w =>
  some (r, w)

/-- A global that is not there is null. -/
def readGlobal (name : String) : Evaluation σ Value := fun w =>
  some (.ok ((w.globals.get? name).getD .null), w)

def writeGlobal (name : String) (v : Value) : Evaluation σ Unit := fun w =>
  some (.ok (), { w with globals := w.globals.insert name v })

/-- A native function does to the host what it likes. -/
def callNative (natives : Natives ν σ) (native : ν) (args : List Value) : Evaluation σ Value :=
  fun w =>
    let (r, host) := natives native args w.host
    some (r, { w with host := host })

/-! ## Names -/

/-- What a name of a function stands for. -/
inductive Definition (ν : Type)
  | declared (d : FuncDecl)
  | native (name : ν)

/-- Functions by the normal form of their names. -/
abbrev Definitions (ν : Type) :=
  Store.Table (Definition ν)

/-- The definitions after those of a unit, of which the last one of a name counts. -/
def declare (block : Block) (defs : Definitions ν) : Definitions ν :=
  (declaredIn block).foldl (fun defs d => defs.insert (normalizeName d.name) (.declared d)) defs

/-- The callee is looked up before the arguments are evaluated. -/
def resolve (defs : Definitions ν) (name : String) : Evaluation σ (Definition ν) :=
  match defs.get? (normalizeName name) with
  | some definition => pure definition
  | none => ofExcept (.error (.unknownFunction name))

/-- The parameters of an activation with their values. -/
abbrev Locals :=
  List (String × Value)

/-- Missing arguments are null and extra ones are dropped. -/
def bindArguments : List String → List Value → Locals
  | [], _ => []
  | p :: params, [] => (p, .null) :: bindArguments params []
  | p :: params, v :: args => (p, v) :: bindArguments params args

/-! ## Expressions -/

section Trees

variable (defs : Definitions ν) (apply : Definition ν → List Value → Evaluation σ Value)

/-- A parameter hides the global of its name. -/
def readName (locals : Locals) (name : String) : Evaluation σ Value :=
  match Store.Table.lookup name locals with
  | some v => pure v
  | none => readGlobal name

mutual

/-- Both sides of an operator are evaluated, the left one first. -/
def evalExpr (locals : Locals) : Expr → Evaluation σ Value
  | .literal v => pure v
  | .name x => readName locals x
  | .prefixed op e => do
      let v ← evalExpr locals e
      ofExcept (Machine.Step.prefixValue op v)
  | .binary op l r => do
      let a ← evalExpr locals l
      let b ← evalExpr locals r
      ofExcept (Machine.Step.binaryValue op a b)
  | .call function arguments => do
      -- an unknown callee fails before any of its arguments is evaluated
      let callee ← resolve defs function
      let args ← evalExprs locals arguments
      apply callee args

/-- Arguments from left to right. -/
def evalExprs (locals : Locals) : List Expr → Evaluation σ (List Value)
  | [] => pure []
  | e :: rest => do
      let v ← evalExpr locals e
      let vs ← evalExprs locals rest
      pure (v :: vs)

end

/-! ## Statements -/

/-- How a statement ends: the next one follows, or the function has returned. -/
inductive Flow
  | next (locals : Locals)
  | returned (v : Value)

def assign (locals : Locals) (name : String) (v : Value) : Evaluation σ Flow :=
  match Store.Table.lookup name locals with
  | some _ => pure (.next (Store.Table.put name v locals))
  -- a name is local only if it is a parameter, so this one is a global
  | none => do
      writeGlobal name v
      pure (.next locals)

/-- Goes on with the next statement unless the function has returned. -/
def followedBy (next : Locals → Evaluation σ Flow) : Flow → Evaluation σ Flow
  | .next locals => next locals
  | .returned v => pure (.returned v)

/-- Round after round, as long as the test holds. -/
def whileTrue (test : Locals → Evaluation σ Value) (body : Locals → Evaluation σ Flow) :
    Nat → Locals → Evaluation σ Flow
  | 0, _ => exhausted
  -- a round uses up one unit of fuel whatever else the loop does
  | rounds + 1, locals => do
      let v ← test locals
      if v.isTruthy then
        body locals >>= followedBy (whileTrue test body rounds)
      else
        pure (.next locals)

mutual

/-- A declaration does nothing where it stands. -/
def execStmt (rounds : Nat) (locals : Locals) : Stmt → Evaluation σ Flow
  | .func _ _ _ => pure (.next locals)
  | .ret none => pure (.returned .null)
  | .ret (some e) => do
      let v ← evalExpr defs apply locals e
      pure (.returned v)
  | .when test body => do
      let v ← evalExpr defs apply locals test
      if v.isTruthy then execBlock rounds locals body else pure (.next locals)
  | .choose test body otherwise => do
      let v ← evalExpr defs apply locals test
      if v.isTruthy then execBlock rounds locals body else execBlock rounds locals otherwise
  | .loop test body =>
      whileTrue (fun locals => evalExpr defs apply locals test)
        (fun locals => execBlock rounds locals body) rounds locals
  | .assign x e => do
      let v ← evalExpr defs apply locals e
      assign locals x v
  | .eval e => do
      let _ ← evalExpr defs apply locals e
      pure (.next locals)

/-- A statement that returns keeps those after it from being executed. -/
def execBlock (rounds : Nat) (locals : Locals) : Block → Evaluation σ Flow
  | [] => pure (.next locals)
  | s :: rest => execStmt rounds locals s >>= followedBy fun locals => execBlock rounds locals rest

end

/-- Falling off the end of a function returns null. -/
def Flow.value : Flow → Value
  | .next _ => .null
  | .returned v => v

end Trees

/-! ## Calls and units -/

section Calls

variable (natives : Natives ν σ) (defs : Definitions ν)

/-- The value of a call whose body may call `fuel` levels deep. -/
def callAt : Nat → Definition ν → List Value → Evaluation σ Value
  -- only a script function needs fuel
  | _, .native native, args => callNative natives native args
  | 0, .declared _, _ => exhausted
  | fuel + 1, .declared d, args => do
      let flow ← execBlock defs (callAt fuel) fuel (bindArguments d.params args) d.body
      pure flow.value

/-- The value of a unit whose definitions are known. -/
def evalUnit (fuel : Nat) (block : Block) : Evaluation σ Value := do
  let flow ← execBlock defs (callAt natives defs fuel) fuel [] block
  pure flow.value

/-- A unit evaluates to a result and a world if it does so with enough fuel. -/
def Evaluates (block : Block) (w : World σ) (r : Except ScriptError Value) (w' : World σ) : Prop :=
  ∃ fuel, evalUnit natives defs fuel block w = some (r, w')

end Calls

/-! ## More fuel -/

/-- Wherever the first evaluation ends, the second one ends in the same way. -/
def Within (x y : Evaluation σ α) : Prop :=
  ∀ w out, x w = some out → y w = some out

namespace Within

/-- An evaluation is within itself. -/
theorem refl (x : Evaluation σ α) : Within x x :=
  fun _ _ h => h

theorem exhausted (x : Evaluation σ α) : Within exhausted x := by
  intro w out h
  cases h

/-- One evaluation after the other. -/
theorem bind {x y : Evaluation σ α} {f g : α → Evaluation σ β} (hxy : Within x y)
    (hfg : ∀ a, Within (f a) (g a)) : Within (x >>= f) (y >>= g) := by
  intro w out h
  change andThen x f w = some out at h
  show andThen y g w = some out
  unfold andThen at h ⊢
  -- the first evaluation may end nowhere, with an error or with a value
  rcases hx : x w with _ | ⟨_ | a, w'⟩
  · rw [hx] at h
    cases h
  · rw [hx] at h
    rwa [hxy w _ hx]
  · rw [hx] at h
    rw [hxy w _ hx]
    exact hfg a w' out h

theorem ite {c : Bool} {x x' y y' : Evaluation σ α} (hx : Within x x') (hy : Within y y') :
    Within (if c then x else y) (if c then x' else y') := by
  cases c with
  | true => exact hx
  | false => exact hy

theorem followedBy {next next' : Locals → Evaluation σ Flow}
    (h : ∀ locals, Within (next locals) (next' locals)) (flow : Flow) :
    Within (Evaluation.followedBy next flow) (Evaluation.followedBy next' flow) := by
  cases flow with
  | next locals => exact h locals
  | returned v => exact refl _

/-- A loop may have more rounds. -/
theorem whileTrue {test test' : Locals → Evaluation σ Value}
    {body body' : Locals → Evaluation σ Flow} {rounds rounds' : Nat}
    (htest : ∀ locals, Within (test locals) (test' locals))
    (hbody : ∀ locals, Within (body locals) (body' locals)) (hle : rounds ≤ rounds')
    (locals : Locals) :
    Within (whileTrue test body rounds locals) (whileTrue test' body' rounds' locals) := by
  induction rounds generalizing rounds' locals with
  | zero => exact exhausted _
  | succ rounds ih =>
      cases rounds' with
      | zero => omega
      | succ rounds' =>
          refine (htest locals).bind fun v => ite ?_ (refl _)
          exact (hbody locals).bind (followedBy fun locals => ih (by omega) locals)

end Within

section Fuel

variable {defs : Definitions ν} {apply apply' : Definition ν → List Value → Evaluation σ Value}
variable {rounds rounds' : Nat}

mutual

/-- By recursion on the tree: only calls take fuel. -/
theorem within_evalExpr (happly : ∀ d args, Within (apply d args) (apply' d args))
    (locals : Locals) : (e : Expr) →
      Within (evalExpr defs apply locals e) (evalExpr defs apply' locals e)
  | .literal _ => Within.refl _
  | .name _ => Within.refl _
  | .prefixed _ e => (within_evalExpr happly locals e).bind fun _ => Within.refl _
  | .binary _ l r =>
      (within_evalExpr happly locals l).bind fun _ =>
        (within_evalExpr happly locals r).bind fun _ => Within.refl _
  | .call _ args =>
      (Within.refl _).bind fun callee =>
        (within_evalExprs happly locals args).bind fun vs => happly callee vs

theorem within_evalExprs (happly : ∀ d args, Within (apply d args) (apply' d args))
    (locals : Locals) : (es : List Expr) →
      Within (evalExprs defs apply locals es) (evalExprs defs apply' locals es)
  | [] => Within.refl _
  | e :: rest =>
      (within_evalExpr happly locals e).bind fun _ =>
        (within_evalExprs happly locals rest).bind fun _ => Within.refl _

end

mutual

/-- By recursion on the tree: only calls and loops take fuel. -/
theorem within_execStmt (happly : ∀ d args, Within (apply d args) (apply' d args))
    (hle : rounds ≤ rounds') (locals : Locals) : (s : Stmt) →
      Within (execStmt defs apply rounds locals s) (execStmt defs apply' rounds' locals s)
  | .func _ _ _ => Within.refl _
  | .ret none => Within.refl _
  | .ret (some e) => (within_evalExpr happly locals e).bind fun _ => Within.refl _
  | .when test body =>
      (within_evalExpr happly locals test).bind fun _ =>
        Within.ite (within_execBlock happly hle locals body) (Within.refl _)
  | .choose test body otherwise =>
      (within_evalExpr happly locals test).bind fun _ =>
        Within.ite (within_execBlock happly hle locals body)
          (within_execBlock happly hle locals otherwise)
  | .loop test body =>
      Within.whileTrue (fun locals => within_evalExpr happly locals test)
        (fun locals => within_execBlock happly hle locals body) hle locals
  | .assign _ e => (within_evalExpr happly locals e).bind fun _ => Within.refl _
  | .eval e => (within_evalExpr happly locals e).bind fun _ => Within.refl _

theorem within_execBlock (happly : ∀ d args, Within (apply d args) (apply' d args))
    (hle : rounds ≤ rounds') (locals : Locals) : (b : Block) →
      Within (execBlock defs apply rounds locals b) (execBlock defs apply' rounds' locals b)
  | [] => Within.refl _
  | s :: rest =>
      (within_execStmt happly hle locals s).bind
        (Within.followedBy fun locals => within_execBlock happly hle locals rest)

end

variable {natives : Natives ν σ} {fuel fuel' : Nat}

/-- A call with more fuel does the same, by induction on the fuel. -/
theorem within_callAt (hle : fuel ≤ fuel') (definition : Definition ν) (args : List Value) :
    Within (callAt natives defs fuel definition args)
      (callAt natives defs fuel' definition args) := by
  -- Natives take no fuel, so only a declared function needs the hypothesis.
  induction fuel generalizing fuel' definition args with
  | zero =>
      cases definition with
      | declared d => exact Within.exhausted _
      | native native =>
          simp only [callAt]
          exact Within.refl _
  | succ fuel ih =>
      cases definition with
      | declared d =>
          cases fuel' with
          | zero => omega
          | succ fuel' =>
              have hle := Nat.le_of_succ_le_succ hle
              exact (within_execBlock (ih hle) hle _ d.body).bind fun _ => Within.refl _
      | native native =>
          simp only [callAt]
          exact Within.refl _

theorem within_evalUnit (hle : fuel ≤ fuel') (block : Block) :
    Within (evalUnit natives defs fuel block) (evalUnit natives defs fuel' block) :=
  (within_execBlock (within_callAt hle) hle [] block).bind fun _ => Within.refl _

/-- What a unit evaluates to does not depend on the fuel. -/
theorem Evaluates.unique {block : Block} {w w₁ w₂ : World σ} {r₁ r₂ : Except ScriptError Value}
    (h₁ : Evaluates natives defs block w r₁ w₁) (h₂ : Evaluates natives defs block w r₂ w₂) :
    r₁ = r₂ ∧ w₁ = w₂ := by
  rcases h₁ with ⟨fuel₁, h₁⟩
  rcases h₂ with ⟨fuel₂, h₂⟩
  -- the larger amount of fuel serves both
  have hmax₁ := within_evalUnit (Nat.le_max_left fuel₁ fuel₂) block w _ h₁
  have hmax₂ := within_evalUnit (Nat.le_max_right fuel₁ fuel₂) block w _ h₂
  rw [hmax₁] at hmax₂
  cases hmax₂
  exact ⟨rfl, rfl⟩

end Fuel

end Evaluation
end ScriptHost
