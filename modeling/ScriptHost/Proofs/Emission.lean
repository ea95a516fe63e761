import ScriptHost.Script.Compiler

/-!
# Functions under construction

The generator only ever appends: an instruction, a constant or a name that a function has keeps
its index in every function that is generated from it. This is what lets a proof about one tree
speak about the finished function, in which its code is a part. The second half counts the
instructions of trees, which is what the targets of forward jumps rely on.
-/

namespace ScriptHost
namespace Script
namespace Function

/-! ## What stays when code is appended -/

/-- Everything in `f` stands at the same index in `g`. -/
structure Extends (f g : Function) : Prop where
  code : ∀ {i : Nat} {op}, f.code[i]? = some op → g.code[i]? = some op
  constants : ∀ {i : Nat} {v}, f.constants[i]? = some v → g.constants[i]? = some v
  names : ∀ {i : Nat} {y}, f.names[i]? = some y → g.names[i]? = some y
  name : f.name = g.name
  paramCount : f.paramCount = g.paramCount

namespace Extends

theorem refl (f : Function) : Extends f f :=
  ⟨id, id, id, rfl, rfl⟩

/-- What is kept by two additions is kept by both. -/
theorem trans {f g l : Function} (hfg : Extends f g) (hgl : Extends g l) : Extends f l :=
  ⟨fun hi => hgl.code (hfg.code hi), fun hi => hgl.constants (hfg.constants hi),
    fun hi => hgl.names (hfg.names hi), hfg.name.trans hgl.name,
    hfg.paramCount.trans hgl.paramCount⟩

end Extends

/-- An element keeps its index when another one is added. -/
theorem getElem?_push_of_some {α : Type} {a : Array α} {i : Nat} {x y : α}
    (hi : a[i]? = some x) : (a.push y)[i]? = some x := by
  have hlt : i < a.size := (Array.getElem?_eq_some_iff.1 hi).1
  rw [Array.getElem?_push, if_neg (Nat.ne_of_lt hlt), hi]

section Basic

variable (params : List String) (f : Function)

/-- An instruction is added behind the others. -/
theorem extends_emit (op : Opcode) : Extends f (f.emit op) :=
  ⟨getElem?_push_of_some, id, id, rfl, rfl⟩

/-- A constant is added behind the others, if it is new. -/
theorem extends_addConstant (v : Value) : Extends f (f.addConstant v).1 := by
  unfold addConstant
  split
  · exact Extends.refl f
  · exact ⟨id, getElem?_push_of_some, id, rfl, rfl⟩

theorem extends_addName (y : String) : Extends f (f.addName y).1 := by
  unfold addName
  split
  · exact Extends.refl f
  · exact ⟨id, id, getElem?_push_of_some, rfl, rfl⟩

@[simp]
theorem size_code_emit (op : Opcode) : (f.emit op).code.size = f.code.size + 1 := by
  simp [emit]

/-- The instruction that is emitted is where the code has ended. -/
theorem getElem?_code_emit (op : Opcode) : (f.emit op).code[f.code.size]? = some op := by
  simp [emit]

@[simp]
theorem code_addConstant (v : Value) : (f.addConstant v).1.code = f.code := by
  unfold addConstant
  split <;> rfl

@[simp]
theorem code_addName (y : String) : (f.addName y).1.code = f.code := by
  unfold addName
  split <;> rfl

/-- The entry that an interned constant is served from. -/
theorem getElem?_addConstant (v : Value) :
    ∃ c, (f.addConstant v).1.constants[(f.addConstant v).2]? = some c ∧
      (c = v ∨ c ∈ f.constants ∧ c.equals v = true) := by
  unfold addConstant
  split
  · next i hi =>
      -- the pool holds a constant already that the language considers equal
      rcases Array.findIdx?_eq_some_iff_getElem.1 hi with ⟨hlt, heq, _⟩
      exact ⟨f.constants[i], by simp [hlt], .inr ⟨Array.getElem_mem hlt, heq⟩⟩
  · exact ⟨v, by simp, .inl rfl⟩

/-- The index of a name is where the name is. -/
theorem getElem?_addName (y : String) :
    (f.addName y).1.names[(f.addName y).2]? = some y := by
  unfold addName
  split
  · next i hi =>
      rcases Array.findIdx?_eq_some_iff_getElem.1 hi with ⟨hlt, heq, _⟩
      simp only [beq_iff_eq] at heq
      simp [hlt, heq]
  · simp

/-! ## Single instructions of trees -/

/-- A literal adds a constant and an instruction. -/
theorem extends_emitConstant (v : Value) : Extends f (f.emitConstant v) :=
  (f.extends_addConstant v).trans (extends_emit _ _)

/-- A callee adds a name and an instruction. -/
theorem extends_emitCallee (y : String) : Extends f (f.emitCallee y) :=
  (f.extends_addName y).trans (extends_emit _ _)

/-- A name that is read adds an instruction, and itself if it is no parameter. -/
theorem extends_emitLoad (y : String) : Extends f (f.emitLoad params y) := by
  unfold emitLoad
  split
  · exact extends_emit _ _
  · exact (f.extends_addName y).trans (extends_emit _ _)

theorem extends_emitStore (y : String) : Extends f (f.emitStore params y) := by
  unfold emitStore
  split
  · exact extends_emit _ _
  · exact (f.extends_addName y).trans (extends_emit _ _)

@[simp]
theorem size_emitConstant (v : Value) : (f.emitConstant v).code.size = f.code.size + 1 := by
  simp [emitConstant]

@[simp]
theorem size_emitCallee (y : String) : (f.emitCallee y).code.size = f.code.size + 1 := by
  simp [emitCallee]

@[simp]
theorem size_emitLoad (y : String) : (f.emitLoad params y).code.size = f.code.size + 1 := by
  unfold emitLoad
  split <;> simp

@[simp]
theorem size_emitStore (y : String) : (f.emitStore params y).code.size = f.code.size + 1 := by
  unfold emitStore
  split <;> simp

end Basic

/-! ## Whole trees -/

section Trees

variable (params : List String)

mutual

/-- By recursion on the tree: whatever is generated is added. -/
theorem extends_emitExpr (f : Function) : (e : Expr) → Extends f (f.emitExpr params e)
  | .literal v => by
      simpa only [emitExpr] using f.extends_emitConstant v
  | .name y => by
      simpa only [emitExpr] using extends_emitLoad params f y
  | .prefixed op e => by
      simpa only [emitExpr] using (extends_emitExpr f e).trans (extends_emit _ _)
  | .binary op l r => by
      simpa only [emitExpr] using
        ((extends_emitExpr f l).trans (extends_emitExpr _ r)).trans (extends_emit _ _)
  | .call y args => by
      simpa only [emitExpr] using
        ((f.extends_emitCallee y).trans (extends_emitExprs _ args)).trans (extends_emit _ _)

theorem extends_emitExprs (f : Function) : (es : List Expr) → Extends f (f.emitExprs params es)
  | [] => by
      simpa only [emitExprs] using Extends.refl f
  | e :: rest => by
      simpa only [emitExprs] using (extends_emitExpr f e).trans (extends_emitExprs _ rest)

end

mutual

/-- An expression takes as many instructions as its size says. -/
@[simp]
theorem size_emitExpr (f : Function) :
    (e : Expr) → (f.emitExpr params e).code.size = f.code.size + e.size
  | .literal v => by
      simp [emitExpr, Expr.size]
  | .name y => by
      simp [emitExpr, Expr.size]
  | .prefixed op e => by
      simp [emitExpr, Expr.size, size_emitExpr f e, Nat.add_assoc]
  | .binary op l r => by
      simp [emitExpr, Expr.size, size_emitExpr f l, size_emitExpr _ r, Nat.add_assoc]
  | .call y args => by
      simp [emitExpr, Expr.size, size_emitExprs _ args]
      omega

@[simp]
theorem size_emitExprs (f : Function) :
    (es : List Expr) → (f.emitExprs params es).code.size = f.code.size + Expr.sizes es
  | [] => by
      simp [emitExprs, Expr.sizes]
  | e :: rest => by
      simp [emitExprs, Expr.sizes, size_emitExpr f e, size_emitExprs _ rest, Nat.add_assoc]

end

mutual

/-- By recursion on the tree. A conditional and a loop know where they end before they are
generated. -/
theorem extends_emitStmt (f : Function) : (s : Stmt) → Extends f (f.emitStmt params s)
  | .func _ _ _ => by
      simpa only [emitStmt] using Extends.refl f
  | .ret none => by
      simpa only [emitStmt] using (f.extends_emitConstant .null).trans (extends_emit _ _)
  | .ret (some e) => by
      simpa only [emitStmt] using (extends_emitExpr params f e).trans (extends_emit _ _)
  | .when test body => by
      simpa only [emitStmt] using
        ((extends_emitExpr params f test).trans (extends_emit _ _)).trans
          (extends_emitBlock _ body)
  | .choose test body otherwise => by
      simpa only [emitStmt] using
        ((((extends_emitExpr params f test).trans (extends_emit _ _)).trans
          (extends_emitBlock _ body)).trans (extends_emit _ _)).trans
          (extends_emitBlock _ otherwise)
  | .loop test body => by
      simpa only [emitStmt] using
        (((extends_emitExpr params f test).trans (extends_emit _ _)).trans
          (extends_emitBlock _ body)).trans (extends_emit _ _)
  | .assign y e => by
      simpa only [emitStmt] using
        (extends_emitExpr params f e).trans (extends_emitStore params _ y)
  | .eval e => by
      simpa only [emitStmt] using (extends_emitExpr params f e).trans (extends_emit _ _)

theorem extends_emitBlock (f : Function) : (b : Block) → Extends f (f.emitBlock params b)
  | [] => by
      simpa only [emitBlock] using Extends.refl f
  | s :: rest => by
      simpa only [emitBlock] using (extends_emitStmt f s).trans (extends_emitBlock _ rest)

end

mutual

/-- A statement takes as many instructions as its size says. -/
@[simp]
theorem size_emitStmt (f : Function) :
    (s : Stmt) → (f.emitStmt params s).code.size = f.code.size + s.size
  | .func _ _ _ => by
      simp [emitStmt, Stmt.size]
  | .ret none => by
      simp [emitStmt, Stmt.size]
  | .ret (some e) => by
      simp [emitStmt, Stmt.size, Nat.add_assoc]
  | .when test body => by
      simp [emitStmt, Stmt.size, size_emitBlock _ body, Nat.add_assoc]
  | .choose test body otherwise => by
      simp [emitStmt, Stmt.size, size_emitBlock _ body, size_emitBlock _ otherwise, Nat.add_assoc]
  | .loop test body => by
      simp [emitStmt, Stmt.size, size_emitBlock _ body, Nat.add_assoc]
  | .assign y e => by
      simp [emitStmt, Stmt.size, Nat.add_assoc]
  | .eval e => by
      simp [emitStmt, Stmt.size, Nat.add_assoc]

@[simp]
theorem size_emitBlock (f : Function) :
    (b : Block) → (f.emitBlock params b).code.size = f.code.size + Stmt.sizes b
  | [] => by
      simp [emitBlock, Stmt.sizes]
  | s :: rest => by
      simp [emitBlock, Stmt.sizes, size_emitStmt f s, size_emitBlock _ rest, Nat.add_assoc]

end

theorem extends_finish (f : Function) : Extends f f.finish :=
  (f.extends_emitConstant .null).trans (extends_emit _ _)

/-- A function is built from an empty one. -/
theorem extends_ofBody (name : String) (body : Block) :
    Extends (new name params.length) (ofBody name params body) :=
  (extends_emitBlock params _ body).trans (extends_finish _)

theorem name_ofBody (name : String) (body : Block) : (ofBody name params body).name = name :=
  (extends_ofBody params name body).name.symm

theorem paramCount_ofBody (name : String) (body : Block) :
    (ofBody name params body).paramCount = params.length :=
  (extends_ofBody params name body).paramCount.symm

end Trees

end Function

/-- A source that compiles has a tree, and the unit is the code of the tree. -/
theorem compile_eq_ok {limit : Nat} {source : String} {compiled : CompiledUnit}
    (h : compile limit source = .ok compiled) :
    ∃ block, parse limit source = .ok block ∧ compiled = compileBlock block := by
  unfold compile at h
  cases hparse : parse limit source with
  | error e =>
      rw [hparse] at h
      cases h
  | ok block =>
      rw [hparse] at h
      cases h
      exact ⟨block, rfl, rfl⟩

end Script
end ScriptHost
