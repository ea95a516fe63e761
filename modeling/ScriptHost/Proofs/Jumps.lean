import ScriptHost.Proofs.Emission

/-!
# Jumps of compiled code

Every jump that the generator emits goes forward, over a body or over an alternative, except the
one at the end of each loop. Where these stand can be read off the tree; a tree without loops has
none.
-/

namespace ScriptHost
namespace Script

/-! ## Trees -/

mutual

/-- Where the jumps back to a test stand in the code of a statement that begins at index `a`: each
is the last instruction of its loop. -/
def Stmt.loopEnds (a : Nat) : Stmt → List Nat
  | .func _ _ _ => []
  | .ret _ => []
  | .when test body => Stmt.loopEndsAll (a + test.size + 1) body
  | .choose test body otherwise =>
      Stmt.loopEndsAll (a + test.size + 1) body ++
        Stmt.loopEndsAll (a + test.size + 1 + Stmt.sizes body + 1) otherwise
  | .loop test body =>
      Stmt.loopEndsAll (a + test.size + 1) body ++ [a + test.size + 1 + Stmt.sizes body]
  | .assign _ _ => []
  | .eval _ => []

def Stmt.loopEndsAll (a : Nat) : Block → List Nat
  | [] => []
  | s :: rest => s.loopEnds a ++ Stmt.loopEndsAll (a + s.size) rest

end

mutual

/-- No loop stands in the statement, nor in a function that it declares. -/
def Stmt.isLoopFree : Stmt → Bool
  | .func _ _ body => Stmt.areLoopFree body
  | .ret _ => true
  | .when _ body => Stmt.areLoopFree body
  | .choose _ body otherwise => Stmt.areLoopFree body && Stmt.areLoopFree otherwise
  | .loop _ _ => false
  | .assign _ _ => true
  | .eval _ => true

def Stmt.areLoopFree : Block → Bool
  | [] => true
  | s :: rest => s.isLoopFree && Stmt.areLoopFree rest

end

mutual

/-- A statement without loops ends none. -/
theorem loopEnds_of_isLoopFree (a : Nat) : (s : Stmt) → s.isLoopFree = true → s.loopEnds a = []
  | .func _ _ _ => fun _ => rfl
  | .ret _ => fun _ => rfl
  | .when test body => fun h => loopEnds_of_areLoopFree _ body h
  | .choose test body otherwise => by
      intro h
      rw [Stmt.isLoopFree, Bool.and_eq_true] at h
      rw [Stmt.loopEnds, loopEnds_of_areLoopFree _ body h.1,
        loopEnds_of_areLoopFree _ otherwise h.2, List.append_nil]
  | .loop _ _ => nofun
  | .assign _ _ => fun _ => rfl
  | .eval _ => fun _ => rfl

theorem loopEnds_of_areLoopFree (a : Nat) :
    (b : Block) → Stmt.areLoopFree b = true → Stmt.loopEndsAll a b = []
  | [] => fun _ => rfl
  | s :: rest => by
      intro h
      rw [Stmt.areLoopFree, Bool.and_eq_true] at h
      rw [Stmt.loopEndsAll, loopEnds_of_isLoopFree a s h.1,
        loopEnds_of_areLoopFree _ rest h.2, List.append_nil]

end

mutual

/-- What is declared in a statement without loops has none either. -/
theorem areLoopFree_of_declared {d : FuncDecl} :
    (s : Stmt) → s.isLoopFree = true → d ∈ s.declared → Stmt.areLoopFree d.body = true
  | .func _ _ body => by
      intro h hd
      cases List.mem_singleton.1 hd
      exact h
  | .ret _ => fun _ => nofun
  | .when _ body => fun h hd => areLoopFree_of_declaredIn body h hd
  | .choose _ body otherwise => by
      intro h hd
      rw [Stmt.isLoopFree, Bool.and_eq_true] at h
      rcases List.mem_append.1 hd with hd | hd
      · exact areLoopFree_of_declaredIn body h.1 hd
      · exact areLoopFree_of_declaredIn otherwise h.2 hd
  | .loop _ _ => nofun
  | .assign _ _ => fun _ => nofun
  | .eval _ => fun _ => nofun

theorem areLoopFree_of_declaredIn {d : FuncDecl} :
    (b : Block) → Stmt.areLoopFree b = true → d ∈ declaredIn b → Stmt.areLoopFree d.body = true
  | [] => fun _ => nofun
  | s :: rest => by
      intro h hd
      rw [Stmt.areLoopFree, Bool.and_eq_true] at h
      rcases List.mem_append.1 hd with hd | hd
      · exact areLoopFree_of_declared s h.1 hd
      · exact areLoopFree_of_declaredIn rest h.2 hd

end

/-! ## Code -/

def Opcode.target? : Opcode → Option Nat
  | .jump target => some target
  | .jumpIfFalse target => some target
  | _ => none

namespace Function

/-- Every jump goes forward unless it stands at one of the given places. -/
def JumpsForward (f : Function) (ends : List Nat) : Prop :=
  ∀ (i : Nat) op target, f.code[i]? = some op → op.target? = some target → i < target ∨ i ∈ ends

section Emitting

variable {f : Function} {ends : List Nat}

theorem JumpsForward.of_code {g : Function} (h : f.JumpsForward ends) (hcode : g.code = f.code) :
    g.JumpsForward ends := by
  intro i op target hop htarget
  exact h i op target (hcode ▸ hop) htarget

/-- A jump that is added goes forward, or ends a loop. -/
theorem JumpsForward.emit (h : f.JumpsForward ends) {op : Opcode}
    (hop : ∀ target, op.target? = some target → f.code.size < target ∨ f.code.size ∈ ends) :
    (f.emit op).JumpsForward ends := by
  intro i op' target hop' htarget
  rw [Function.emit, Array.getElem?_push] at hop'
  split at hop'
  · rename_i hi
    cases hop'
    subst hi
    exact hop target htarget
  · exact h i op' target hop' htarget

/-- An instruction that is no jump. -/
theorem JumpsForward.emit_plain (h : f.JumpsForward ends) {op : Opcode} (hop : op.target? = none) :
    (f.emit op).JumpsForward ends := by
  refine h.emit fun target htarget => ?_
  rw [hop] at htarget
  cases htarget

theorem JumpsForward.emitConstant (h : f.JumpsForward ends) (v : Value) :
    (f.emitConstant v).JumpsForward ends :=
  (h.of_code (f.code_addConstant v)).emit_plain rfl

theorem JumpsForward.emitCallee (h : f.JumpsForward ends) (y : String) :
    (f.emitCallee y).JumpsForward ends :=
  (h.of_code (f.code_addName y)).emit_plain rfl

/-- Names do not jump, whether local or not. -/
theorem JumpsForward.emitLoad (h : f.JumpsForward ends) (params : List String) (y : String) :
    (f.emitLoad params y).JumpsForward ends := by
  unfold Function.emitLoad
  split
  · exact h.emit_plain rfl
  · exact (h.of_code (f.code_addName y)).emit_plain rfl

theorem JumpsForward.emitStore (h : f.JumpsForward ends) (params : List String) (y : String) :
    (f.emitStore params y).JumpsForward ends := by
  unfold Function.emitStore
  split
  · exact h.emit_plain rfl
  · exact (h.of_code (f.code_addName y)).emit_plain rfl

mutual

/-- Expressions have no jumps at all. -/
theorem jumpsForward_emitExpr (params : List String) {f : Function} (h : f.JumpsForward ends) :
    (e : Expr) → (f.emitExpr params e).JumpsForward ends
  | .literal v => by
      rw [emitExpr]
      exact h.emitConstant v
  | .name y => by
      rw [emitExpr]
      exact h.emitLoad params y
  | .prefixed op e => by
      rw [emitExpr]
      exact (jumpsForward_emitExpr params h e).emit_plain rfl
  | .binary op l r => by
      rw [emitExpr]
      have hleft := jumpsForward_emitExpr params h l
      exact (jumpsForward_emitExpr params hleft r).emit_plain rfl
  | .call y args => by
      rw [emitExpr]
      exact (jumpsForward_emitExprs params (h.emitCallee y) args).emit_plain rfl

theorem jumpsForward_emitExprs (params : List String) {f : Function} (h : f.JumpsForward ends) :
    (es : List Expr) → (f.emitExprs params es).JumpsForward ends
  | [] => by
      rw [emitExprs]
      exact h
  | e :: rest => by
      rw [emitExprs]
      exact jumpsForward_emitExprs params (jumpsForward_emitExpr params h e) rest

end

/-- A test and the jump over what it decides about. -/
theorem jumpsForward_test (params : List String) (h : f.JumpsForward ends) (test : Expr) {n : Nat} :
    ((f.emitExpr params test).emit
      (.jumpIfFalse ((f.emitExpr params test).nextIndex + 1 + n))).JumpsForward ends := by
  refine (jumpsForward_emitExpr params h test).emit fun target htarget => ?_
  cases htarget
  exact .inl (by rw [nextIndex]; omega)

mutual

/-- By recursion on the tree. Only the last jump of a loop goes back. -/
theorem jumpsForward_emitStmt (params : List String) {f : Function} (h : f.JumpsForward ends) :
    (s : Stmt) → (∀ i ∈ s.loopEnds f.code.size, i ∈ ends) →
      (f.emitStmt params s).JumpsForward ends
  | .func _ _ _ => by
      intro _
      rw [emitStmt]
      exact h
  | .ret none => by
      intro _
      rw [emitStmt]
      exact (h.emitConstant .null).emit_plain rfl
  | .ret (some e) => by
      intro _
      rw [emitStmt]
      exact (jumpsForward_emitExpr params h e).emit_plain rfl
  | .when test body => by
      intro hends
      rw [emitStmt]
      refine jumpsForward_emitBlock params (jumpsForward_test params h test) body ?_
      rw [size_code_emit, size_emitExpr]
      exact hends
  | .choose test body otherwise => by
      intro hends
      rw [emitStmt]
      rw [Stmt.loopEnds] at hends
      have htest := jumpsForward_test params h test (n := Stmt.sizes body + 1)
      have hbody := jumpsForward_emitBlock params htest body fun i hi => by
        rw [size_code_emit, size_emitExpr] at hi
        exact hends i (List.mem_append_left _ hi)
      -- the alternative begins right behind the jump over it
      refine jumpsForward_emitBlock params (hbody.emit fun target htarget => ?_) otherwise ?_
      · cases htarget
        rw [size_emitBlock, size_code_emit, nextIndex]
        exact .inl (by omega)
      · intro i hi
        rw [size_code_emit, size_emitBlock, size_code_emit, size_emitExpr] at hi
        exact hends i (List.mem_append_right _ hi)
  | .loop test body => by
      intro hends
      rw [emitStmt]
      rw [Stmt.loopEnds] at hends
      have htest := jumpsForward_test params h test (n := Stmt.sizes body + 1)
      have hbody := jumpsForward_emitBlock params htest body fun i hi => by
        rw [size_code_emit, size_emitExpr] at hi
        exact hends i (List.mem_append_left _ hi)
      -- the only jump back, at the end of the loop
      refine hbody.emit fun target _ => .inr ?_
      rw [size_emitBlock, size_code_emit, size_emitExpr]
      exact hends _ (List.mem_append_right _ (List.mem_singleton.2 rfl))
  | .assign y e => by
      intro _
      rw [emitStmt]
      exact (jumpsForward_emitExpr params h e).emitStore params y
  | .eval e => by
      intro _
      rw [emitStmt]
      exact (jumpsForward_emitExpr params h e).emit_plain rfl

theorem jumpsForward_emitBlock (params : List String) {f : Function} (h : f.JumpsForward ends) :
    (b : Block) → (∀ i ∈ Stmt.loopEndsAll f.code.size b, i ∈ ends) →
      (f.emitBlock params b).JumpsForward ends
  | [] => by
      intro _
      rw [emitBlock]
      exact h
  | s :: rest => by
      intro hends
      rw [emitBlock]
      rw [Stmt.loopEndsAll] at hends
      have hfirst := jumpsForward_emitStmt params h s fun i hi =>
        hends i (List.mem_append_left _ hi)
      -- The ends of loops are positions, and those of the rest are counted from where it starts.
      refine jumpsForward_emitBlock params hfirst rest fun i hi => ?_
      rw [size_emitStmt] at hi
      exact hends i (List.mem_append_right _ hi)

end

end Emitting

/-- The code of a body jumps back only at the ends of the loops of the body. -/
theorem jumpsForward_compile (d : FuncDecl) :
    d.compile.JumpsForward (Stmt.loopEndsAll 0 d.body) := by
  have hnew : (new d.name d.params.length).JumpsForward (Stmt.loopEndsAll 0 d.body) := by
    intro i op target hop
    cases hop
  have hbody := jumpsForward_emitBlock d.params hnew d.body fun _ => id
  exact (hbody.emitConstant .null).emit_plain rfl

end Function

/-! ## Functions without loops -/

/-- The declaration that the top-level statements of a unit amount to. -/
def mainDecl (block : Block) : FuncDecl :=
  ⟨mainName, [], block⟩

/-- The function is the code of a tree without loops, which is a whole source or declared in one. -/
def Function.IsLoopFree (f : Function) : Prop :=
  ∃ limit source block d, parse limit source = .ok block ∧
    (d = mainDecl block ∨ d ∈ declaredIn block) ∧ Stmt.areLoopFree d.body = true ∧ f = d.compile

namespace Function.IsLoopFree

variable {f : Function}

/-- Without loops every jump goes forward. -/
theorem jumpsForward (h : f.IsLoopFree) : f.JumpsForward [] := by
  rcases h with ⟨limit, source, block, d, _, _, hfree, rfl⟩
  have hforward := jumpsForward_compile d
  rwa [loopEnds_of_areLoopFree 0 d.body hfree] at hforward

/-- A source without loops compiles to functions without loops. -/
theorem of_compile {limit : Nat} {source : String} {compiled : CompiledUnit}
    (hcompile : compile limit source = .ok compiled)
    (hfree : ∀ block, parse limit source = .ok block → Stmt.areLoopFree block = true) :
    compiled.main.IsLoopFree ∧ ∀ g ∈ compiled.functions, g.IsLoopFree := by
  rcases compile_eq_ok hcompile with ⟨block, hparse, rfl⟩
  have hblock := hfree block hparse
  refine ⟨⟨limit, source, block, mainDecl block, hparse, .inl rfl, hblock, rfl⟩, fun g hg => ?_⟩
  rcases List.mem_map.1 hg with ⟨d, hd, rfl⟩
  exact ⟨limit, source, block, d, hparse, .inr hd, areLoopFree_of_declaredIn block hblock hd, rfl⟩

end Function.IsLoopFree

end Script
end ScriptHost
