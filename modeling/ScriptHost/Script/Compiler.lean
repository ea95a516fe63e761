import ScriptHost.Script.Function
import ScriptHost.Script.Parser

/-!
# Code generation

Code for trees. The generator appends to a function under construction. The number of
instructions of a tree depends on the tree alone, so the targets of forward jumps are known before
the code in between is there.
-/

namespace ScriptHost
namespace Script

/-! ## Lengths of code -/

mutual

def Expr.size : Expr → Nat
  | .literal _ => 1
  | .name _ => 1
  | .prefixed _ e => e.size + 1
  | .binary _ l r => l.size + r.size + 1
  | .call _ args => Expr.sizes args + 2

def Expr.sizes : List Expr → Nat
  | [] => 0
  | e :: rest => e.size + Expr.sizes rest

end

mutual

/-- A declaration puts no code where it stands. -/
def Stmt.size : Stmt → Nat
  | .func _ _ _ => 0
  | .ret none => 2
  | .ret (some e) => e.size + 1
  | .when test body => test.size + 1 + Stmt.sizes body
  | .choose test body otherwise => test.size + 1 + Stmt.sizes body + 1 + Stmt.sizes otherwise
  | .loop test body => test.size + 1 + Stmt.sizes body + 1
  | .assign _ e => e.size + 1
  | .eval e => e.size + 1

def Stmt.sizes : Block → Nat
  | [] => 0
  | s :: rest => s.size + Stmt.sizes rest

end

/-! ## Expressions -/

namespace Function

def emitConstant (f : Function) (v : Value) : Function :=
  let (f, i) := f.addConstant v
  f.emit (.const i)

/-- A parameter is a local slot; every other name is a global. -/
def emitLoad (params : List String) (f : Function) (x : String) : Function :=
  match params.idxOf? x with
  | some slot => f.emit (.loadLocal slot)
  | none =>
      let (f, i) := f.addName x
      f.emit (.loadGlobal i)

def emitStore (params : List String) (f : Function) (x : String) : Function :=
  match params.idxOf? x with
  | some slot => f.emit (.storeLocal slot)
  | none =>
      let (f, i) := f.addName x
      f.emit (.storeGlobal i)

def emitCallee (f : Function) (function : String) : Function :=
  let (f, i) := f.addName function
  f.emit (.loadFunc i)

mutual

/-- Appends code that leaves the value of the expression on the stack. -/
def emitExpr (params : List String) (f : Function) : Expr → Function
  | .literal v => f.emitConstant v
  | .name x => f.emitLoad params x
  | .prefixed op e => (f.emitExpr params e).emit (.prefixed op)
  | .binary op l r => ((f.emitExpr params l).emitExpr params r).emit (.binary op)
  -- the callee is resolved before its arguments are evaluated
  | .call function args =>
      ((f.emitCallee function).emitExprs params args).emit (.call args.length)

def emitExprs (params : List String) (f : Function) : List Expr → Function
  | [] => f
  | e :: rest => (f.emitExpr params e).emitExprs params rest

end

/-! ## Statements -/

mutual

/-- Appends code that leaves the stack as it was. -/
def emitStmt (params : List String) (f : Function) : Stmt → Function
  | .func _ _ _ => f
  | .ret none => (f.emitConstant .null).emit .ret
  | .ret (some e) => (f.emitExpr params e).emit .ret
  | .when test body =>
      let f := f.emitExpr params test
      -- behind the jump itself and the body
      let afterBody := f.nextIndex + 1 + Stmt.sizes body
      (f.emit (.jumpIfFalse afterBody)).emitBlock params body
  | .choose test body otherwise =>
      let f := f.emitExpr params test
      -- behind the body and the jump over the alternative
      let afterBody := f.nextIndex + 1 + Stmt.sizes body + 1
      let f := (f.emit (.jumpIfFalse afterBody)).emitBlock params body
      (f.emit (.jump (afterBody + Stmt.sizes otherwise))).emitBlock params otherwise
  | .loop test body =>
      let start := f.nextIndex
      let f := f.emitExpr params test
      -- behind the body and the jump back
      let afterBody := f.nextIndex + 1 + Stmt.sizes body + 1
      ((f.emit (.jumpIfFalse afterBody)).emitBlock params body).emit (.jump start)
  | .assign x e => (f.emitExpr params e).emitStore params x
  | .eval e => (f.emitExpr params e).emit .pop

def emitBlock (params : List String) (f : Function) : Block → Function
  | [] => f
  | s :: rest => (f.emitStmt params s).emitBlock params rest

end

/-- Falling off the end returns null. -/
def finish (f : Function) : Function :=
  (f.emitConstant .null).emit .ret

/-- The code of a whole body. -/
def ofBody (name : String) (params : List String) (body : Block) : Function :=
  ((new name params.length).emitBlock params body).finish

end Function

/-! ## Units -/

def FuncDecl.compile (d : FuncDecl) : Function :=
  Function.ofBody d.name d.params d.body

def compileBlock (block : Block) : CompiledUnit :=
  ⟨Function.ofBody mainName [] block, (declaredIn block).map FuncDecl.compile⟩

/-- Compiles a source whose blocks and expressions nest at most `limit` levels deep. -/
def compile (limit : Nat) (source : String) : Except CompileError CompiledUnit :=
  (parse limit source).map compileBlock

end Script
end ScriptHost
