import ScriptHost.Script.Value
import ScriptHost.Text.Lowercase

/-!
# Syntax trees

What a source means once its layout is gone. Names stand in trees in lower case, since the
language does not tell cases apart.
-/

namespace ScriptHost
namespace Script

/-- The form of a name under which functions, globals and parameters are looked up. -/
def normalizeName (name : String) : String :=
  Text.lowercase name

/-! ## Expressions -/

inductive PrefixOp
  | not
  | neg
  deriving DecidableEq, Repr

inductive BinaryOp
  | eq
  | ne
  | lt
  | le
  | gt
  | ge
  | add
  | sub
  | mul
  | div
  deriving DecidableEq, Repr

inductive Expr
  | literal (v : Value)
  | name (x : String)
  | prefixed (op : PrefixOp) (e : Expr)
  | binary (op : BinaryOp) (left right : Expr)
  | call (function : String) (arguments : List Expr)
  deriving Inhabited

/-! ## Statements -/

/-- A conditional chain such as `if a … else if b …` is a `choose` whose second branch is the
inner conditional alone. -/
inductive Stmt
  | func (name : String) (params : List String) (body : List Stmt)
  | ret (value : Option Expr)
  | when (test : Expr) (body : List Stmt)
  | choose (test : Expr) (body otherwise : List Stmt)
  | loop (test : Expr) (body : List Stmt)
  | assign (x : String) (e : Expr)
  | eval (e : Expr)
  deriving Inhabited

/-- A source unit: its top-level statements. -/
abbrev Block := List Stmt

/-! ## Declared functions -/

structure FuncDecl where
  name : String
  params : List String
  body : Block

mutual

/-- The functions that a statement declares, wherever they stand in it, in source order. -/
def Stmt.declared : Stmt → List FuncDecl
  | .func name params body => [⟨name, params, body⟩]
  | .ret _ => []
  | .when _ body => declaredIn body
  | .choose _ body otherwise => declaredIn body ++ declaredIn otherwise
  | .loop _ body => declaredIn body
  | .assign _ _ => []
  | .eval _ => []

def declaredIn : Block → List FuncDecl
  | [] => []
  | s :: rest => s.declared ++ declaredIn rest

end

end Script
end ScriptHost
