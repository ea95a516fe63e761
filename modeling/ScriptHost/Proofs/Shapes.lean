import ScriptHost.Proofs.Emission

/-!
# Shapes of compiled code

Before every instruction of compiled code it is known how many operands its activation has above
the locals, and at which of these heights a callee waits for its arguments. This is the shape of
the activation there. A table of shapes fits a function when every instruction finds what it takes
and leaves the shape that the table has at each place where it may lead, forward jumps and the
backward jump of a loop included. Every function that the generator makes from a tree has a
fitting table, which is read off the tree.
-/

namespace ScriptHost
namespace Script

/-! ## Shapes -/

/-- The number of operands above the locals, and the heights at which the waiting callees stand,
the innermost first. -/
structure Shape where
  height : Nat
  waiting : List Nat
  deriving DecidableEq, Repr

namespace Shape

/-- No operands above the locals. -/
def empty : Shape :=
  ⟨0, []⟩

/-- So many operands more. -/
def grown (s : Shape) (n : Nat) : Shape :=
  { s with height := s.height + n }

/-- After a callee has been resolved. -/
def opened (s : Shape) : Shape :=
  { s with waiting := s.height :: s.waiting }

@[simp]
theorem grown_zero (s : Shape) : s.grown 0 = s :=
  rfl

@[simp]
theorem grown_grown (s : Shape) (m n : Nat) : (s.grown m).grown n = s.grown (m + n) := by
  simp [grown, Nat.add_assoc]

@[simp]
theorem height_grown (s : Shape) (n : Nat) : (s.grown n).height = s.height + n :=
  rfl

@[simp]
theorem waiting_grown (s : Shape) (n : Nat) : (s.grown n).waiting = s.waiting :=
  rfl

@[simp]
theorem height_opened (s : Shape) : s.opened.height = s.height :=
  rfl

@[simp]
theorem waiting_opened (s : Shape) : s.opened.waiting = s.height :: s.waiting :=
  rfl

end Shape

mutual

/-- The shapes before the instructions of an expression that is begun in shape `s`. -/
def Expr.shapes (s : Shape) : Expr → List Shape
  | .literal _ => [s]
  | .name _ => [s]
  | .prefixed _ e => e.shapes s ++ [s.grown 1]
  | .binary _ l r => l.shapes s ++ (r.shapes (s.grown 1) ++ [s.grown 2])
  | .call _ args => s :: (Expr.shapesAll s.opened args ++ [s.opened.grown args.length])

/-- One argument after the other. -/
def Expr.shapesAll (s : Shape) : List Expr → List Shape
  | [] => []
  | e :: rest => e.shapes s ++ Expr.shapesAll (s.grown 1) rest

end

mutual

/-- The shapes before the instructions of a statement, which is always begun with nothing above
the locals. -/
def Stmt.shapes : Stmt → List Shape
  | .func _ _ _ => []
  | .ret none => [Shape.empty, Shape.empty.grown 1]
  | .ret (some e) => e.shapes Shape.empty ++ [Shape.empty.grown 1]
  | .when test body =>
      test.shapes Shape.empty ++ (Shape.empty.grown 1 :: Stmt.shapesAll body)
  | .choose test body otherwise =>
      test.shapes Shape.empty ++
        (Shape.empty.grown 1 :: (Stmt.shapesAll body ++ (Shape.empty :: Stmt.shapesAll otherwise)))
  | .loop test body =>
      test.shapes Shape.empty ++
        (Shape.empty.grown 1 :: (Stmt.shapesAll body ++ [Shape.empty]))
  | .assign _ e => e.shapes Shape.empty ++ [Shape.empty.grown 1]
  | .eval e => e.shapes Shape.empty ++ [Shape.empty.grown 1]

/-- One statement after the other. -/
def Stmt.shapesAll : Block → List Shape
  | [] => []
  | s :: rest => s.shapes ++ Stmt.shapesAll rest

end

/-- The table of a whole body. -/
def bodyShapes (body : Block) : List Shape :=
  Stmt.shapesAll body ++ [Shape.empty, Shape.empty.grown 1]

/-! ## One shape for each instruction -/

mutual

/-- An expression has as many shapes as instructions. -/
@[simp]
theorem length_shapes (s : Shape) : (e : Expr) → (e.shapes s).length = e.size
  | .literal _ => rfl
  | .name _ => rfl
  | .prefixed _ e => by
      simp [Expr.shapes, Expr.size, length_shapes s e]
  | .binary _ l r => by
      simp [Expr.shapes, Expr.size, length_shapes s l, length_shapes _ r, Nat.add_assoc]
  | .call _ args => by
      simp [Expr.shapes, Expr.size, length_shapesAll _ args]

@[simp]
theorem length_shapesAll (s : Shape) :
    (es : List Expr) → (Expr.shapesAll s es).length = Expr.sizes es
  | [] => rfl
  | e :: rest => by
      simp [Expr.shapesAll, Expr.sizes, length_shapes s e, length_shapesAll _ rest]

end

mutual

@[simp]
theorem length_stmtShapes : (s : Stmt) → s.shapes.length = s.size
  | .func _ _ _ => rfl
  | .ret none => rfl
  | .ret (some e) => by
      simp [Stmt.shapes, Stmt.size]
  | .when test body => by
      simp [Stmt.shapes, Stmt.size, length_stmtShapesAll body]
      omega
  | .choose test body otherwise => by
      simp [Stmt.shapes, Stmt.size, length_stmtShapesAll body, length_stmtShapesAll otherwise]
      omega
  | .loop test body => by
      simp [Stmt.shapes, Stmt.size, length_stmtShapesAll body]
      omega
  | .assign _ e => by
      simp [Stmt.shapes, Stmt.size]
  | .eval e => by
      simp [Stmt.shapes, Stmt.size]

@[simp]
theorem length_stmtShapesAll : (b : Block) → (Stmt.shapesAll b).length = Stmt.sizes b
  | [] => rfl
  | s :: rest => by
      simp [Stmt.shapesAll, Stmt.sizes, length_stmtShapes s, length_stmtShapesAll rest]

end

/-! ## The shape that a tree is begun in -/

/-- An expression begins in the shape that is given. -/
theorem head?_shapes (s : Shape) (tail : List Shape) :
    (e : Expr) → (e.shapes s ++ tail).head? = some s
  | .literal _ => rfl
  | .name _ => rfl
  | .prefixed _ e => by
      rw [Expr.shapes, List.append_assoc]
      exact head?_shapes s _ e
  | .binary _ l r => by
      rw [Expr.shapes, List.append_assoc]
      exact head?_shapes s _ l
  | .call _ args => by
      simp [Expr.shapes]

theorem head?_shapesAll (s : Shape) (tail : List Shape) (es : List Expr) :
    (Expr.shapesAll s es ++ (s.grown es.length :: tail)).head? = some s := by
  cases es with
  | nil => rfl
  | cons e rest =>
      rw [Expr.shapesAll, List.append_assoc]
      exact head?_shapes s _ e

mutual

/-- A statement begins in the empty shape. -/
theorem head?_stmtShapes (tail : List Shape) (htail : tail.head? = some Shape.empty) :
    (s : Stmt) → (s.shapes ++ tail).head? = some Shape.empty
  -- no code: what stands here is what comes next
  | .func _ _ _ => by
      simpa [Stmt.shapes] using htail
  | .ret none => rfl
  | .ret (some e) => by
      rw [Stmt.shapes, List.append_assoc]
      exact head?_shapes Shape.empty _ e
  | .when test _ => by
      rw [Stmt.shapes, List.append_assoc]
      exact head?_shapes Shape.empty _ test
  | .choose test _ _ => by
      rw [Stmt.shapes, List.append_assoc]
      exact head?_shapes Shape.empty _ test
  | .loop test _ => by
      rw [Stmt.shapes, List.append_assoc]
      exact head?_shapes Shape.empty _ test
  | .assign _ e => by
      rw [Stmt.shapes, List.append_assoc]
      exact head?_shapes Shape.empty _ e
  | .eval e => by
      rw [Stmt.shapes, List.append_assoc]
      exact head?_shapes Shape.empty _ e

theorem head?_stmtShapesAll (tail : List Shape) (htail : tail.head? = some Shape.empty) :
    (b : Block) → (Stmt.shapesAll b ++ tail).head? = some Shape.empty
  | [] => htail
  | s :: rest => by
      rw [Stmt.shapesAll, List.append_assoc]
      exact head?_stmtShapes _ (head?_stmtShapesAll tail htail rest) s

end

/-! ## Fitting -/

/-- What an instruction at index `i` takes from a shape, and which shapes the table must have at
the places where the instruction may lead. -/
def Fits (f : Function) (table : List Shape) (i : Nat) (s : Shape) : Opcode → Prop
  | .const c => (∃ v, f.constants[c]? = some v) ∧ table[i + 1]? = some (s.grown 1)
  | .loadGlobal n => (∃ y, f.names[n]? = some y) ∧ table[i + 1]? = some (s.grown 1)
  | .storeGlobal n =>
      (∃ y, f.names[n]? = some y) ∧ ∃ t : Shape, s = t.grown 1 ∧ table[i + 1]? = some t
  | .loadLocal slot => slot < f.paramCount ∧ table[i + 1]? = some (s.grown 1)
  | .storeLocal slot =>
      slot < f.paramCount ∧ ∃ t : Shape, s = t.grown 1 ∧ table[i + 1]? = some t
  | .binary _ => ∃ t : Shape, s = t.grown 2 ∧ table[i + 1]? = some (t.grown 1)
  | .prefixed _ => ∃ t : Shape, s = t.grown 1 ∧ table[i + 1]? = some (t.grown 1)
  | .jump target => table[target]? = some s
  | .jumpIfFalse target =>
      ∃ t : Shape, s = t.grown 1 ∧ table[i + 1]? = some t ∧ table[target]? = some t
  | .loadFunc n => (∃ y, f.names[n]? = some y) ∧ table[i + 1]? = some s.opened
  | .call argc => ∃ t : Shape, s = t.opened.grown argc ∧ table[i + 1]? = some (t.grown 1)
  | .pop => ∃ t : Shape, s = t.grown 1 ∧ table[i + 1]? = some t
  | .ret => s = Shape.empty.grown 1

/-- Every instruction with an index from `a` up to but not including `b` fits the table. -/
def FitsBetween (f : Function) (table : List Shape) (a b : Nat) : Prop :=
  ∀ i, a ≤ i → i < b → ∀ s, table[i]? = some s →
    ∃ op, f.code[i]? = some op ∧ Fits f table i s op

/-- A table for a whole function, which is entered with nothing above its parameters. -/
structure Verified (f : Function) (table : List Shape) : Prop where
  start : table[0]? = some Shape.empty
  fits : ∀ {i : Nat} {s}, table[i]? = some s → ∃ op, f.code[i]? = some op ∧ Fits f table i s op

namespace FitsBetween

variable {f : Function} {table : List Shape} {a b c : Nat}

theorem nil : FitsBetween f table a a := by
  intro i hle hlt
  omega

/-- What fits in two parts fits as a whole. -/
theorem append (hab : FitsBetween f table a b) (hbc : FitsBetween f table b c) :
    FitsBetween f table a c := by
  intro i hle hlt
  by_cases hi : i < b
  · exact hab i hle hi
  · exact hbc i (Nat.not_lt.1 hi) hlt

theorem single {s : Shape} {op : Opcode} (hs : table[a]? = some s) (hop : f.code[a]? = some op)
    (hfits : Fits f table a s op) : FitsBetween f table a (a + 1) := by
  intro i hle hlt t ht
  have hi : i = a := by omega
  subst hi
  rw [hs, Option.some.injEq] at ht
  subst ht
  exact ⟨op, hop, hfits⟩

end FitsBetween

/-! ## Places of a table -/

/-- The shapes `xs` stand in the table from index `a` on. -/
def LaidAt (table : List Shape) (a : Nat) (xs : List Shape) : Prop :=
  ∀ (j : Nat) (s : Shape), xs[j]? = some s → table[a + j]? = some s

namespace LaidAt

variable {table xs ys : List Shape} {a : Nat} {s : Shape}

/-- The first part lies where the whole does. -/
theorem left (hlaid : LaidAt table a (xs ++ ys)) : LaidAt table a xs := by
  intro j s hj
  have hlt : j < xs.length := (List.getElem?_eq_some_iff.1 hj).1
  exact hlaid j s (by rw [List.getElem?_append_left hlt, hj])

/-- The second part lies behind it. -/
theorem right (hlaid : LaidAt table a (xs ++ ys)) : LaidAt table (a + xs.length) ys := by
  intro j s hj
  have hshift := hlaid (xs.length + j) s
    (by rw [List.getElem?_append_right (Nat.le_add_right _ _), Nat.add_sub_cancel_left, hj])
  rwa [← Nat.add_assoc] at hshift

/-- The first shape is where they begin. -/
theorem head (hlaid : LaidAt table a xs) (hs : xs.head? = some s) : table[a]? = some s := by
  rw [List.head?_eq_getElem?] at hs
  exact hlaid 0 s hs

theorem tail (hlaid : LaidAt table a (s :: xs)) : LaidAt table (a + 1) xs := by
  have hsplit : LaidAt table a ([s] ++ xs) := hlaid
  exact hsplit.right

/-- A part of a table, together with the shape that comes after it. -/
theorem upTo (hlaid : LaidAt table a (xs ++ ys)) (hs : ys.head? = some s) :
    LaidAt table a (xs ++ [s]) := by
  obtain ⟨rest, rfl⟩ : ∃ rest, ys = s :: rest := List.head?_eq_some_iff.1 hs
  have hsplit : xs ++ s :: rest = (xs ++ [s]) ++ rest := by simp
  exact left (hsplit ▸ hlaid)

/-- The last shape of one part and the first one of the next. -/
theorem upToPair {t : Shape} (hlaid : LaidAt table a (xs ++ s :: ys)) (ht : ys.head? = some t) :
    LaidAt table a (xs ++ [s, t]) := by
  have hsplit (zs : List Shape) : xs ++ s :: zs = (xs ++ [s]) ++ zs := by simp
  rw [hsplit] at hlaid ⊢
  exact hlaid.upTo ht

theorem pair {t : Shape} (hlaid : LaidAt table a (s :: ys)) (ht : ys.head? = some t) :
    LaidAt table a [s, t] := by
  have hsplit : LaidAt table a ([] ++ s :: ys) := hlaid
  exact hsplit.upToPair ht

end LaidAt

/-! ## The table of a tree fits its code -/

section Generated

open ScriptHost.Script.Function

variable {F : Function} {table : List Shape} {params : List String}

/-- A constant pushes one operand. -/
theorem fits_constant {f : Function} {s : Shape} {v : Value}
    (hF : Extends (f.emitConstant v) F)
    (hlaid : LaidAt table f.code.size [s, s.grown 1]) :
    FitsBetween F table f.code.size (f.code.size + 1) := by
  rcases f.getElem?_addConstant v with ⟨c, hc, _⟩
  have hop := hF.code (getElem?_code_emit (f.addConstant v).1 (.const (f.addConstant v).2))
  rw [code_addConstant] at hop
  have hpool := hF.constants ((extends_emit _ _).constants hc)
  exact .single (hlaid.head rfl) hop ⟨⟨c, hpool⟩, hlaid.tail.head rfl⟩

/-- A callee waits for its arguments. -/
theorem fits_callee {f : Function} {s : Shape} {y : String}
    (hF : Extends (f.emitCallee y) F)
    (hlaid : LaidAt table f.code.size [s, s.opened]) :
    FitsBetween F table f.code.size (f.code.size + 1) := by
  have hop := hF.code (getElem?_code_emit (f.addName y).1 (.loadFunc (f.addName y).2))
  rw [code_addName] at hop
  have hpool := hF.names ((extends_emit _ _).names (f.getElem?_addName y))
  exact .single (hlaid.head rfl) hop ⟨⟨y, hpool⟩, hlaid.tail.head rfl⟩

/-- A local is one of the parameters. -/
theorem slot_lt_paramCount {y : String} {slot : Nat} (hparams : params.length = F.paramCount)
    (hslot : params.idxOf? y = some slot) : slot < F.paramCount := by
  rw [← hparams]
  exact (List.findIdx?_eq_some_iff_getElem.1 hslot).1

/-- A name that is read pushes one operand. -/
theorem fits_load {f : Function} {s : Shape} {y : String}
    (hparams : params.length = F.paramCount) (hF : Extends (f.emitLoad params y) F)
    (hlaid : LaidAt table f.code.size [s, s.grown 1]) :
    FitsBetween F table f.code.size (f.code.size + 1) := by
  unfold emitLoad at hF
  split at hF
  · next slot hslot =>
      have hop := hF.code (getElem?_code_emit f (.loadLocal slot))
      exact .single (hlaid.head rfl) hop
        ⟨slot_lt_paramCount hparams hslot, hlaid.tail.head rfl⟩
  · have hop := hF.code (getElem?_code_emit (f.addName y).1 (.loadGlobal (f.addName y).2))
    rw [code_addName] at hop
    have hpool := hF.names ((extends_emit _ _).names (f.getElem?_addName y))
    exact .single (hlaid.head rfl) hop ⟨⟨y, hpool⟩, hlaid.tail.head rfl⟩

/-- A name that is written takes one. -/
theorem fits_store {f : Function} {s : Shape} {y : String}
    (hparams : params.length = F.paramCount) (hF : Extends (f.emitStore params y) F)
    (hlaid : LaidAt table f.code.size [s.grown 1, s]) :
    FitsBetween F table f.code.size (f.code.size + 1) := by
  unfold emitStore at hF
  split at hF
  · next slot hslot =>
      have hop := hF.code (getElem?_code_emit f (.storeLocal slot))
      exact .single (hlaid.head rfl) hop
        ⟨slot_lt_paramCount hparams hslot, s, rfl, hlaid.tail.head rfl⟩
  · have hop := hF.code (getElem?_code_emit (f.addName y).1 (.storeGlobal (f.addName y).2))
    rw [code_addName] at hop
    have hpool := hF.names ((extends_emit _ _).names (f.getElem?_addName y))
    exact .single (hlaid.head rfl) hop ⟨⟨y, hpool⟩, s, rfl, hlaid.tail.head rfl⟩

mutual

/-- By recursion on the tree: an expression pushes one operand. -/
theorem fits_expr (hparams : params.length = F.paramCount) (f : Function) (s : Shape) :
    (e : Expr) → Extends (f.emitExpr params e) F →
      LaidAt table f.code.size (e.shapes s ++ [s.grown 1]) →
      FitsBetween F table f.code.size (f.code.size + e.size)
  | .literal v => by
      intro hF hlaid
      rw [emitExpr] at hF
      exact fits_constant hF hlaid
  | .name y => by
      intro hF hlaid
      rw [emitExpr] at hF
      exact fits_load hparams hF hlaid
  | .prefixed op e => by
      intro hF hlaid
      rw [emitExpr] at hF
      rw [Expr.shapes] at hlaid
      have hoperand := fits_expr hparams f s e ((extends_emit _ _).trans hF) hlaid.left
      have hop := hF.code (getElem?_code_emit (f.emitExpr params e) (.prefixed op))
      rw [size_emitExpr] at hop
      have hafter := (List.append_assoc _ _ _ ▸ hlaid).right
      rw [length_shapes] at hafter
      exact hoperand.append
        (.single (hafter.head rfl) hop ⟨s, rfl, hafter.tail.head rfl⟩)
  | .binary op l r => by
      intro hF hlaid
      rw [emitExpr] at hF
      rw [Expr.shapes, List.append_assoc, List.append_assoc] at hlaid
      have hboth := (extends_emit _ _).trans hF
      have hleft := fits_expr hparams f s l ((extends_emitExpr params _ r).trans hboth)
        (hlaid.upTo (head?_shapes _ _ r))
      have hrest := hlaid.right
      rw [length_shapes, ← size_emitExpr params f l] at hrest
      -- the right operand is begun with the left value on top
      have hright := fits_expr hparams (f.emitExpr params l) (s.grown 1) r hboth
        (hrest.upTo rfl)
      have hop := hF.code
        (getElem?_code_emit ((f.emitExpr params l).emitExpr params r) (.binary op))
      have hafter := hrest.right
      rw [length_shapes, ← size_emitExpr params _ r] at hafter
      have hlast := FitsBetween.single (hafter.head rfl) hop ⟨s, rfl, hafter.tail.head rfl⟩
      rw [size_emitExpr] at hright
      rw [size_emitExpr, size_emitExpr] at hlast
      have hsize : f.code.size + (Expr.binary op l r).size =
          f.code.size + l.size + r.size + 1 := by
        simp only [Expr.size, Nat.add_assoc]
      rw [hsize]
      exact (hleft.append hright).append hlast
  | .call y args => by
      intro hF hlaid
      rw [emitExpr] at hF
      rw [Expr.shapes, List.cons_append, List.append_assoc] at hlaid
      have hargs := (extends_emit _ _).trans hF
      have hcallee := fits_callee ((extends_emitExprs params _ args).trans hargs)
        (hlaid.pair (head?_shapesAll _ _ args))
      have hrest := hlaid.tail
      rw [← size_emitCallee f y] at hrest
      -- the arguments are begun with nothing on top yet, but with one more callee waiting
      have harguments := fits_exprs hparams (f.emitCallee y) s.opened args hargs
        (hrest.upTo rfl)
      have hop := hF.code
        (getElem?_code_emit ((f.emitCallee y).emitExprs params args) (.call args.length))
      have hafter := hrest.right
      rw [length_shapesAll, ← size_emitExprs params _ args] at hafter
      have hlast := FitsBetween.single (hafter.head rfl) hop ⟨s, rfl, hafter.tail.head rfl⟩
      rw [size_emitCallee] at harguments
      rw [size_emitExprs, size_emitCallee] at hlast
      have hsize : f.code.size + (Expr.call y args).size =
          f.code.size + 1 + Expr.sizes args + 1 := by
        simp only [Expr.size]
        omega
      rw [hsize]
      exact (hcallee.append harguments).append hlast

theorem fits_exprs (hparams : params.length = F.paramCount) (f : Function) (s : Shape) :
    (es : List Expr) → Extends (f.emitExprs params es) F →
      LaidAt table f.code.size (Expr.shapesAll s es ++ [s.grown es.length]) →
      FitsBetween F table f.code.size (f.code.size + Expr.sizes es)
  | [] => by
      intro _ _
      exact .nil
  | e :: rest => by
      intro hF hlaid
      rw [emitExprs] at hF
      have hcount : s.grown (e :: rest).length = (s.grown 1).grown rest.length := by
        rw [Shape.grown_grown, List.length_cons, Nat.add_comm]
      rw [Expr.shapesAll, List.append_assoc, hcount] at hlaid
      have hfirst := fits_expr hparams f s e ((extends_emitExprs params _ rest).trans hF)
        (hlaid.upTo (head?_shapesAll _ _ rest))
      have hothers := hlaid.right
      rw [length_shapes, ← size_emitExpr params f e] at hothers
      have hrest := fits_exprs hparams (f.emitExpr params e) (s.grown 1) rest hF hothers
      rw [size_emitExpr] at hrest
      rw [Expr.sizes, ← Nat.add_assoc]
      exact hfirst.append hrest

end

/-- A condition and the jump that it decides. -/
theorem fits_test (hparams : params.length = F.paramCount) {f : Function} {test : Expr}
    {target : Nat} (hF : Extends ((f.emitExpr params test).emit (.jumpIfFalse target)) F)
    (hlaid : LaidAt table f.code.size
      (test.shapes Shape.empty ++ [Shape.empty.grown 1, Shape.empty]))
    (htarget : table[target]? = some Shape.empty) :
    FitsBetween F table f.code.size (f.code.size + test.size + 1) := by
  have htest := fits_expr hparams f Shape.empty test ((extends_emit _ _).trans hF)
    (hlaid.upTo rfl)
  have hop := hF.code (getElem?_code_emit (f.emitExpr params test) (.jumpIfFalse target))
  have hafter := hlaid.right
  rw [length_shapes, ← size_emitExpr params f test] at hafter
  have hjump := FitsBetween.single (hafter.head rfl) hop
    ⟨Shape.empty, rfl, hafter.tail.head rfl, htarget⟩
  rw [size_emitExpr] at hjump
  exact htest.append hjump

/-- An expression and one instruction that takes its value. -/
theorem fits_consumer (hparams : params.length = F.paramCount) {f g : Function} {e : Expr}
    (hg : Extends (f.emitExpr params e) g) (hF : Extends g F)
    (hlaid : LaidAt table f.code.size
      (e.shapes Shape.empty ++ [Shape.empty.grown 1, Shape.empty]))
    (hlast : LaidAt table (f.emitExpr params e).code.size [Shape.empty.grown 1, Shape.empty] →
      FitsBetween F table (f.emitExpr params e).code.size
        ((f.emitExpr params e).code.size + 1)) :
    FitsBetween F table f.code.size (f.code.size + (e.size + 1)) := by
  have hvalue := fits_expr hparams f Shape.empty e (hg.trans hF) (hlaid.upTo rfl)
  have hafter := hlaid.right
  rw [length_shapes, ← size_emitExpr params f e] at hafter
  have htaken := hlast hafter
  rw [size_emitExpr] at htaken
  rw [← Nat.add_assoc]
  exact hvalue.append htaken

mutual

/-- By recursion on the tree: a statement leaves the shape as it was. -/
theorem fits_stmt (hparams : params.length = F.paramCount) (f : Function) :
    (s : Stmt) → Extends (f.emitStmt params s) F →
      LaidAt table f.code.size (s.shapes ++ [Shape.empty]) →
      FitsBetween F table f.code.size (f.code.size + s.size)
  | .func _ _ _ => by
      intro _ _
      exact .nil
  | .ret none => by
      intro hF hlaid
      rw [emitStmt] at hF
      have hnull := fits_constant ((extends_emit _ _).trans hF) (hlaid.pair rfl)
      have hop := hF.code (getElem?_code_emit (f.emitConstant .null) .ret)
      rw [size_emitConstant] at hop
      exact hnull.append (.single (hlaid.tail.head rfl) hop rfl)
  | .ret (some e) => by
      intro hF hlaid
      rw [emitStmt] at hF
      rw [Stmt.shapes, List.append_assoc] at hlaid
      refine fits_consumer hparams (extends_emit _ .ret) hF hlaid ?_
      intro hafter
      exact .single (hafter.head rfl) (hF.code (getElem?_code_emit _ .ret)) rfl
  | .when test body => by
      intro hF hlaid
      rw [emitStmt] at hF
      rw [Stmt.shapes, List.append_assoc] at hlaid
      have hrest := hlaid.right
      rw [length_shapes, ← size_emitExpr params f test] at hrest
      -- the jump leads behind the body, where nothing is on top
      have hend := hrest.tail.right.head rfl
      rw [length_stmtShapesAll] at hend
      have htest := fits_test hparams ((extends_emitBlock params _ body).trans hF)
        (hlaid.upToPair (head?_stmtShapesAll _ rfl body)) hend
      have hbody := fits_block hparams _ body hF (by rw [size_code_emit]; exact hrest.tail)
      rw [size_code_emit, size_emitExpr] at hbody
      have hsize : f.code.size + (Stmt.when test body).size =
          f.code.size + test.size + 1 + Stmt.sizes body := by
        simp only [Stmt.size, Nat.add_assoc]
      rw [hsize]
      exact htest.append hbody
  | .choose test body otherwise => by
      intro hF hlaid
      rw [emitStmt] at hF
      rw [Stmt.shapes, List.append_assoc, List.cons_append, List.append_assoc] at hlaid
      have hrest := hlaid.right
      rw [length_shapes, ← size_emitExpr params f test] at hrest
      -- the jump after the body has a shape of its own, and the alternative begins behind it
      have hsecond := hrest.tail.right
      rw [length_stmtShapesAll] at hsecond
      have hend := hsecond.tail.right.head rfl
      rw [length_stmtShapesAll] at hend
      have hbodyF := ((extends_emit _ _).trans (extends_emitBlock params _ otherwise)).trans hF
      have htest := fits_test hparams ((extends_emitBlock params _ body).trans hbodyF)
        (hlaid.upToPair (head?_stmtShapesAll _ rfl body))
        (hsecond.tail.head (head?_stmtShapesAll _ rfl otherwise))
      have hbody := fits_block hparams _ body hbodyF
        (by rw [size_code_emit]; exact hrest.tail.upTo rfl)
      have hop := hF.code ((extends_emitBlock params _ otherwise).code (getElem?_code_emit _ _))
      rw [size_emitBlock, size_code_emit] at hop
      have hjump := FitsBetween.single (hsecond.head rfl) hop hend
      have hother := fits_block hparams _ otherwise hF
        (by rw [size_code_emit, size_emitBlock, size_code_emit]; exact hsecond.tail)
      simp only [size_code_emit, size_emitBlock, size_emitExpr] at hbody hjump hother
      have hsize : f.code.size + (Stmt.choose test body otherwise).size =
          f.code.size + test.size + 1 + Stmt.sizes body + 1 + Stmt.sizes otherwise := by
        simp only [Stmt.size, Nat.add_assoc]
      rw [hsize]
      exact ((htest.append hbody).append hjump).append hother
  | .loop test body => by
      intro hF hlaid
      rw [emitStmt] at hF
      rw [Stmt.shapes, List.append_assoc] at hlaid
      -- the jump back finds the shape in which the test was begun
      have hstart := hlaid.head (head?_shapes _ _ test)
      rw [List.cons_append, List.append_assoc] at hlaid
      have hrest := hlaid.right
      rw [length_shapes, ← size_emitExpr params f test] at hrest
      have hback := hrest.tail.right
      rw [length_stmtShapesAll] at hback
      have hbodyF := (extends_emit _ _).trans hF
      have htest := fits_test hparams ((extends_emitBlock params _ body).trans hbodyF)
        (hlaid.upToPair (head?_stmtShapesAll _ rfl body)) (hback.tail.head rfl)
      have hbody := fits_block hparams _ body hbodyF
        (by rw [size_code_emit]; exact hrest.tail.upTo rfl)
      have hop := hF.code (getElem?_code_emit _ _)
      rw [size_emitBlock, size_code_emit] at hop
      have hjump := FitsBetween.single (hback.head rfl) hop hstart
      simp only [size_code_emit, size_emitExpr] at hbody hjump
      have hsize : f.code.size + (Stmt.loop test body).size =
          f.code.size + test.size + 1 + Stmt.sizes body + 1 := by
        simp only [Stmt.size, Nat.add_assoc]
      rw [hsize]
      exact (htest.append hbody).append hjump
  | .assign y e => by
      intro hF hlaid
      rw [emitStmt] at hF
      rw [Stmt.shapes, List.append_assoc] at hlaid
      exact fits_consumer hparams (extends_emitStore params _ y) hF hlaid
        (fits_store hparams hF)
  | .eval e => by
      intro hF hlaid
      rw [emitStmt] at hF
      rw [Stmt.shapes, List.append_assoc] at hlaid
      refine fits_consumer hparams (extends_emit _ .pop) hF hlaid ?_
      intro hafter
      exact .single (hafter.head rfl) (hF.code (getElem?_code_emit _ .pop))
        ⟨Shape.empty, rfl, hafter.tail.head rfl⟩

theorem fits_block (hparams : params.length = F.paramCount) (f : Function) :
    (b : Block) → Extends (f.emitBlock params b) F →
      LaidAt table f.code.size (Stmt.shapesAll b ++ [Shape.empty]) →
      FitsBetween F table f.code.size (f.code.size + Stmt.sizes b)
  | [] => by
      intro _ _
      exact .nil
  | s :: rest => by
      intro hF hlaid
      rw [emitBlock] at hF
      rw [Stmt.shapesAll, List.append_assoc] at hlaid
      have hfirst := fits_stmt hparams f s ((extends_emitBlock params _ rest).trans hF)
        (hlaid.upTo (head?_stmtShapesAll _ rfl rest))
      have hothers := hlaid.right
      rw [length_stmtShapes, ← size_emitStmt params f s] at hothers
      have hrest := fits_block hparams (f.emitStmt params s) rest hF hothers
      rw [size_emitStmt] at hrest
      rw [Stmt.sizes, ← Nat.add_assoc]
      exact hfirst.append hrest

end

theorem laidAt_self (table : List Shape) : LaidAt table 0 table := by
  intro j s hj
  rwa [Nat.zero_add]

theorem verified_ofBody (name : String) (params : List String) (body : Block) :
    Verified (ofBody name params body) (bodyShapes body) := by
  let f := (new name params.length).emitBlock params body
  have hempty : (new name params.length).code.size = 0 := rfl
  have hsize : f.code.size = Stmt.sizes body := by
    rw [size_emitBlock, hempty, Nat.zero_add]
  have hF : Extends f.finish (ofBody name params body) := Extends.refl _
  have hparams : params.length = (ofBody name params body).paramCount :=
    (paramCount_ofBody params name body).symm
  have hlaid : LaidAt (bodyShapes body) (new name params.length).code.size (bodyShapes body) :=
    laidAt_self _
  have hbody := fits_block hparams _ body ((extends_finish f).trans hF) (hlaid.upTo rfl)
  have hend := hlaid.right
  rw [hempty, Nat.zero_add] at hbody
  rw [length_stmtShapesAll, hempty, Nat.zero_add, ← hsize] at hend
  have hnull := fits_constant ((extends_emit _ _).trans hF) hend
  have hop := hF.code (getElem?_code_emit (f.emitConstant .null) .ret)
  rw [size_emitConstant] at hop
  have hret := FitsBetween.single (hend.tail.head rfl) hop rfl
  rw [hsize] at hnull hret
  -- body, null and return leave no instruction out
  have hall := (hbody.append hnull).append hret
  constructor
  · exact hlaid.head (head?_stmtShapesAll _ rfl body)
  · intro i s hi
    have hlt : i < (bodyShapes body).length := (List.getElem?_eq_some_iff.1 hi).1
    have hlength : (bodyShapes body).length = Stmt.sizes body + 2 := by
      simp [bodyShapes]
    refine hall i (Nat.zero_le i) ?_ s hi
    omega

end Generated

/-- Functions that the generator makes from a tree, top-level code of a unit included. -/
def Function.IsCompiled (f : Function) : Prop :=
  ∃ limit source compiled, compile limit source = .ok compiled ∧
    (f = compiled.main ∨ f ∈ compiled.functions)

/-- Compiled functions have a table that fits. -/
theorem Function.IsCompiled.verified {f : Function} (hf : f.IsCompiled) :
    ∃ table, Verified f table := by
  rcases hf with ⟨limit, source, compiled, hcompile, hmem⟩
  rcases compile_eq_ok hcompile with ⟨block, _, rfl⟩
  rcases hmem with rfl | hmem
  · exact ⟨_, verified_ofBody mainName [] block⟩
  · rcases List.mem_map.1 hmem with ⟨d, _, rfl⟩
    exact ⟨_, verified_ofBody d.name d.params d.body⟩

end Script
end ScriptHost
