import ScriptHost.Proofs.Recognition
import ScriptHost.Proofs.Shapes

/-!
# Calls that are open at the same time

While the arguments of a call are evaluated its callee waits, and calls among the arguments make
further ones wait. How many can wait at once is a property of the tree. The shapes of compiled code
do not have more of them, and a tree that was read within a limit of nesting does not have more than
the limit: each further call lies in an argument, which takes one level.
-/

namespace ScriptHost
namespace Script

/-! ## Trees -/

mutual

/-- The greatest number of calls of an expression that are open at the same time. -/
def Expr.openCalls : Expr → Nat
  | .literal _ => 0
  | .name _ => 0
  | .prefixed _ e => e.openCalls
  | .binary _ l r => max l.openCalls r.openCalls
  | .call _ args => Expr.openCallsAll args + 1

def Expr.openCallsAll : List Expr → Nat
  | [] => 0
  | e :: rest => max e.openCalls (Expr.openCallsAll rest)

end

mutual

/-- The greatest such number among the expressions of a statement, declared functions included. -/
def Stmt.openCalls : Stmt → Nat
  | .func _ _ body => Stmt.openCallsAll body
  | .ret none => 0
  | .ret (some e) => e.openCalls
  | .when test body => max test.openCalls (Stmt.openCallsAll body)
  | .choose test body otherwise =>
      max test.openCalls (max (Stmt.openCallsAll body) (Stmt.openCallsAll otherwise))
  | .loop test body => max test.openCalls (Stmt.openCallsAll body)
  | .assign _ e => e.openCalls
  | .eval e => e.openCalls

def Stmt.openCallsAll : Block → Nat
  | [] => 0
  | s :: rest => max s.openCalls (Stmt.openCallsAll rest)

end

mutual

/-- A declaration has no more open calls than the statement that it is in. -/
theorem openCalls_le_of_declared {d : FuncDecl} :
    (s : Stmt) → d ∈ s.declared → Stmt.openCallsAll d.body ≤ s.openCalls
  | .func name params body => by
      intro hd
      rw [Stmt.declared, List.mem_singleton] at hd
      subst hd
      exact Nat.le_refl _
  | .ret _ => nofun
  | .when test body => by
      intro hd
      have hbody := openCalls_le_of_declaredIn body hd
      rw [Stmt.openCalls]
      omega
  | .choose test body otherwise => by
      intro hd
      rw [Stmt.openCalls]
      rcases List.mem_append.1 hd with hd | hd
      · have hbody := openCalls_le_of_declaredIn body hd
        omega
      · have hother := openCalls_le_of_declaredIn otherwise hd
        omega
  | .loop test body => by
      intro hd
      have hbody := openCalls_le_of_declaredIn body hd
      rw [Stmt.openCalls]
      omega
  | .assign _ _ => nofun
  | .eval _ => nofun

theorem openCalls_le_of_declaredIn {d : FuncDecl} :
    (b : Block) → d ∈ declaredIn b → Stmt.openCallsAll d.body ≤ Stmt.openCallsAll b
  | [] => nofun
  | s :: rest => by
      intro hd
      rw [Stmt.openCallsAll]
      rcases List.mem_append.1 hd with hd | hd
      · have hfirst := openCalls_le_of_declared s hd
        omega
      · have hothers := openCalls_le_of_declaredIn rest hd
        omega

end

/-! ## Shapes -/

mutual

/-- In the code of an expression at most its open calls wait above those that waited before. -/
theorem waiting_le_of_shapes (s : Shape) {t : Shape} :
    (e : Expr) → t ∈ e.shapes s → t.waiting.length ≤ s.waiting.length + e.openCalls
  | .literal _ => by
      intro ht
      cases List.mem_singleton.1 ht
      exact Nat.le_add_right _ _
  | .name _ => by
      intro ht
      cases List.mem_singleton.1 ht
      exact Nat.le_add_right _ _
  | .prefixed _ e => by
      intro ht
      rw [Expr.openCalls]
      rcases List.mem_append.1 ht with ht | ht
      · exact waiting_le_of_shapes s e ht
      · cases List.mem_singleton.1 ht
        exact Nat.le_add_right _ _
  -- The right operand starts with the left value on the stack, but with no more calls open.
  | .binary _ l r => by
      intro ht
      rw [Expr.openCalls]
      rcases List.mem_append.1 ht with ht | ht
      · have hleft := waiting_le_of_shapes s l ht
        omega
      · rcases List.mem_append.1 ht with ht | ht
        · have hright := waiting_le_of_shapes (s.grown 1) r ht
          rw [Shape.waiting_grown] at hright
          omega
        · cases List.mem_singleton.1 ht
          exact Nat.le_add_right _ _
  -- Loading the callee opens a call, which stays open while the arguments are computed.
  | .call _ args => by
      intro ht
      have hopened : s.opened.waiting.length = s.waiting.length + 1 := rfl
      rw [Expr.openCalls]
      rcases List.mem_cons.1 ht with rfl | ht
      · exact Nat.le_add_right _ _
      · rcases List.mem_append.1 ht with ht | ht
        · have hargs := waiting_le_of_shapesAll s.opened args ht
          omega
        · cases List.mem_singleton.1 ht
          rw [Shape.waiting_grown]
          omega

/-- While one argument is evaluated, the others wait for nothing. -/
theorem waiting_le_of_shapesAll (s : Shape) {t : Shape} :
    (es : List Expr) → t ∈ Expr.shapesAll s es →
      t.waiting.length ≤ s.waiting.length + Expr.openCallsAll es
  | [] => nofun
  | e :: rest => by
      intro ht
      rw [Expr.openCallsAll]
      rcases List.mem_append.1 ht with ht | ht
      · have hfirst := waiting_le_of_shapes s e ht
        omega
      · have hothers := waiting_le_of_shapesAll (s.grown 1) rest ht
        rw [Shape.waiting_grown] at hothers
        omega

end

/-- An expression in a statement is begun with nothing waiting, and what follows it has nothing
waiting either. -/
theorem waiting_le_of_test {e : Expr} {tail : List Shape} {n : Nat} {t : Shape}
    (ht : t ∈ e.shapes Shape.empty ++ tail) (hle : e.openCalls ≤ n)
    (htail : ∀ u ∈ tail, u.waiting.length ≤ n) : t.waiting.length ≤ n := by
  rcases List.mem_append.1 ht with ht | ht
  · have htest := waiting_le_of_shapes Shape.empty e ht
    have hempty : Shape.empty.waiting.length = 0 := rfl
    omega
  · exact htail t ht

mutual

/-- Nothing waits between two statements. -/
theorem waiting_le_of_stmtShapes {t : Shape} :
    (s : Stmt) → t ∈ s.shapes → t.waiting.length ≤ s.openCalls
  -- The code of a function is not part of the code around it.
  | .func _ _ _ => nofun
  | .ret none => by
      intro ht
      rcases List.mem_cons.1 ht with rfl | ht
      · exact Nat.zero_le _
      · cases List.mem_singleton.1 ht
        exact Nat.zero_le _
  | .ret (some e) => by
      intro ht
      refine waiting_le_of_test ht (Nat.le_refl _) fun u hu => ?_
      cases List.mem_singleton.1 hu
      exact Nat.zero_le _
  | .when test body => by
      intro ht
      refine waiting_le_of_test ht (Nat.le_max_left _ _) fun u hu => ?_
      rcases List.mem_cons.1 hu with rfl | hu
      · exact Nat.zero_le _
      · exact Nat.le_trans (waiting_le_of_stmtShapesAll body hu) (Nat.le_max_right _ _)
  -- A statement starts with nothing open, so its parts do not add up: the largest of them is the
  -- bound.
  | .choose test body otherwise => by
      intro ht
      rw [Stmt.openCalls]
      refine waiting_le_of_test ht (Nat.le_max_left _ _) fun u hu => ?_
      rcases List.mem_cons.1 hu with rfl | hu
      · exact Nat.zero_le _
      · rcases List.mem_append.1 hu with hu | hu
        · have hbody := waiting_le_of_stmtShapesAll body hu
          omega
        · rcases List.mem_cons.1 hu with rfl | hu
          · exact Nat.zero_le _
          · have hother := waiting_le_of_stmtShapesAll otherwise hu
            omega
  | .loop test body => by
      intro ht
      refine waiting_le_of_test ht (Nat.le_max_left _ _) fun u hu => ?_
      rcases List.mem_cons.1 hu with rfl | hu
      · exact Nat.zero_le _
      · rcases List.mem_append.1 hu with hu | hu
        · exact Nat.le_trans (waiting_le_of_stmtShapesAll body hu) (Nat.le_max_right _ _)
        · cases List.mem_singleton.1 hu
          exact Nat.zero_le _
  | .assign _ e => by
      intro ht
      refine waiting_le_of_test ht (Nat.le_refl _) fun u hu => ?_
      cases List.mem_singleton.1 hu
      exact Nat.zero_le _
  | .eval e => by
      intro ht
      refine waiting_le_of_test ht (Nat.le_refl _) fun u hu => ?_
      cases List.mem_singleton.1 hu
      exact Nat.zero_le _

theorem waiting_le_of_stmtShapesAll {t : Shape} :
    (b : Block) → t ∈ Stmt.shapesAll b → t.waiting.length ≤ Stmt.openCallsAll b
  | [] => nofun
  | s :: rest => by
      intro ht
      rcases List.mem_append.1 ht with ht | ht
      · exact Nat.le_trans (waiting_le_of_stmtShapes s ht) (Nat.le_max_left _ _)
      · exact Nat.le_trans (waiting_le_of_stmtShapesAll rest ht) (Nat.le_max_right _ _)

end

theorem waiting_le_of_bodyShapes {body : Block} {t : Shape} (ht : t ∈ bodyShapes body) :
    t.waiting.length ≤ Stmt.openCallsAll body := by
  rcases List.mem_append.1 ht with ht | ht
  · exact waiting_le_of_stmtShapesAll body ht
  · rcases List.mem_cons.1 ht with rfl | ht
    · exact Nat.zero_le _
    · cases List.mem_singleton.1 ht
      exact Nat.zero_le _

/-! ## Trees that were read within a limit -/

namespace Grammar

mutual

/-- By induction on the grammar: every level of nesting opens one call at most. -/
theorem Operand.openCalls_le {d : Nat} {ts rest : List Token} {e : Expr} :
    Operand d ts e rest → e.openCalls ≤ d + 1
  | .literal _ => Nat.zero_le _
  | .name _ => Nat.zero_le _
  -- one call for the operand itself, the others lie in its arguments
  | .call h => Nat.succ_le_succ h.openCalls_le
  | .parentheses h => Nat.le_succ_of_le h.openCalls_le
  | .not h => Nat.le_succ_of_le h.openCalls_le
  | .neg h => Nat.le_succ_of_le h.openCalls_le

theorem Part.openCalls_le {p : Precedence} {d : Nat} {ts rest : List Token} {e : Expr} :
    Part p d ts e rest → e.openCalls ≤ d + 1
  | .factor h => h.openCalls_le
  | .term h => h.openCalls_le
  | .comparison h => h.openCalls_le
  | .equality h => h.openCalls_le

theorem Joined.openCalls_le {p : Precedence} {d : Nat} {ts rest : List Token} {e : Expr} :
    Joined p d ts e rest → e.openCalls ≤ d + 1
  | .parts hfirst hfurther => hfurther.openCalls_le hfirst.openCalls_le

theorem Further.openCalls_le {p : Precedence} {d : Nat} {ts rest : List Token} {left e : Expr} :
    Further p d left ts e rest → left.openCalls ≤ d + 1 → e.openCalls ≤ d + 1
  | .done _, hleft => hleft
  | .more _ hright hfurther, hleft =>
      hfurther.openCalls_le (Nat.max_le.2 ⟨hleft, hright.openCalls_le⟩)

theorem Expression.openCalls_le {d : Nat} {ts rest : List Token} {e : Expr} :
    Expression d ts e rest → e.openCalls ≤ d
  | .nested h => h.openCalls_le

theorem Arguments.openCalls_le {d : Nat} {ts rest : List Token} {args : List Expr} :
    Arguments d ts args rest → Expr.openCallsAll args ≤ d
  | .none => Nat.zero_le _
  | .some h => h.openCalls_le

theorem ArgumentList.openCalls_le {d : Nat} {ts rest : List Token} {args : List Expr} :
    ArgumentList d ts args rest → Expr.openCallsAll args ≤ d
  | .last h _ => Nat.max_le.2 ⟨h.openCalls_le, Nat.zero_le _⟩
  | .more h hrest => Nat.max_le.2 ⟨h.openCalls_le, hrest.openCalls_le⟩

end

mutual

theorem Statement.openCalls_le {inFunction : Bool} {d : Nat} {ts rest : List Token} {s : Stmt} :
    Statement inFunction d ts s rest → s.openCalls ≤ d
  | .plain h _ => h.openCalls_le
  | .ended h => h.openCalls_le

theorem Bare.openCalls_le {inFunction : Bool} {d : Nat} {ts rest : List Token} {s : Stmt} :
    Bare inFunction d ts s rest → s.openCalls ≤ d
  | .func _ _ hbody => hbody.openCalls_le
  | .ret _ => Nat.zero_le _
  | .value _ h => h.openCalls_le
  | .conditional h => h.openCalls_le
  | .loop htest hbody => Nat.max_le.2 ⟨htest.openCalls_le, hbody.openCalls_le⟩
  | .assign h => h.openCalls_le
  | .eval _ h => h.openCalls_le

theorem Conditional.openCalls_le {inFunction : Bool} {d : Nat} {ts rest : List Token} {s : Stmt} :
    Conditional inFunction d ts s rest → s.openCalls ≤ d
  | .when htest hbody _ => Nat.max_le.2 ⟨htest.openCalls_le, hbody.openCalls_le⟩
  | .choose htest hbody hother =>
      Nat.max_le.2 ⟨htest.openCalls_le, Nat.max_le.2 ⟨hbody.openCalls_le, hother.openCalls_le⟩⟩

theorem Alternative.openCalls_le {inFunction : Bool} {d : Nat} {ts rest : List Token}
    {body : List Stmt} : Alternative inFunction d ts body rest → Stmt.openCallsAll body ≤ d
  | .block h => h.openCalls_le
  | .conditional h => Nat.max_le.2 ⟨Nat.le_succ_of_le h.openCalls_le, Nat.zero_le _⟩

theorem Block.openCalls_le {inFunction : Bool} {d : Nat} {ts rest : List Token}
    {body : List Stmt} : Block inFunction d ts body rest → Stmt.openCallsAll body ≤ d
  | .braces h => Nat.le_succ_of_le h.openCalls_le

theorem Statements.openCalls_le {inFunction : Bool} {d : Nat} {ts rest : List Token}
    {body : List Stmt} : Statements inFunction d ts body rest → Stmt.openCallsAll body ≤ d
  | .nil => Nat.zero_le _
  | .cons h hrest => Nat.max_le.2 ⟨h.openCalls_le, hrest.openCalls_le⟩

end

end Grammar

/-- No more calls are open at once than levels of nesting are allowed. -/
theorem openCalls_le_of_parse {limit : Nat} {source : String} {block : Block}
    (h : parse limit source = .ok block) : Stmt.openCallsAll block ≤ limit := by
  unfold parse at h
  cases htokens : tokenize source with
  | error e =>
      rw [htokens] at h
      cases h
  | ok located =>
      rw [htokens] at h
      exact ((parseTokens_eq_ok limit located block).1 h).openCalls_le

/-! ## Compiled functions -/

/-- Functions that the generator makes from a source within a limit of nesting. -/
def Function.IsCompiledWithin (limit : Nat) (f : Function) : Prop :=
  ∃ source compiled, compile limit source = .ok compiled ∧
    (f = compiled.main ∨ f ∈ compiled.functions)

/-- What is compiled has been read within the limit. -/
theorem isCompiledWithin_of_compile {limit : Nat} {source : String} {compiled : CompiledUnit}
    (h : compile limit source = .ok compiled) :
    compiled.main.IsCompiledWithin limit ∧ ∀ f ∈ compiled.functions, f.IsCompiledWithin limit :=
  ⟨⟨source, compiled, h, .inl rfl⟩, fun _ hf => ⟨source, compiled, h, .inr hf⟩⟩

namespace Function.IsCompiledWithin

variable {limit : Nat} {f : Function}

/-- The limit aside, it is compiled. -/
theorem isCompiled (h : f.IsCompiledWithin limit) : f.IsCompiled := by
  rcases h with ⟨source, compiled, hcompile, hmem⟩
  exact ⟨limit, source, compiled, hcompile, hmem⟩

/-- Such a function has a table in which never more callees wait than the limit allows. -/
theorem verified (h : f.IsCompiledWithin limit) :
    ∃ table, Verified f table ∧ ∀ t ∈ table, t.waiting.length ≤ limit := by
  rcases h with ⟨source, compiled, hcompile, hmem⟩
  rcases compile_eq_ok hcompile with ⟨block, hparse, rfl⟩
  have hblock := openCalls_le_of_parse hparse
  rcases hmem with rfl | hmem
  · exact ⟨_, verified_ofBody mainName [] block, fun t ht =>
      Nat.le_trans (waiting_le_of_bodyShapes ht) hblock⟩
  · rcases List.mem_map.1 hmem with ⟨d, hd, rfl⟩
    have hbody := openCalls_le_of_declaredIn block hd
    exact ⟨_, verified_ofBody d.name d.params d.body, fun t ht =>
      Nat.le_trans (waiting_le_of_bodyShapes ht) (Nat.le_trans hbody hblock)⟩

end Function.IsCompiledWithin

end Script
end ScriptHost
