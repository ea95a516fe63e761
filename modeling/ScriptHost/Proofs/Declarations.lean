import ScriptHost.Proofs.Recognition
import ScriptHost.Proofs.Units

/-!
# Where functions are declared

A declaration may stand behind any number of opening braces as long as they are those of
conditionals and loops; no declaration stands inside of a function. Loading a unit registers all of
them at once, before any test is evaluated, so that a declaration counts whether or not the branch
it stands in is taken, and running the unit registers no further ones.
-/

namespace ScriptHost
namespace Script

/-! ## Places -/

/-- The block is run as often as the statement says, if at all. -/
inductive Stmt.Guards : Stmt → Block → Prop
  | when {test body} : Guards (.when test body) body
  | chosen {test body otherwise} : Guards (.choose test body otherwise) body
  | otherwise {test body otherwise} : Guards (.choose test body otherwise) otherwise
  | loop {test body} : Guards (.loop test body) body

/-- The block declares the function outside of other functions and behind so many opening braces:
none if the declaration is itself a statement of the block. -/
inductive Stands (d : FuncDecl) : Nat → Block → Prop
  | top {block} : .func d.name d.params d.body ∈ block → Stands d 0 block
  | guarded {n block s inner} : s ∈ block → s.Guards inner → Stands d n inner →
      Stands d (n + 1) block

/-- The functions that the statements of a block declare themselves. -/
def atTop (block : Block) : List FuncDecl :=
  block.filterMap fun
    | .func name params body => some ⟨name, params, body⟩
    | _ => none

section Places

variable {d : FuncDecl} {block : Block} {s : Stmt}

/-- What stands in the rest of a block stands in the block. -/
theorem Stands.cons {n : Nat} (h : Stands d n block) (s : Stmt) : Stands d n (s :: block) := by
  cases h with
  | top hmem => exact .top (List.mem_cons_of_mem _ hmem)
  | guarded hmem hguards hinner => exact .guarded (List.mem_cons_of_mem _ hmem) hguards hinner

theorem Stands.of_guards {n : Nat} {inner : Block} (hguards : s.Guards inner)
    (h : Stands d n inner) (rest : Block) : Stands d (n + 1) (s :: rest) :=
  .guarded List.mem_cons_self hguards h

/-- A block declares what its statements declare. -/
theorem declared_subset (hs : s ∈ block) : s.declared ⊆ declaredIn block := by
  induction block with
  | nil => cases hs
  | cons first rest ih =>
      intro d hd
      rw [declaredIn, List.mem_append]
      rcases List.mem_cons.1 hs with rfl | hs
      · exact .inl hd
      · exact .inr (ih hs hd)

/-- A conditional or a loop declares what its blocks declare. -/
theorem Stmt.Guards.declaredIn_subset {inner : Block} (h : s.Guards inner) :
    declaredIn inner ⊆ s.declared := by
  cases h with
  | when => exact List.Subset.refl _
  | chosen => exact List.subset_append_left _ _
  | otherwise => exact List.subset_append_right _ _
  | loop => exact List.Subset.refl _

/-- Behind however many braces, a declaration is one of the block. -/
theorem Stands.mem_declaredIn {n : Nat} (h : Stands d n block) : d ∈ declaredIn block := by
  induction h with
  | top hmem => exact declared_subset hmem List.mem_cons_self
  | guarded hmem hguards _ ih => exact declared_subset hmem (hguards.declaredIn_subset ih)

mutual

/-- By recursion on the statement: a declaration stands somewhere. -/
theorem stands_of_declared :
    (s : Stmt) → d ∈ s.declared → ∀ rest, ∃ n, Stands d n (s :: rest)
  | .func name params body => fun hd rest => by
      cases List.mem_singleton.1 hd
      exact ⟨0, .top List.mem_cons_self⟩
  | .ret _ => nofun
  -- A statement that guards a block puts what is declared in it one level deeper.
  | .when test body => fun hd rest => by
      rcases stands_of_declaredIn body hd with ⟨n, h⟩
      exact ⟨n + 1, h.of_guards .when rest⟩
  | .choose test body otherwise => fun hd rest => by
      rcases List.mem_append.1 hd with hd | hd
      · rcases stands_of_declaredIn body hd with ⟨n, h⟩
        exact ⟨n + 1, h.of_guards .chosen rest⟩
      · rcases stands_of_declaredIn otherwise hd with ⟨n, h⟩
        exact ⟨n + 1, h.of_guards .otherwise rest⟩
  | .loop test body => fun hd rest => by
      rcases stands_of_declaredIn body hd with ⟨n, h⟩
      exact ⟨n + 1, h.of_guards .loop rest⟩
  | .assign _ _ => nofun
  | .eval _ => nofun

/-- By recursion on the block. -/
theorem stands_of_declaredIn : (block : Block) → d ∈ declaredIn block → ∃ n, Stands d n block
  | [] => nofun
  | s :: rest => fun hd => by
      rcases List.mem_append.1 hd with hd | hd
      · exact stands_of_declared s hd rest
      · rcases stands_of_declaredIn rest hd with ⟨n, h⟩
        exact ⟨n, h.cons s⟩

end

/-- What is declared in a block is what stands in it. -/
theorem mem_declaredIn_iff : d ∈ declaredIn block ↔ ∃ n, Stands d n block :=
  ⟨stands_of_declaredIn block, fun ⟨_, h⟩ => h.mem_declaredIn⟩

/-- At the top is what no brace stands before. -/
theorem mem_atTop_iff : d ∈ atTop block ↔ Stands d 0 block := by
  constructor
  · intro h
    rcases List.mem_filterMap.1 h with ⟨s, hs, hd⟩
    cases s with
    | func name params body =>
        cases hd
        exact .top hs
    | _ => cases hd
  · rintro (hmem | _)
    exact List.mem_filterMap.2 ⟨_, hmem, rfl⟩

/-- A block declares nothing but its own declarations if no brace stands before any of them. -/
theorem declaredIn_eq_atTop (h : ∀ n d, Stands d n block → n = 0) :
    declaredIn block = atTop block := by
  induction block with
  | nil => rfl
  | cons s rest ih =>
      have hrest := ih fun n d hd => h n d (hd.cons s)
      -- a declaration in a guarded block would stand behind a brace
      have hguarded {inner : Block} (hguards : s.Guards inner) : declaredIn inner = [] := by
        refine List.eq_nil_iff_forall_not_mem.2 fun d hd => ?_
        rcases mem_declaredIn_iff.1 hd with ⟨n, hn⟩
        cases h _ _ (hn.of_guards hguards rest)
      rw [declaredIn, hrest]
      cases s with
      | func name params body => rfl
      | ret value => rfl
      | «when» test body => rw [Stmt.declared, hguarded .when]; rfl
      | choose test body otherwise =>
          rw [Stmt.declared, hguarded .chosen, hguarded .otherwise]
          rfl
      | loop test body => rw [Stmt.declared, hguarded .loop]; rfl
      | assign x e => rfl
      | eval e => rfl

end Places

/-! ## Functions within functions -/

namespace Grammar

mutual

/-- Nothing is declared within a function, by induction on the grammar. -/
theorem Statement.declared_eq_nil {d : Nat} {ts rest : List Token} {s : Stmt} :
    Statement true d ts s rest → s.declared = []
  | .plain h _ => h.declared_eq_nil
  | .ended h => h.declared_eq_nil

theorem Bare.declared_eq_nil {d : Nat} {ts rest : List Token} {s : Stmt} :
    Bare true d ts s rest → s.declared = []
  | .ret _ => rfl
  | .value _ _ => rfl
  | .conditional h => h.declared_eq_nil
  | .loop _ hbody => hbody.declaredIn_eq_nil
  | .assign _ => rfl
  | .eval _ _ => rfl

theorem Conditional.declared_eq_nil {d : Nat} {ts rest : List Token} {s : Stmt} :
    Conditional true d ts s rest → s.declared = []
  | .when _ hbody _ => hbody.declaredIn_eq_nil
  | .choose _ hbody hother =>
      List.append_eq_nil_iff.2 ⟨hbody.declaredIn_eq_nil, hother.declaredIn_eq_nil⟩

theorem Alternative.declaredIn_eq_nil {d : Nat} {ts rest : List Token} {body : List Stmt} :
    Alternative true d ts body rest → declaredIn body = []
  | .block h => h.declaredIn_eq_nil
  | .conditional h => List.append_eq_nil_iff.2 ⟨h.declared_eq_nil, rfl⟩

theorem Block.declaredIn_eq_nil {d : Nat} {ts rest : List Token} {body : List Stmt} :
    Block true d ts body rest → declaredIn body = []
  | .braces h => h.declaredIn_eq_nil

theorem Statements.declaredIn_eq_nil {d : Nat} {ts rest : List Token} {body : List Stmt} :
    Statements true d ts body rest → declaredIn body = []
  | .nil => rfl
  | .cons h hrest => List.append_eq_nil_iff.2 ⟨h.declared_eq_nil, hrest.declaredIn_eq_nil⟩

end

mutual

/-- So the body of a declaration declares nothing, wherever it stands. -/
theorem Statement.bodies_declare_nothing {inFunction : Bool} {d : Nat} {ts rest : List Token}
    {s : Stmt} {decl : FuncDecl} :
    Statement inFunction d ts s rest → decl ∈ s.declared → declaredIn decl.body = []
  | .plain h _, hdecl => h.bodies_declare_nothing hdecl
  | .ended h, hdecl => h.bodies_declare_nothing hdecl

theorem Bare.bodies_declare_nothing {inFunction : Bool} {d : Nat} {ts rest : List Token}
    {s : Stmt} {decl : FuncDecl} :
    Bare inFunction d ts s rest → decl ∈ s.declared → declaredIn decl.body = []
  | .func _ _ hbody, hdecl => by
      cases List.mem_singleton.1 hdecl
      exact hbody.declaredIn_eq_nil
  | .conditional h, hdecl => h.bodies_declare_nothing hdecl
  | .loop _ hbody, hdecl => hbody.bodies_declare_nothing hdecl

theorem Conditional.bodies_declare_nothing {inFunction : Bool} {d : Nat} {ts rest : List Token}
    {s : Stmt} {decl : FuncDecl} :
    Conditional inFunction d ts s rest → decl ∈ s.declared → declaredIn decl.body = []
  | .when _ hbody _, hdecl => hbody.bodies_declare_nothing hdecl
  | .choose _ hbody hother, hdecl =>
      (List.mem_append.1 hdecl).elim hbody.bodies_declare_nothing hother.bodies_declare_nothing

theorem Alternative.bodies_declare_nothing {inFunction : Bool} {d : Nat} {ts rest : List Token}
    {body : List Stmt} {decl : FuncDecl} :
    Alternative inFunction d ts body rest → decl ∈ declaredIn body → declaredIn decl.body = []
  | .block h, hdecl => h.bodies_declare_nothing hdecl
  | .conditional h, hdecl => (List.mem_append.1 hdecl).elim h.bodies_declare_nothing nofun

theorem Block.bodies_declare_nothing {inFunction : Bool} {d : Nat} {ts rest : List Token}
    {body : List Stmt} {decl : FuncDecl} :
    Block inFunction d ts body rest → decl ∈ declaredIn body → declaredIn decl.body = []
  | .braces h, hdecl => h.bodies_declare_nothing hdecl

theorem Statements.bodies_declare_nothing {inFunction : Bool} {d : Nat} {ts rest : List Token}
    {body : List Stmt} {decl : FuncDecl} :
    Statements inFunction d ts body rest → decl ∈ declaredIn body → declaredIn decl.body = []
  | .cons h hrest, hdecl =>
      (List.mem_append.1 hdecl).elim h.bodies_declare_nothing hrest.bodies_declare_nothing

end

end Grammar

/-- No declaration stands in the body of a function of an accepted source. -/
theorem not_stands_of_parse {limit n k : Nat} {source : String} {block : Block} {d d' : FuncDecl}
    (hparse : parse limit source = .ok block) (hd : Stands d n block) : ¬ Stands d' k d.body := by
  unfold parse at hparse
  cases htokens : tokenize source with
  | error e =>
      rw [htokens] at hparse
      cases hparse
  | ok located =>
      rw [htokens] at hparse
      have hunit := (parseTokens_eq_ok limit located block).1 hparse
      intro hd'
      have hmem := hd'.mem_declaredIn
      rw [hunit.bodies_declare_nothing hd.mem_declaredIn] at hmem
      cases hmem

end Script

/-! ## What loading registers -/

namespace Machine

open Script

variable {ν : Type}

/-- The last one of several declarations of a name. -/
def lastNamed (name : String) (ds : List FuncDecl) : Option FuncDecl :=
  ds.reverse.find? fun d => normalizeName d.name = name

/-- A later declaration comes before an earlier one. -/
theorem lastNamed_cons (name : String) (d : FuncDecl) (rest : List FuncDecl) :
    lastNamed name (d :: rest) =
      (lastNamed name rest).or (if normalizeName d.name = name then some d else none) := by
  simp [lastNamed, List.find?_append, List.find?_singleton]

/-- Loading a unit registers the last declaration of each name. -/
theorem functions_defineFunctions (ds : List FuncDecl) (vm : Vm ν) (name : String) :
    (vm.defineFunctions (ds.map FuncDecl.compile)).functions.get? name =
      ((lastNamed name ds).map fun d => .script d.compile).or (vm.functions.get? name) := by
  induction ds generalizing vm with
  | nil => rfl
  | cons d rest ih =>
      have hname : d.compile.name = d.name := Function.name_ofBody _ _ _
      have hfirst : (vm.defineFunction d.compile).functions.get? name =
          if normalizeName d.name = name then some (.script d.compile)
          else vm.functions.get? name := by
        rw [← hname]
        exact Store.Table.get?_insert _ _ _ _
      -- What is defined later wins, so the functions behind come first in the look-up.
      refine (ih (vm.defineFunction d.compile)).trans ?_
      rw [hfirst, lastNamed_cons]
      cases lastNamed name rest with
      | some last => rfl
      | none => split <;> rfl

/-- An accepted source declares its functions outside of other functions. Loading it registers
every one of them under its name, behind whatever braces it stands, the last one of a name in the
place of all others and of a native function; every other name stands for what it stood for. Running
the unit registers nothing else. If no declaration stands behind a brace, then the functions of the
unit are those that its statements declare. -/
theorem functions_of_a_unit (vm : Vm ν) (source : String) (compiled : CompiledUnit)
    (hcompile : compile vm.limits.nestingDepth source = .ok compiled) :
    ∃ block, parse vm.limits.nestingDepth source = .ok block ∧ compiled = compileBlock block ∧
      (∀ n d, Stands d n block → ∀ k d', ¬ Stands d' k d.body) ∧
      (∀ d, d ∈ declaredIn block ↔ ∃ n, Stands d n block) ∧
      (∀ name, (Vm.load source vm).2.functions.get? name =
        ((lastNamed name (declaredIn block)).map fun d => .script d.compile).or
          (vm.functions.get? name)) ∧
      (∀ (σ : Type) (natives : Natives ν σ) budget host r m', vm.IsCompiled →
        runSource natives budget source ⟨vm, host⟩ = some (r, m') →
        m'.vm.functions = (Vm.load source vm).2.functions) ∧
      ((∀ n d, Stands d n block → n = 0) → declaredIn block = atTop block) := by
  rcases compile_eq_ok hcompile with ⟨block, hparse, rfl⟩
  refine ⟨block, hparse, rfl, fun n d hd k d' => not_stands_of_parse hparse hd,
    fun d => mem_declaredIn_iff, fun name => ?_, fun σ natives budget host r m' hvm hrun => ?_,
    declaredIn_eq_atTop⟩
  · rw [Vm.load, hcompile]
    exact functions_defineFunctions (declaredIn block) vm name
  · exact (runSource_setting (m := ⟨vm, host⟩) hvm hrun).1

/-- A declaration in a loop is registered next to one at the top, and both are all there is. -/
theorem functions_of_a_unit_with_a_loop :
    let source := "func f() \x7b \x7d while f() \x7b func g() \x7b \x7d \x7d"
    let vm : Vm Unit := Vm.new {}
    ∃ compiled block, compile vm.limits.nestingDepth source = .ok compiled ∧
      compiled = compileBlock block ∧ (∃ n d, Stands d (n + 1) block) ∧
      (declaredIn block).map FuncDecl.name = ["f", "g"] ∧
      ∀ name, ((Vm.load source vm).2.functions.get? name).isSome = true ↔
        (lastNamed name (declaredIn block)).isSome = true := by
  intro source vm
  have hblock : ((parse vm.limits.nestingDepth source).toOption.map fun block =>
      ((declaredIn block).map FuncDecl.name, (atTop block).map FuncDecl.name)) =
      some (["f", "g"], ["f"]) := by
    decide +kernel
  have haccepted : (compile vm.limits.nestingDepth source).isOk = true := by decide +kernel
  cases hcompile : compile vm.limits.nestingDepth source with
  | error e =>
      rw [hcompile] at haccepted
      cases haccepted
  | ok compiled =>
      rcases functions_of_a_unit vm source compiled hcompile with
        ⟨block, hparse, hcompiled, _, hmem, hget, _, htop⟩
      rw [hparse] at hblock
      have hnames := (Prod.mk.inj (Option.some.inj hblock)).1
      refine ⟨compiled, block, rfl, hcompiled, ?_, hnames, fun name => ?_⟩
      · -- otherwise the two lists of names would be the same
        by_contra hnone
        have hall := htop fun n d hd => by
          cases n with
          | zero => rfl
          | succ n => exact absurd ⟨n, d, hd⟩ hnone
        have hlists := Prod.mk.inj (Option.some.inj hblock)
        rw [hall, hlists.2] at hnames
        cases hnames
      · rw [hget]
        cases lastNamed name (declaredIn block) with
        | none => exact Iff.rfl
        | some d => exact Iff.rfl

/-- A function declared in a branch that is not taken takes the place of a native function. -/
theorem function_of_a_branch_not_taken :
    let source := "if false \x7b func f() \x7b \x7d \x7d"
    let vm : Vm Unit := (Vm.new {}).registerNative "f" ()
    ∃ block n d r m', parse vm.limits.nestingDepth source = .ok block ∧ Stands d (n + 1) block ∧
      runSource (fun _ _ => pure .null) 9 source ⟨vm, ()⟩ = some (r, m') ∧ r.isOk = true ∧
      vm.functions.get? "f" = some (.native ()) ∧
      m'.vm.functions.get? "f" = some (.script d.compile) := by
  intro source vm
  let run := runSource (fun _ _ => pure .null) 9 source (⟨vm, ()⟩ : Hosted Unit Unit)
  have hblock : ((parse vm.limits.nestingDepth source).toOption.map fun block =>
      ((declaredIn block).map fun d => normalizeName d.name, (atTop block).length)) =
      some (["f"], 0) := by
    decide +kernel
  have hends : (run.map fun ended => ended.1.isOk) = some true := by decide +kernel
  rcases Option.map_eq_some_iff.1 hends with ⟨⟨r, m'⟩, hrun, hr⟩
  cases hparse : parse vm.limits.nestingDepth source with
  | error e =>
      rw [hparse] at hblock
      cases hblock
  | ok block =>
      rw [hparse] at hblock
      rcases Prod.mk.inj (Option.some.inj hblock) with ⟨hnames, hnone⟩
      rcases List.map_eq_singleton_iff.1 hnames with ⟨d, hdeclared, hname⟩
      obtain ⟨n, hstands⟩ := mem_declaredIn_iff.1 (hdeclared ▸ List.mem_singleton_self d)
      have hvm : vm.IsCompiled := (Vm.IsCompiled.new {}).registerNative "f" ()
      have hafter : m'.vm.functions = (Vm.load source vm).2.functions :=
        (runSource_setting (m := ⟨vm, ()⟩) hvm hrun).1
      -- At the top level nothing is declared, so the function stands inside the branch.
      cases n with
      | zero =>
          have hmem := mem_atTop_iff.2 hstands
          rw [List.length_eq_zero_iff.1 hnone] at hmem
          cases hmem
      | succ n =>
          refine ⟨block, n, d, r, m', rfl, hstands, hrun, hr, rfl, ?_⟩
          rw [hafter, Vm.load, compile, hparse]
          refine (functions_defineFunctions (declaredIn block) vm "f").trans ?_
          rw [hdeclared]
          simp [lastNamed, hname]

end Machine
end ScriptHost
