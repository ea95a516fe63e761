import ScriptHost.Proofs.Literals

/-!
# Pools of a function

A function under construction keeps its constants and names in pools. Whatever is added to it, an
index that has been given out leads to the same entry for ever, and no pool holds an entry twice.
A name and an instruction are found again at their index as they were added. A constant shares the
entry of the first constant that the language considers equal to it; that is the constant itself,
with one exception: the two zeros are equal and share an entry, which holds the one that came first.
-/

namespace ScriptHost
namespace Script

/-! ## Equal values -/

namespace Value

/-- The only value that is not equal to itself. -/
def notANumber : Value :=
  .number Float.nan

/-- The two zeros: equal, but not the same. -/
inductive OppositeZeros : Value → Value → Prop
  | positive : OppositeZeros (.number 0) (.number (-0))
  | negative : OppositeZeros (.number (-0)) (.number 0)

variable {u v w : Value}

/-- There are only two zeros. -/
theorem OppositeZeros.eq_of_both (h : OppositeZeros u v) (h' : OppositeZeros v w) : u = w := by
  cases h <;> cases h' <;> rfl

/-- Numbers are equal in the language if they are the same number, but for NaN and the zeros. -/
theorem number_equals_iff {x y : Float} : equals (.number x) (.number y) = true ↔
    number x ≠ notANumber ∧ number y ≠ notANumber ∧
      (number x = number y ∨ OppositeZeros (.number x) (.number y)) := by
  have hzeros : OppositeZeros (.number x) (.number y) ↔ x = 0 ∧ y = -0 ∨ x = -0 ∧ y = 0 := by
    constructor
    · intro h
      cases h with
      | positive => exact .inl ⟨rfl, rfl⟩
      | negative => exact .inr ⟨rfl, rfl⟩
    · rintro (⟨rfl, rfl⟩ | ⟨rfl, rfl⟩)
      · exact .positive
      · exact .negative
  rw [hzeros]
  simp only [equals, notANumber, ne_eq, Value.number.injEq]
  exact Float.beq_iff_ne_nan_and_eq

theorem equals_iff : v.equals w = true ↔
    v ≠ notANumber ∧ w ≠ notANumber ∧ (v = w ∨ OppositeZeros v w) := by
  by_cases hnumbers : ∃ x y, v = .number x ∧ w = .number y
  · rcases hnumbers with ⟨x, y, rfl, rfl⟩
    exact number_equals_iff
  · have hzeros : ¬OppositeZeros v w := by
      intro h
      cases h <;> exact hnumbers ⟨_, _, rfl, rfl⟩
    -- what is left is compared by contents
    cases v <;> cases w <;> simp_all [equals, notANumber]

/-- Equality of the language is transitive. -/
theorem equals_trans (huv : u.equals v = true) (hvw : v.equals w = true) : u.equals w = true := by
  rcases equals_iff.1 huv with ⟨hu, -, hsame | hzeros⟩
  · exact hsame ▸ hvw
  · rcases equals_iff.1 hvw with ⟨-, hw, rfl | hzeros'⟩
    · exact huv
    · exact equals_iff.2 ⟨hu, hw, .inl (hzeros.eq_of_both hzeros')⟩

/-- The value of the entry that serves a constant after those that were added before it. -/
def shared (earlier : List Value) (v : Value) : Value :=
  (earlier.find? fun c => c.equals v).getD v

/-- What is found instead of a value is the value, or the other zero. -/
theorem shared_cases (earlier : List Value) (v : Value) :
    shared earlier v = v ∨ OppositeZeros (shared earlier v) v := by
  unfold shared
  cases hfind : earlier.find? fun c => c.equals v with
  | none => exact .inl rfl
  | some c =>
      have hequals : c.equals v = true := by simpa using List.find?_some hfind
      exact (equals_iff.1 hequals).2.2

end Value

namespace Function

/-! ## What is added to a function -/

/-- What can be added to a function. -/
inductive Item
  | constant (v : Value)
  | name (y : String)
  | instruction (op : Opcode)
  deriving DecidableEq

/-- Adds an item and tells its index. -/
def add (f : Function) : Item → Function × Nat
  | .constant v => f.addConstant v
  | .name y => f.addName y
  | .instruction op => (f.emit op, f.nextIndex)

def addAll (f : Function) (items : List Item) : Function :=
  items.foldl (fun f item => (f.add item).1) f

/-- The constants among all that is added. -/
def constantsOf : List Item → List Value
  | [] => []
  | .constant v :: rest => v :: constantsOf rest
  | _ :: rest => constantsOf rest

variable (f : Function) (items : List Item)

/-- Nothing that is there moves. -/
theorem extends_add (item : Item) : Extends f (f.add item).1 := by
  cases item with
  | constant v => exact f.extends_addConstant v
  | name y => exact f.extends_addName y
  | instruction op => exact f.extends_emit op

theorem extends_addAll : Extends f (f.addAll items) := by
  induction items generalizing f with
  | nil => exact .refl f
  | cons item rest ih => exact (f.extends_add item).trans (ih _)

/-! ## Entries that are shared -/

/-- The constant of the pool that serves `v`. -/
def constant? (v : Value) : Option Value :=
  f.constants.find? fun c => c.equals v

/-- A constant is found among the old ones first. -/
theorem constant?_addConstant (u v : Value) :
    (f.addConstant u).1.constant? v = (f.constant? v).or ([u].find? fun c => c.equals v) := by
  unfold addConstant
  split
  · next i hi =>
      rcases Array.findIdx?_eq_some_iff_getElem.1 hi with ⟨hlt, hequals, _⟩
      by_cases huv : u.equals v = true
      · -- an older constant equals the new one, and so it is the one that is found
        have hfound : (f.constant? v).isSome := by
          rw [constant?, Array.find?_isSome]
          exact ⟨f.constants[i], Array.getElem_mem hlt, Value.equals_trans hequals huv⟩
        rw [Option.or_of_isSome hfound]
      · simp [huv]
  · simp [constant?, Array.find?_push, List.find?_singleton]

/-- Among many the first one that is equal is found. -/
theorem constant?_addAll (v : Value) :
    (f.addAll items).constant? v =
      (f.constant? v).or ((constantsOf items).find? fun c => c.equals v) := by
  induction items generalizing f with
  | nil => simp [addAll, constantsOf]
  | cons item rest ih =>
      have hrest : (f.addAll (item :: rest)).constant? v =
          ((f.add item).1.constant? v).or ((constantsOf rest).find? fun c => c.equals v) :=
        ih (f.add item).1
      rw [hrest]
      cases item with
      | constant u =>
          rw [add, constant?_addConstant, Option.or_assoc, ← List.find?_append]
          rfl
      | name y =>
          rw [add, constant?, constants_addName]
          rfl
      | instruction op => rfl

/-- The index of a constant leads to the entry that served it before, or to a new one. -/
theorem getElem?_addConstant_eq (v : Value) :
    (f.addConstant v).1.constants[(f.addConstant v).2]? = some ((f.constant? v).getD v) := by
  rw [constant?, Array.find?_eq_bind_findIdx?_getElem?]
  unfold addConstant
  split
  · next i hi =>
      rcases Array.findIdx?_eq_some_iff_getElem.1 hi with ⟨hlt, _⟩
      rw [hi]
      simp [hlt]
  · next hnone =>
      rw [hnone]
      simp

/-! ## Entries that are not repeated -/

/-- No two entries of a pool are equal. -/
structure IsInterned : Prop where
  constants : f.constants.toList.Pairwise fun c d => c.equals d = false
  names : f.names.toList.Nodup

variable {f}

/-- Empty pools repeat nothing. -/
theorem isInterned_new (name : String) (paramCount : Nat) : (new name paramCount).IsInterned :=
  ⟨.nil, .nil⟩

/-- A constant that is there is not added again. -/
theorem IsInterned.addConstant (h : f.IsInterned) (v : Value) : (f.addConstant v).1.IsInterned := by
  unfold Function.addConstant
  split
  · exact h
  · next hnone =>
      refine ⟨?_, h.names⟩
      rw [Array.toList_push, List.pairwise_append]
      refine ⟨h.constants, List.pairwise_singleton .., fun c hc d hd => ?_⟩
      rw [List.mem_singleton.1 hd]
      exact Array.findIdx?_eq_none_iff.1 hnone c (Array.mem_toList_iff.1 hc)

theorem IsInterned.addName (h : f.IsInterned) (y : String) : (f.addName y).1.IsInterned := by
  unfold Function.addName
  split
  · exact h
  · next hnone =>
      refine ⟨h.constants, ?_⟩
      rw [Array.toList_push, List.nodup_append]
      refine ⟨h.names, List.nodup_singleton y, fun n hn d hd => ?_⟩
      rw [List.mem_singleton.1 hd]
      have hfresh := Array.findIdx?_eq_none_iff.1 hnone n (Array.mem_toList_iff.1 hn)
      exact bne_iff_ne.1 (by simpa using hfresh)

theorem IsInterned.add (h : f.IsInterned) (item : Item) : (f.add item).1.IsInterned := by
  cases item with
  | constant v => exact h.addConstant v
  | name y => exact h.addName y
  | instruction op => exact ⟨h.constants, h.names⟩

/-- By induction over all that is added. -/
theorem IsInterned.addAll (h : f.IsInterned) (items : List Item) : (f.addAll items).IsInterned := by
  induction items generalizing f with
  | nil => exact h
  | cons item rest ih => exact ih (h.add item)

/-! ## The law of pools -/

/-- An item is found at its index: a name and an instruction as they are, and a constant by the
entry that it shares with an earlier one. -/
def Holds (f : Function) (i : Nat) (earlier : List Item) : Item → Prop
  | .constant v => f.constants[i]? = some (Value.shared (constantsOf earlier) v)
  | .name y => f.names[i]? = some y
  | .instruction op => f.code[i]? = some op

theorem constant?_new (name : String) (paramCount : Nat) (v : Value) :
    (new name paramCount).constant? v = none := by
  simp [constant?, new]

/-- An item has been put where its index says. -/
theorem holds_added (name : String) (paramCount : Nat) (before : List Item) (item : Item) :
    (((new name paramCount).addAll before).add item).1.Holds
      (((new name paramCount).addAll before).add item).2 before item := by
  cases item with
  | constant v =>
      refine (getElem?_addConstant_eq _ v).trans ?_
      rw [constant?_addAll, constant?_new, Option.none_or]
      rfl
  | name y => exact getElem?_addName _ y
  | instruction op => exact getElem?_code_emit _ op

theorem Holds.extends {g : Function} {i : Nat} {earlier : List Item} {item : Item}
    (h : f.Holds i earlier item) (hextends : Extends f g) : g.Holds i earlier item := by
  cases item with
  | constant v => exact hextends.constants h
  | name y => exact hextends.names h
  | instruction op => exact hextends.code h

/-- Whatever is added to a new function before and after an item, its index leads to what was
added; only of the two zeros, the one that comes second is found as the one that came first. At no
time are two entries of a pool equal. -/
theorem pools_keep_what_is_added (name : String) (paramCount : Nat) :
    (∀ before item after,
      ((((new name paramCount).addAll before).add item).1.addAll after).Holds
        (((new name paramCount).addAll before).add item).2 before item) ∧
    (∀ earlier v, Value.shared earlier v = v ∨
      Value.OppositeZeros (Value.shared earlier v) v) ∧
    ∀ items, ((new name paramCount).addAll items).IsInterned := by
  refine ⟨fun before item after => ?_, Value.shared_cases, fun items => ?_⟩
  · exact (holds_added name paramCount before item).extends (extends_addAll _ after)
  · exact (isInterned_new name paramCount).addAll items

/-- A negative zero that is added behind a positive one is found as that one. -/
theorem negative_zero_is_found_positive :
    let zero := (new "f" 0).addAll [.constant (.number 0)]
    let both := zero.add (.constant (.number (-0)))
    both.1.constants[both.2]? = some (.number 0) ∧ Value.number 0 ≠ .number (-0) := by
  decide +kernel

end Function
end Script
end ScriptHost
