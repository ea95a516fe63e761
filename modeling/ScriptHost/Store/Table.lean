/-!
# Tables

A table associates values with names. Entries stand in the order in which their names first came
in, and every name has one entry; the type itself keeps that.
-/

namespace ScriptHost
namespace Store

structure Table (α : Type) where
  entries : List (String × α)
  distinct : (entries.map Prod.fst).Nodup

namespace Table

variable {α : Type}

def names (t : Table α) : List String :=
  t.entries.map Prod.fst

def values (t : Table α) : List α :=
  t.entries.map Prod.snd

def empty : Table α :=
  ⟨[], List.nodup_nil⟩

instance : Inhabited (Table α) := ⟨empty⟩

def size (t : Table α) : Nat :=
  t.entries.length

def lookup (name : String) : List (String × α) → Option α
  | [] => none
  | (k, v) :: rest => if k = name then some v else lookup name rest

def get? (t : Table α) (name : String) : Option α :=
  lookup name t.entries

def contains (t : Table α) (name : String) : Bool :=
  (t.get? name).isSome

/-! ## Writing -/

/-- Replaces the entry of the name in its place, or puts a new one at the end. -/
def put (name : String) (v : α) : List (String × α) → List (String × α)
  | [] => [(name, v)]
  | (k, w) :: rest => if k = name then (k, v) :: rest else (k, w) :: put name v rest

theorem mem_names_put {name : String} {v : α} {l : List (String × α)} {x : String} :
    x ∈ (put name v l).map Prod.fst ↔ x = name ∨ x ∈ l.map Prod.fst := by
  induction l with
  | nil => simp [put]
  | cons e rest ih =>
      rcases e with ⟨k, w⟩
      by_cases h : k = name
      · simp [put, h]
      · simp only [put, h, if_false, List.map_cons, List.mem_cons, ih]
        constructor
        · rintro (rfl | rfl | hx)
          · exact .inr (.inl rfl)
          · exact .inl rfl
          · exact .inr (.inr hx)
        · rintro (rfl | rfl | hx)
          · exact .inr (.inl rfl)
          · exact .inl rfl
          · exact .inr (.inr hx)

theorem nodup_put {name : String} {v : α} {l : List (String × α)}
    (h : (l.map Prod.fst).Nodup) : ((put name v l).map Prod.fst).Nodup := by
  induction l with
  | nil => simp [put]
  | cons e rest ih =>
      rcases e with ⟨k, w⟩
      rw [List.map_cons, List.nodup_cons] at h
      by_cases hk : k = name
      · simp only [put, hk, if_true, List.map_cons, List.nodup_cons]
        exact ⟨hk ▸ h.1, h.2⟩
      · simp only [put, hk, if_false, List.map_cons, List.nodup_cons]
        refine ⟨?_, ih h.2⟩
        rw [mem_names_put]
        rintro (rfl | hmem)
        · exact hk rfl
        · exact h.1 hmem

def insert (t : Table α) (name : String) (v : α) : Table α :=
  ⟨put name v t.entries, nodup_put t.distinct⟩

def erase (t : Table α) (name : String) : Table α :=
  ⟨t.entries.filter fun e => e.1 != name, t.distinct.sublist (List.filter_sublist.map Prod.fst)⟩

/-! ## What is found after writing -/

theorem get?_insert (t : Table α) (name x : String) (v : α) :
    (t.insert name v).get? x = if name = x then some v else t.get? x := by
  show lookup x (put name v t.entries) = if name = x then some v else lookup x t.entries
  induction t.entries with
  | nil => rfl
  | cons e rest ih =>
      rcases e with ⟨k, w⟩
      -- the head is the entry that is replaced, or the name is put further back
      by_cases hk : k = name
      · subst hk
        by_cases hx : k = x <;> simp [put, lookup, hx]
      · by_cases hx : k = x
        · subst hx
          simp [put, lookup, hk, Ne.symm hk]
        · simp [put, lookup, hk, hx, ih]

theorem get?_erase (t : Table α) (name x : String) :
    (t.erase name).get? x = if name = x then none else t.get? x := by
  show lookup x (t.entries.filter fun e => e.1 != name) =
    if name = x then none else lookup x t.entries
  induction t.entries with
  | nil => simp [lookup]
  | cons e rest ih =>
      rcases e with ⟨k, w⟩
      by_cases hk : k = name
      · subst hk
        by_cases hx : k = x <;> simp_all [lookup]
      · by_cases hx : k = x
        · subst hx
          simp [lookup, hk, Ne.symm hk]
        · simp [lookup, hk, hx, ih]

end Table

end Store
end ScriptHost
