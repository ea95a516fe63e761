import ScriptHost.Proofs.Execution

/-!
# Executions and where they take place

An execution uses its own part of the stacks, on top of whatever was there before. A site is what it
finds: stacks, limits, and a count of steps. The part that an execution owns can be put down on any
site, with all heights raised by as much as lies below; an operation on the whole stacks is then the
same operation on the part, wherever that is put down.
-/

namespace ScriptHost
namespace Machine

open Script

variable {ν σ : Type}

/-! ## Sites -/

/-- A callee that waits, with its base counted from the bottom. -/
def CallSetup.raised (n : Nat) (c : CallSetup ν) : CallSetup ν :=
  { c with base := n + c.base }

/-- A frame with its base counted from the bottom. -/
def Frame.raised (n : Nat) (fr : Frame) : Frame :=
  { fr with base := n + fr.base }

/-- What an execution finds when it begins: its setting, the stacks below it and the number of steps
taken before. -/
structure Site (ν : Type) where
  setting : Setting ν
  ground : Stack ν
  steps : Nat

namespace Site

variable (y : Site ν)

/-- The height at which the operands of the execution begin. -/
def height : Nat :=
  y.ground.slots.size

/-- The values of the execution lie on those of the ground. -/
def slots (W : Array Value) : Array Value :=
  y.ground.slots ++ W

/-- So do its callees. -/
def setups (V : Array (CallSetup ν)) : Array (CallSetup ν) :=
  y.ground.setups ++ V.map (·.raised y.height)

def frames (G : Array Frame) : Array Frame :=
  y.ground.frames ++ G.map (·.raised y.height)

/-- The machine in the middle of an execution that owns these parts of the stacks and has taken so
many steps. -/
def machine (W : Array Value) (V : Array (CallSetup ν)) (G : Array Frame)
    (g : Store.Table Value) (k : Nat) (h : σ) : Hosted ν σ :=
  y.setting.machine (y.slots W) (y.setups V) (y.frames G) g (y.steps + k) h

/-! ## Parts of the stacks -/

variable {y} {W : Array Value} {V : Array (CallSetup ν)} {G : Array Frame}
variable {b n : Nat} {v : Value}

theorem size_slots : (y.slots W).size = y.height + W.size :=
  Array.size_append

theorem size_frames : (y.frames G).size = y.ground.frames.size + G.size := by
  rw [frames, Array.size_append, Array.size_map]

/-- What is pushed belongs to the execution. -/
theorem slots_push : y.slots (W.push v) = (y.slots W).push v :=
  Array.append_push

/-- A callee is raised with the rest. -/
theorem setups_push {c : CallSetup ν} :
    y.setups (V.push c) = (y.setups V).push (c.raised y.height) := by
  rw [setups, Array.map_push, Array.append_push, setups]

theorem frames_push {fr : Frame} :
    y.frames (G.push fr) = (y.frames G).push (fr.raised y.height) := by
  rw [frames, Array.map_push, Array.append_push, frames]

/-- A cut above the ground leaves the ground alone. -/
theorem slots_take : (y.slots W).take (y.height + n) = y.slots (W.take n) := by
  rw [slots, slots, Array.take_eq_extract, Array.take_eq_extract, Array.extract_append,
    Nat.zero_sub, Array.extract_eq_self_of_le (by rw [height]; omega), height,
    Nat.add_sub_cancel_left]

/-- Above the ground there is nothing but the execution's own. -/
theorem slots_drop : (y.slots W).drop (y.height + n) = W.drop n := by
  rw [slots, Array.drop_eq_extract, Array.drop_eq_extract, Array.extract_append, Array.size_append,
    height, Nat.add_sub_cancel_left, Nat.add_sub_cancel_left,
    Array.extract_empty_of_size_le_start (Nat.le_add_right _ _), Array.empty_append]

/-- A local is written in the execution's own part. -/
theorem slots_set : (y.slots W).setIfInBounds (y.height + n) v = y.slots (W.setIfInBounds n v) := by
  rw [slots, slots, Array.setIfInBounds_append_right (by rw [height]; omega), height,
    Nat.add_sub_cancel_left]

theorem getElem?_slots : (y.slots W)[y.height + n]? = W[n]? := by
  rw [slots, Array.getElem?_append_right (by rw [height]; omega), height, Nat.add_sub_cancel_left]

/-- Arguments are adjusted there as well. -/
theorem slots_adjusted {count : Nat} :
    adjusted (y.slots W) (y.height + b) count = y.slots (adjusted W b count) := by
  rw [adjusted, adjusted, Nat.add_assoc, slots_take, size_slots, Nat.add_sub_add_left, slots, slots,
    Array.append_assoc]

end Site

/-! ## What an active execution owns -/

/-- What is on top of a ground and of something else is the last of what has been put down there. -/
theorem exists_push_of_append {α : Type} {ground xs own : Array α} {t : α → α} {c : α}
    (h : ground ++ xs.map t = (ground ++ own).push c) :
    ∃ (xs' : Array α) (c' : α),
      xs = xs'.push c' ∧ c = t c' ∧ ground ++ xs'.map t = ground ++ own := by
  rw [← Array.append_push, Array.append_right_inj] at h
  have hsize : 0 < xs.size := by
    have hsize := congrArg Array.size h
    rw [Array.size_map, Array.size_push] at hsize
    omega
  rcases Array.exists_push_of_size_pos hsize with ⟨xs', c', rfl⟩
  rw [Array.map_push, Array.push_eq_push] at h
  exact ⟨xs', c', rfl, h.1.symm, by rw [h.2]⟩

section Owned

variable {y : Site ν} {f : Function} {base : Nat} {s t : Shape} {W : Array Value}
variable {V : Array (CallSetup ν)} {G F : Array Frame} {U : Array (CallSetup ν)}

/-- The topmost operand of an activation is one that the execution owns. -/
theorem Active.popOwned (h : Active y.setting y.ground f base (t.grown 1) (y.slots W) U F) :
    ∃ (W' : Array Value) (v : Value), W = W'.push v ∧
      Active y.setting y.ground f base t (y.slots W') U F := by
  rcases h.pop with ⟨S, v, hS, hpopped⟩
  rcases hpopped.kept with ⟨own, rfl⟩
  rw [Site.slots, ← Array.append_push, Array.append_right_inj] at hS
  exact ⟨own, v, hS, hpopped⟩

/-- So is the setup that a call completes, and its arguments begin within the operands owned. -/
theorem Active.closeOwned {argc : Nat}
    (h : Active y.setting y.ground f base (t.opened.grown argc) (y.slots W) (y.setups V) F) :
    ∃ (V' : Array (CallSetup ν)) (c : CallSetup ν), V = V'.push c ∧ c.base ≤ W.size := by
  rcases h.close with ⟨U, setup, hU, _, hsize, _, hclosed⟩
  have hkept : Kept _ ⟨_, _, F.push ⟨f, 0, base⟩, _⟩ := hclosed.keptStacks
  rcases hkept with ⟨_, ⟨own, rfl⟩, _⟩
  rcases exists_push_of_append hU with ⟨V', c, rfl, rfl, _⟩
  refine ⟨V', c, rfl, ?_⟩
  have hbase : (c.raised y.height).base = y.height + c.base := rfl
  rw [Site.size_slots, hbase] at hsize
  omega

/-- The innermost frame of an execution that goes on is one that it owns. -/
theorem Ongoing.activeOwned {g : Store.Table Value} {k : Nat} {h : σ}
    (hongoing : Ongoing y.ground (y.machine W V G g k h)) :
    ∃ (f : Function) (ip b : Nat) (table : List Shape) (s : Shape) (G' : Array Frame),
      G = G'.push ⟨f, ip, b⟩ ∧ Verified f table ∧ table[ip]? = some s ∧
      Active y.setting y.ground f (y.height + b) s (y.slots W) (y.setups V) (y.frames G') := by
  rcases hongoing.running with ⟨f, ip, base, table, s, F, hverified, hs, hactive, hF⟩
  rcases hactive.waiting with ⟨U, hsuspended, _⟩
  rcases hsuspended.kept with ⟨_, ⟨own, rfl⟩, _⟩
  rcases exists_push_of_append hF with ⟨G', ⟨f', ip', b⟩, rfl, hframe, hframes⟩
  cases hframe
  rw [← hframes] at hactive
  exact ⟨f', ip', b, table, s, G', rfl, hverified, hs, hactive⟩

/-- A parameter of the innermost call is an operand that the execution owns. -/
theorem Active.getElem?_owned {b slot : Nat}
    (h : Active y.setting y.ground f (y.height + b) s (y.slots W) U F)
    (hslot : slot < f.paramCount) : ∃ v, W[b + slot]? = some v := by
  rcases h.getElem?_local hslot with ⟨v, hv⟩
  rw [Nat.add_assoc, Site.getElem?_slots] at hv
  exact ⟨v, hv⟩

/-- An execution that is over owns nothing but its result. -/
theorem Finished.owned {g : Store.Table Value} {k : Nat} {h : σ}
    (hfinished : Finished y.ground (y.machine W V G g k h)) : ∃ v, W = #[v] := by
  rcases hfinished with ⟨v, hv⟩
  have hslots : y.slots W = y.ground.slots.push v := congrArg Stack.slots hv
  rw [Site.slots, Array.push_eq_append, Array.append_right_inj] at hslots
  exact ⟨v, hslots⟩

end Owned

end Machine
end ScriptHost
