import ScriptHost.Proofs.Results
import ScriptHost.Proofs.Rounding
import ScriptHost.Proofs.Units

/-!
# Statuses

A script gives the status of a result as a number, and whoever takes the result gets an integer of
32 bits. What a number stands for is told by Lean's own model of floating-point numbers; here the
integer is tied to that. Integers in the range arrive as they are, but every number between minus
one and one arrives as zero, which means success.
-/

namespace ScriptHost
namespace Number

open Float.Model UnpackedFloat

/-! ## Numbers by their bits -/

/-- Lean's floating-point numbers as those that are printed. -/
def Binary64.ofUnpacked : UnpackedFloat → Binary64
  | .notANumber => .nan
  | .infinity sign => .infinite (sign == .negative)
  | .zero sign => .finite (sign == .negative) 0 leastExponent
  | .finite sign m e _ => .finite (sign == .negative) m e

section Fields

variable (b : BitVec Format.binary64.numBits)

/-- The mantissa is in the last bits. -/
theorem toNat_unpackMantissa :
    (unpackMantissa b).toNat = b.toNat % Binary64.leastNormalMantissa := by
  rw [unpackMantissa_def, BitVec.extractLsb'_toNat, Nat.shiftRight_zero]
  rfl

/-- The exponent stands before it. -/
theorem toNat_unpackExponent :
    (unpackExponent b).toNat = b.toNat / Binary64.leastNormalMantissa % 2048 := by
  rw [unpackExponent_def, BitVec.extractLsb'_toNat, Nat.shiftRight_eq_div_pow]
  rfl

/-- The first bit is the sign. -/
theorem unpackSign_beq_negative :
    (Sign.ofBitVec (unpackSign b) == .negative) = (b.toNat / 9223372036854775808 % 2 == 1) := by
  have hsign : (unpackSign b).toNat = b.toNat / 9223372036854775808 % 2 := by
    rw [unpackSign_def, BitVec.extractLsb'_toNat, Nat.shiftRight_eq_div_pow]
    rfl
  rw [← hsign]
  have hbit : ∀ v : BitVec 1, (Sign.ofBitVec v == .negative) = (v.toNat == 1) := by decide
  exact hbit _

/-- The three cases of a bit pattern are those of Lean's floating-point numbers. -/
theorem ofBits_eq :
    Binary64.ofBits b.toNat = Binary64.ofUnpacked (UnpackedFloat.unpack Format.binary64 b) := by
  have hlast : unpackExponent b = -1#11 ↔
      b.toNat / Binary64.leastNormalMantissa % 2048 = 2047 := by
    rw [← toNat_unpackExponent, ← BitVec.toNat_inj]
    exact Iff.rfl
  have hfirst : unpackExponent b = 0#11 ↔
      b.toNat / Binary64.leastNormalMantissa % 2048 = 0 := by
    rw [← toNat_unpackExponent, ← BitVec.toNat_inj]
    exact Iff.rfl
  have hnone : unpackMantissa b = 0#52 ↔ b.toNat % Binary64.leastNormalMantissa = 0 := by
    rw [← toNat_unpackMantissa, ← BitVec.toNat_inj]
    exact Iff.rfl
  have hbias : (Format.binary64.exponentBias : Int) +
      Format.binary64.mantissaBitsWithoutImplicit = 1075 := rfl
  -- Both functions test the exponent field first and then the mantissa; once their tests are
  -- written alike, each branch is the other's.
  unfold Binary64.ofBits UnpackedFloat.unpack
  simp only [beq_iff_eq, ← hlast, ← hfirst, ← hnone, ← unpackSign_beq_negative, hbias]
  split
  · split
    · rfl
    · rfl
  · split
    · rename_i hzero
      split
      · rename_i hmantissa
        rw [hnone.1 hmantissa]
        rfl
      · rw [← toNat_unpackMantissa, hzero]
        rfl
    · rw [← toNat_unpackMantissa, ← toNat_unpackExponent, ← toNat_leadingBit]
      -- `Binary64` counts the exponent from the least one, `unpack` from the bias.
      have hexponent : ((unpackExponent b).toNat : Int) - 1 + Binary64.leastExponent =
          (unpackExponent b).toNat - 1075 := by
        rw [Binary64.leastExponent]
        omega
      rw [hexponent]
      rfl

end Fields

theorem ofFloat_eq (x : Float) : Binary64.ofFloat x = Binary64.ofUnpacked x.toModel.unpack :=
  ofBits_eq x.toBits.toBitVec

/-! ## Values -/

/-- Without the fraction. -/
def towardZero (v : ℚ) : ℤ :=
  if 0 ≤ v then ⌊v⌋ else ⌈v⌉

theorem towardZero_neg (v : ℚ) : towardZero (-v) = -towardZero v := by
  unfold towardZero
  rcases lt_trichotomy v 0 with h | rfl | h
  · rw [if_pos (by linarith), if_neg (by linarith), Int.floor_neg]
  · simp
  · rw [if_neg (by linarith), if_pos h.le, Int.ceil_neg]

/-- An integer has no fraction. -/
theorem towardZero_intCast (n : ℤ) : towardZero n = n := by
  unfold towardZero
  rw [Int.floor_intCast, Int.ceil_intCast, ite_self]

/-- Exactly the numbers between minus one and one lose everything. -/
theorem towardZero_eq_zero_iff (v : ℚ) : towardZero v = 0 ↔ |v| < 1 := by
  unfold towardZero
  rw [abs_lt]
  split
  · rename_i h
    rw [Int.floor_eq_zero_iff, Set.mem_Ico]
    exact ⟨fun ⟨_, hlt⟩ => ⟨by linarith, hlt⟩, fun ⟨_, hlt⟩ => ⟨h, hlt⟩⟩
  · rename_i h
    rw [Int.ceil_eq_zero_iff, Set.mem_Ioc]
    exact ⟨fun ⟨hlt, _⟩ => ⟨hlt, by linarith⟩, fun ⟨hlt, _⟩ => ⟨hlt, by linarith⟩⟩

/-- What is computed with naturals is the number without its fraction. -/
theorem wholePart_eq (m : ℕ) (q : ℤ) : (wholePart m q : ℤ) = towardZero (m * 2 ^ q) := by
  have hpos : (0 : ℚ) ≤ m * 2 ^ q := by positivity
  rw [towardZero, if_pos hpos, wholePart]
  split
  · rename_i hq
    have hvalue : (m : ℚ) * 2 ^ q = ((m * 2 ^ q.toNat : ℕ) : ℤ) := by
      push_cast
      rw [← zpow_natCast, Int.toNat_of_nonneg hq]
    rw [hvalue, Int.floor_intCast]
    rfl
  · rename_i hq
    have hvalue : (m : ℚ) * 2 ^ q = ((m : ℤ) : ℚ) / ((2 ^ (-q).toNat : ℕ) : ℚ) := by
      push_cast
      rw [← zpow_natCast, Int.toNat_of_nonneg (by omega), zpow_neg, div_inv_eq_mul]
    rw [hvalue, Rat.floor_intCast_div_natCast]
    rfl

theorem clampInt32_eq_zero_iff (n : ℤ) : clampInt32 n = 0 ↔ n = 0 := by
  unfold clampInt32 int32Min int32Max
  omega

/-- What is in the range stays as it is. -/
theorem clampInt32_of_mem {n : ℤ} (hmin : int32Min ≤ n) (hmax : n ≤ int32Max) :
    clampInt32 n = n := by
  unfold clampInt32
  omega

theorem truncateBinary_finite (negative : Bool) (m : ℕ) (q : ℤ) :
    truncateBinary (.finite negative m q) =
      clampInt32 (towardZero (if negative then -(m * 2 ^ q) else m * 2 ^ q)) := by
  rw [truncateBinary]
  cases negative with
  | false => rw [if_neg nofun, if_neg nofun, wholePart_eq]
  | true => rw [if_pos rfl, if_pos rfl, towardZero_neg, wholePart_eq]

theorem float_lt_iff (x y : Float) :
    x < y ↔ UnpackedFloat.lt x.toModel.unpack y.toModel.unpack = true :=
  decide_eq_true_iff

/-- A number is no number at all, or infinite and goes to the end of the range on its side, or has a
value, which is cut off towards zero and then brought into the range. -/
theorem toInt32_cases (x : Float) :
    (x.isNaN = true ∧ x.isInf = false ∧ valueOf x = none ∧ toInt32 x = 0) ∨
      (x.isNaN = false ∧ x.isInf = true ∧ valueOf x = none ∧
        (x < 0 ∧ toInt32 x = int32Min ∨ 0 < x ∧ toInt32 x = int32Max)) ∨
      (x.isNaN = false ∧ x.isInf = false ∧
        ∃ v, valueOf x = some v ∧ toInt32 x = clampInt32 (towardZero v)) := by
  unfold valueOf toInt32
  rw [ofFloat_eq, float_lt_iff, float_lt_iff, Float.isNaN, Float.isInf, Float.Model.isNaN,
    Float.Model.isInf]
  -- One case for each kind of unpacked number; the zeros have a value like the other finite ones.
  cases x.toModel.unpack with
  | notANumber => exact .inl ⟨rfl, rfl, rfl, rfl⟩
  | infinity sign =>
      cases sign with
      | positive => exact .inr (.inl ⟨rfl, rfl, rfl, .inr ⟨rfl, rfl⟩⟩)
      | negative => exact .inr (.inl ⟨rfl, rfl, rfl, .inl ⟨rfl, rfl⟩⟩)
  | zero sign =>
      refine .inr (.inr ⟨rfl, rfl, 0, rfl, ?_⟩)
      rw [Binary64.ofUnpacked, truncateBinary_finite, Nat.cast_zero, zero_mul, neg_zero, ite_self]
  | finite sign m e hm =>
      cases sign with
      | positive => exact .inr (.inr ⟨rfl, rfl, _, rfl, truncateBinary_finite false m e⟩)
      | negative => exact .inr (.inr ⟨rfl, rfl, _, rfl, truncateBinary_finite true m e⟩)

/-- Equality of the language with zero is that of the values. -/
theorem beq_zero_iff (x : Float) : (x == 0) = true ↔ valueOf x = some 0 := by
  show (UnpackedFloat.beq x.toModel.unpack (.zero .positive)) = true ↔ _
  unfold valueOf
  cases x.toModel.unpack with
  | notANumber => exact iff_of_false nofun nofun
  | infinity sign => cases sign <;> exact iff_of_false nofun nofun
  | zero sign => exact iff_of_true rfl rfl
  | finite sign m e hm =>
      have hne : (m : ℚ) * 2 ^ e ≠ 0 := by positivity
      cases sign with
      | positive => exact iff_of_false nofun fun h => hne (Option.some.inj h)
      | negative => exact iff_of_false nofun fun h => hne (neg_eq_zero.1 (Option.some.inj h))

/-! ## Statuses -/

/-- What becomes of a number as a status. -/
structure IsStatusOf (x : Float) (status : Int) : Prop where
  zero : (x == 0) = true → status = 0
  integer {n : ℤ} : valueOf x = some (n : ℚ) → int32Min ≤ n → n ≤ int32Max → status = n
  value {v : ℚ} : valueOf x = some v → status = clampInt32 (towardZero v)
  -- each infinity goes to the end of the range on its side
  infinite : x.isInf = true → x < 0 ∧ status = int32Min ∨ 0 < x ∧ status = int32Max
  success : status = 0 ↔ x.isNaN = true ∨ ∃ v, valueOf x = some v ∧ |v| < 1

theorem isStatusOf_toInt32 (x : Float) : IsStatusOf x (toInt32 x) := by
  -- A number is a NaN, an infinity or has a value, and each clause is about one of the three.
  rcases toInt32_cases x with ⟨hnan, hinf, hnone, hzero⟩ | ⟨hnan, hinf, hnone, hends⟩ |
    ⟨hnan, hinf, v, hv, hvalue⟩
  · rw [hzero]
    exact
      { zero := fun _ => rfl
        integer := fun h => by simp [hnone] at h
        value := fun h => by simp [hnone] at h
        infinite := fun h => by simp [hinf] at h
        success := iff_of_true rfl (.inl hnan) }
  · exact
      { zero := fun h => by simp [hnone, beq_zero_iff] at h
        integer := fun h => by simp [hnone] at h
        value := fun h => by simp [hnone] at h
        infinite := fun _ => hends
        success := by
          have hneither : ¬ (x.isNaN = true ∨ ∃ v, valueOf x = some v ∧ |v| < 1) := by
            rintro (h | ⟨v, hv, _⟩)
            · cases hnan.symm.trans h
            · cases hnone.symm.trans hv
          refine iff_of_false (fun h => ?_) hneither
          rcases hends with ⟨_, hend⟩ | ⟨_, hend⟩
          · exact absurd (hend.symm.trans h) (by decide)
          · exact absurd (hend.symm.trans h) (by decide) }
  · rw [hvalue]
    exact
      { zero := fun h => by
          rw [beq_zero_iff, hv, Option.some.injEq] at h
          rw [h]
          rfl
        integer := fun h hmin hmax => by
          rw [hv, Option.some.injEq] at h
          rw [h, towardZero_intCast, clampInt32_of_mem hmin hmax]
        value := fun h => by
          rw [hv, Option.some.injEq] at h
          rw [h]
        infinite := fun h => by simp [hinf] at h
        success := by
          rw [clampInt32_eq_zero_iff, towardZero_eq_zero_iff]
          constructor
          · exact fun hlt => .inr ⟨v, hv, hlt⟩
          · rintro (h | ⟨w, hw, hlt⟩)
            · cases hnan.symm.trans h
            · cases hv.symm.trans hw
              exact hlt }

end Number

namespace Host

open Script Machine

/-- Nobody has taken the result that was accepted last. -/
theorem untaken_accepted_append {id : String} {result : CallResult} {ds later : List Delivery}
    (h : ∀ d ∈ later, ¬ d.Accepts id ∧ ¬ d.HandsOut id) :
    Untaken id result (ds ++ [.accepted id result] ++ later) :=
  ⟨ds, later, by rw [List.append_assoc, List.singleton_append], h⟩

/-- A script that returns a result for an id that waits is told that it has succeeded. Whoever takes
the result later, with none accepted and none taken for the id in between, gets the payload together
with the status of that number, whatever else has happened. -/
theorem status_of_a_result {b : Bridge} {ds : List Delivery} {l : EventLoop Fragment} {id : String}
    (hpast : b.Past ds) (hl : b.native = .headless l) (hpending : id ∈ l.pending)
    (x : Float) (payload : String) :
    ∃ status b', Number.IsStatusOf x status ∧
      Builtin.run (.api .deliver) [.text id, .number x, .text payload] b =
        (.ok (ApiFunction.codeValue NativeError.okCode), b') ∧
      b'.Past (ds ++ [.accepted id ⟨status, payload⟩]) ∧
      ∀ (later : List Delivery) (b₂ : Bridge),
        b₂.Past (ds ++ [.accepted id ⟨status, payload⟩] ++ later) →
        (∀ d ∈ later, ¬ d.Accepts id ∧ ¬ d.HandsOut id) →
        (b₂.takeResult id).1 = some ⟨status, payload⟩ := by
  rcases hpast.agrees with ⟨l', hl', hagrees⟩
  cases hl.symm.trans hl'
  rcases hpast.accepts ((hagrees.pending id).1 hpending) with ⟨b', hresolve, hpast'⟩
  refine ⟨Number.toInt32 x, b', Number.isStatusOf_toInt32 x, ?_, hpast',
    fun later b₂ h hlater => ?_⟩
  · show ApiFunction.deliver.run [.text id, .number x, .text payload] b = _
    rw [Bridge.deliver_eq, hresolve]
    rfl
  · exact h.takeResult_eq_some.2 (untaken_accepted_append hlater)

/-- A status that is an integer of the range is taken as it was given. -/
theorem three_is_taken_as_three :
    ∃ (b b' : Bridge), b = Bridge.expectResult "7" { native := .headless (.new 4) } ∧
      Builtin.run (.api .deliver) [.text "7", .number 3, .text "no"] b =
        (.ok (ApiFunction.codeValue 0), b') ∧
      (b'.takeResult "7").1 = some ⟨3, "no"⟩ := by
  let b₀ : Bridge := { native := .headless (.new 4) }
  have hnew : b₀.Past [] := ⟨4, _, rfl, .nil⟩
  have hpast : (b₀.expectResult "7").Past ([] ++ [.called "7"]) :=
    hnew.deals (b₀.deals_expectResult "7")
  rcases status_of_a_result hpast rfl List.mem_cons_self 3 "no" with
    ⟨status, b', hstatus, hanswer, hpast', htake⟩
  -- That the literal has the value three is read off its bits.
  have hthree : Number.valueOf 3 = some ((3 : ℤ) : ℚ) := by
    have hunpack : (3 : Float).toModel.unpack =
        .finite .positive 6755399441055744 (-51) (by decide) := by rfl
    rw [Number.valueOf, hunpack]
    norm_num
  have hvalue : status = 3 := hstatus.integer hthree (by decide) (by decide)
  subst hvalue
  have htaken := htake [] b' (by rwa [List.append_nil]) nofun
  exact ⟨_, b', rfl, hanswer, htaken⟩

/-- A status of one half is taken as success. -/
theorem half_is_taken_as_success :
    let source := "func f(id, p) \x7b webview_return(id, 0.5, p) \x7d"
    let start : Session :=
      ⟨some (withApi (Vm.new {})), (Request.bind "a" "f" { native := .headless (.new 4) }).2, false⟩
    ∃ (s s' : Session) (r : Option (Except ScriptError Value)) (answer : Except NativeError Unit),
      Session.runCode 2 source start = some (r, s) ∧
      Session.callBinding 10 "a" "7" "no" s = some (answer, s') ∧
      (s'.bridge.takeResult "7").1 = some ⟨0, "no"⟩ ∧ ((0.5 : Float) == 0) = false := by
  intro source start
  have hends : ((Session.runCode 2 source start).bind fun loaded =>
      (Session.callBinding 10 "a" "7" "no" loaded.2).map fun called =>
        (called.2.bridge.takeResult "7").1) = some (some ⟨0, "no"⟩) := by
    decide +kernel
  rcases Option.bind_eq_some_iff.1 hends with ⟨⟨r, s⟩, hloaded, hthen⟩
  rcases Option.map_eq_some_iff.1 hthen with ⟨⟨answer, s'⟩, hcalled, htaken⟩
  exact ⟨s, s', r, answer, hloaded, hcalled, htaken, by decide +kernel⟩

end Host
end ScriptHost
