import ScriptHost.Proofs.Decimals

/-!
# Numbers that numerals denote

Equality of the language does not tell the two zeros apart and no NaN from itself. Neither a
negative zero nor a NaN can be written as a numeral, however: what a numeral denotes is a number of
positive sign, infinity included. Among such numbers equality of the language is identity, and so
it does no harm that a constant of a function may serve several literals.
-/

namespace ScriptHost
namespace Number

open Float.Model Float.Model.UnpackedFloat

/-! ## Numbers of positive sign -/

/-- Of positive sign, and a number. -/
inductive IsPositive : UnpackedFloat → Prop
  | infinity : IsPositive (.infinity .positive)
  | zero : IsPositive (.zero .positive)
  | finite {m e h} : IsPositive (.finite .positive m e h)

/-- Neither a NaN nor a number of negative sign. -/
def IsPlain (x : Float) : Prop :=
  IsPositive x.toModel.unpack

/-! ## Equality -/

theorem not_isPlain_neg_zero : ¬IsPlain (-0) := by
  intro h
  cases (show IsPositive (.zero .negative) from h)

/-- Among plain numbers, equality of the language is identity. -/
theorem eq_of_beq_of_plain {x y : Float} (hx : IsPlain x) (hy : IsPlain y)
    (h : (x == y) = true) : x = y := by
  rcases Float.beq_iff_ne_nan_and_eq.1 h with ⟨-, -, hsame | ⟨-, rfl⟩ | ⟨rfl, -⟩⟩
  · exact hsame
  · exact absurd hy not_isPlain_neg_zero
  · exact absurd hx not_isPlain_neg_zero

/-! ## Operations that keep the sign -/

/-- The sign is in the first bit, and a NaN in the last exponent. -/
theorem isPositive_unpack {b : BitVec Format.binary64.numBits} (hsign : unpackSign b = 0#1)
    (hnumber : unpackExponent b ≠ -1#11 ∨ unpackMantissa b = 0#52) :
    IsPositive (UnpackedFloat.unpack Format.binary64 b) := by
  have hpositive : Sign.ofBitVec (unpackSign b) = .positive := by
    rw [hsign]
    rfl
  unfold UnpackedFloat.unpack
  simp only [hpositive]
  split
  · rename_i he
    rw [if_pos (hnumber.resolve_left (absurd he))]
    exact .infinity
  · split
    · split
      · exact .zero
      · exact .finite
    · exact .finite

/-- Rounding into the format keeps the sign. -/
theorem isPlain_pack {u : UnpackedFloat} (hu : IsPositive u) :
    IsPlain (Float.ofModel (Float.Model.pack u)) := by
  have hcomponents (e : BitVec 11) (m : BitVec 52) (hnumber : e ≠ -1#11 ∨ m = 0#52) :
      IsPositive (UnpackedFloat.unpack Format.binary64
        (packComponents Format.binary64 .positive e m)) := by
    refine isPositive_unpack (by rw [unpackSign_packComponents]; rfl) ?_
    rwa [unpackExponent_packComponents, unpackMantissa_packComponents]
  show IsPositive (UnpackedFloat.unpack Format.binary64 (UnpackedFloat.pack Format.binary64 u))
  cases hu with
  | infinity => exact hcomponents _ _ (.inr rfl)
  | zero => exact hcomponents _ _ (.inr rfl)
  | @finite m e h =>
      -- too large for the format, normal, or subnormal
      simp only [UnpackedFloat.pack]
      split
      · exact hcomponents _ _ (.inr rfl)
      · rename_i hsmall
        split
        · refine hcomponents _ _ (.inl ?_)
          intro hlast
          have htoNat := congrArg BitVec.toNat hlast
          simp only [BitVec.toNat_ofNat] at htoNat
          simp at htoNat hsmall
          omega
        · exact hcomponents _ _ (.inl (by decide))

/-- Rounding gives zero or a number of the same sign. -/
theorem isPositive_roundWithAccuracy (m : Nat) (e : Int) (c : Accuracy) :
    IsPositive (roundWithAccuracy Format.binary64 .positive m e c) := by
  simp only [roundWithAccuracy]
  split
  · exact .zero
  · exact .finite

theorem isPositive_ofNat (n : Nat) : IsPositive (UnpackedFloat.ofNat Format.binary64 n) := by
  simp only [UnpackedFloat.ofNat, UnpackedFloat.ofInt, UnpackedFloat.normalize]
  split
  · rename_i h
    rw [Int.compare_eq_lt] at h
    omega
  · exact .zero
  · exact isPositive_roundWithAccuracy _ _ _

/-- A quotient of positive numbers is one, even if it is infinite or zero. -/
theorem isPositive_div {u v : UnpackedFloat} (hu : IsPositive u)
    (hv : ∃ m e h, v = .finite .positive m e h) :
    IsPositive (UnpackedFloat.div Format.binary64 u v) := by
  rcases hv with ⟨m, e, h, rfl⟩
  cases hu with
  | infinity => exact .infinity
  | zero => exact .zero
  | finite => exact isPositive_roundWithAccuracy _ _ _

/-! ## Numerals -/

/-- Neither a NaN nor a negative zero comes from a natural. -/
theorem isPlain_toFloat (n : UInt64) : IsPlain n.toFloat :=
  isPlain_pack (isPositive_ofNat n.toNat)

theorem isPlain_div {x y : Float} (hx : IsPlain x)
    (hy : ∃ m e h, y.toModel.unpack = .finite .positive m e h) : IsPlain (x / y) :=
  isPlain_pack (isPositive_div hx hy)

theorem isPositive_ofScientific (m e : Nat) :
    IsPositive (UnpackedFloat.ofScientific Format.binary64 m (Int.negOfNat e)) := by
  unfold UnpackedFloat.ofScientific
  split
  · exact .zero
  · split
    · exact .infinity
    · split
      · exact .zero
      · split
        · exact isPositive_roundWithAccuracy _ _ _
        · exact isPositive_div .finite ⟨_, _, _, rfl⟩

/-- Neither comes from a numeral, however long it is. -/
theorem isPlain_ofScientific (m e : Nat) : IsPlain (Float.ofScientific m true e) := by
  unfold Float.ofScientific
  split
  · -- few digits and a small exponent: one division of exact numbers
    rename_i h
    rcases unpack_powerOfTen (Nat.lt_succ_of_le h.2) with ⟨m₂, e₂, hm₂, hten, -⟩
    exact isPlain_div (isPlain_toFloat _) ⟨m₂, e₂, hm₂, hten⟩
  -- otherwise the quotient is rounded as a whole
  · exact isPlain_pack (isPositive_ofScientific m e)

end Number
end ScriptHost
