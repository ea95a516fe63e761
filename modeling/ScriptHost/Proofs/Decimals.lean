import ScriptHost.Proofs.Rounding
import ScriptHost.Script.Lexer

/-!
# Decimals

A numeral denotes the floating-point number nearest to it, to the even one of two, or infinity if it
is too large (`Lexer.isRoundingOf_numeralValue`). How it is read depends on its length: a short one
is one division of two numbers that are exact, and a long one is a division of two naturals of any
size. Either way there is a single rounding.
-/

namespace ScriptHost
namespace Number

open Float.Model UnpackedFloat

/-! ## Operations -/

section Operations

variable {m m₁ m₂ : ℕ} {e e₁ e₂ : ℤ}

/-- What a remainder tells of the bits behind the quotient. -/
theorem lies_accuracyOfFraction {num den : ℕ} (h : num < den) :
    Lies (m + num / den) m (accuracyOfFraction num den) := by
  have hden : (0 : ℚ) < den := by exact_mod_cast Nat.zero_lt_of_lt h
  have hone : (num : ℚ) / den < 1 := (div_lt_one hden).2 (by exact_mod_cast h)
  unfold accuracyOfFraction
  split_ifs with hzero
  · simp [Lies, hzero]
  · have hpos : (0 : ℚ) < num := by exact_mod_cast Nat.pos_of_ne_zero hzero
    have hsome : 0 < (num : ℚ) / den := div_pos hpos hden
    -- The remainder is compared with half the divisor.
    rcases lt_trichotomy (2 * num) den with hlt | heq | hgt
    · have hhalf : (num : ℚ) / den < 1 / 2 := by
        have hlt' : (2 * num : ℚ) < den := by exact_mod_cast hlt
        rw [div_lt_iff₀ hden]
        linarith
      rw [compare_lt_iff_lt.2 hlt]
      exact ⟨by linarith, by linarith⟩
    · have hhalf : (num : ℚ) / den = 1 / 2 := by
        have heq' : (2 * num : ℚ) = den := by exact_mod_cast heq
        rw [div_eq_iff hden.ne']
        linarith
      rw [compare_eq_iff_eq.2 heq, hhalf]
      exact rfl
    · have hhalf : 1 / 2 < (num : ℚ) / den := by
        have hgt' : (den : ℚ) < 2 * num := by exact_mod_cast hgt
        rw [lt_div_iff₀ hden]
        linarith
      rw [compare_gt_iff_gt.2 hgt]
      exact ⟨by linarith, by linarith⟩

/-- The quotient of two numbers is rounded once. -/
theorem div_eq (hm₁ : 0 < m₁) (hm₂ : 0 < m₂) :
    ∃ r t, RoundsTo (m₁ * 2 ^ e₁ / (m₂ * 2 ^ e₂)) r t ∧
      UnpackedFloat.div Format.binary64 (.finite .positive m₁ e₁ hm₁)
        (.finite .positive m₂ e₂ hm₂) = ofUnits r t := by
  let total : ℤ := totalExponent m₁ e₁ - totalExponent m₂ e₂
  let e : ℤ := min (e₁ - e₂) (Format.binary64.targetExponent total)
  obtain ⟨k, hk⟩ : ∃ k : ℕ, (k : ℤ) = e₁ - e₂ - e := ⟨(e₁ - e₂ - e).toNat, by omega⟩
  have hshift : (e₁ - e₂ - e).toNat = k := by omega
  let n := m₁ <<< k
  have hlies : Lies ((m₁ * 2 ^ e₁ / (m₂ * 2 ^ e₂)) / 2 ^ e) (n / m₂)
      (accuracyOfFraction (n % m₂) m₂) := by
    have hquotient : (m₁ * 2 ^ e₁ / (m₂ * 2 ^ e₂) / 2 ^ e : ℚ) =
        (n / m₂ : ℕ) + ((n % m₂ : ℕ) : ℚ) / m₂ := by
      have hm₂' : (m₂ : ℚ) ≠ 0 := by exact_mod_cast hm₂.ne'
      have hn : (m₁ * 2 ^ k : ℚ) = m₂ * (n / m₂ : ℕ) + (n % m₂ : ℕ) := by
        have hsum : m₁ * 2 ^ k = m₂ * (n / m₂) + n % m₂ := by
          rw [Nat.div_add_mod, ← Nat.shiftLeft_eq]
        exact_mod_cast hsum
      have he₁ : e₁ = e₂ + e + k := by omega
      calc
        (m₁ * 2 ^ e₁ / (m₂ * 2 ^ e₂) / 2 ^ e : ℚ) = m₁ * 2 ^ k / m₂ := by
          rw [he₁, zpow_add₀ two_ne_zero, zpow_add₀ two_ne_zero, zpow_natCast]
          field_simp
        _ = (n / m₂ : ℕ) + ((n % m₂ : ℕ) : ℚ) / m₂ := by
          rw [hn, add_div, mul_div_cancel_left₀ _ hm₂']
    rw [hquotient]
    exact lies_accuracyOfFraction (Nat.mod_lt _ hm₂)
  have he : e ≤ unitExponent (n / m₂) e := by
    have htarget : e ≤ max (total - 53) (-1074) := min_le_right _ _
    have htotal : total = m₁.log2 + e₁ - (m₂.log2 + e₂) := by
      simp only [total, totalExponent]
      omega
    rcases le_or_gt e (-1074) with hleast | hmore
    · exact hleast.trans (le_max_right _ _)
    · -- the quotient has been taken with 53 bits at least
      have hbits : 2 ^ 52 * m₂ ≤ n :=
        calc
          2 ^ 52 * m₂ ≤ 2 ^ 52 * 2 ^ (m₂.log2 + 1) := Nat.mul_le_mul_left _ Nat.lt_log2_self.le
          _ = 2 ^ (52 + (m₂.log2 + 1)) := (pow_add 2 _ _).symm
          _ ≤ 2 ^ (m₁.log2 + k) := Nat.pow_le_pow_right (by decide) (by omega)
          _ = 2 ^ m₁.log2 * 2 ^ k := pow_add 2 _ _
          _ ≤ m₁ * 2 ^ k := Nat.mul_le_mul_right _ (Nat.log2_self_le hm₁.ne')
          _ = n := (Nat.shiftLeft_eq _ _).symm
      have hquotient : 2 ^ 52 ≤ n / m₂ := (Nat.le_div_iff_mul_le hm₂).2 hbits
      have hlog : 52 ≤ (n / m₂).log2 := (Nat.le_log2 (by omega)).2 hquotient
      unfold unitExponent
      omega
  rcases roundWithAccuracy_eq hlies he with ⟨r, hrounds, heq⟩
  refine ⟨r, _, hrounds, ?_⟩
  rw [← heq]
  show roundWithAccuracy Format.binary64 .positive ((m₁ <<< (e₁ - e₂ - e).toNat) / m₂) e _ = _
  rw [hshift]

/-- Every zero behind a mantissa makes it longer by one bit. -/
theorem log2_shiftLeft (hm : 0 < m) (k : ℕ) : (m <<< k).log2 = m.log2 + k := by
  have hlo := Nat.log2_self_le hm.ne'
  have hhi : m < 2 ^ (m.log2 + 1) := Nat.lt_log2_self
  rw [Nat.shiftLeft_eq]
  refine (Nat.log2_eq_iff (by positivity)).2 ⟨?_, ?_⟩
  · rw [pow_add]
    exact Nat.mul_le_mul_right _ hlo
  · rw [add_right_comm, pow_add]
    exact Nat.mul_lt_mul_of_pos_right hhi (by positivity)

/-- A mantissa with zeros behind it. -/
theorem lies_shiftLeft (e : ℤ) (k : ℕ) : Lies (m * 2 ^ e / 2 ^ (e - k)) (m <<< k) .exact := by
  show (m * 2 ^ e / 2 ^ (e - k) : ℚ) = (m <<< k : ℕ)
  have he : e = e - k + k := by omega
  rw [Nat.shiftLeft_eq, div_eq_iff (by positivity)]
  push_cast
  nth_rewrite 1 [he]
  rw [zpow_add₀ two_ne_zero, zpow_natCast]
  ring

/-- Zeros behind the bits of a mantissa make no difference to what is rounded. -/
theorem roundWithAccuracy_shiftLeft (hm : 0 < m) {k : ℕ} (he : e - k ≤ unitExponent m e) :
    ∃ r, RoundsTo (m * 2 ^ e) r (unitExponent m e) ∧
      roundWithAccuracy Format.binary64 .positive (m <<< k) (e - k) .exact =
        ofUnits r (unitExponent m e) := by
  have hsame : unitExponent (m <<< k) (e - k) = unitExponent m e := by
    unfold unitExponent
    rw [log2_shiftLeft hm]
    omega
  have hrounds := roundWithAccuracy_eq (lies_shiftLeft e k) (he.trans hsame.ge)
  rwa [hsame] at hrounds

/-- A number that has a mantissa and an exponent is rounded once. -/
theorem round_eq (hm : 0 < m) (e : ℤ) :
    ∃ r, RoundsTo (m * 2 ^ e) r (unitExponent m e) ∧
      UnpackedFloat.round Format.binary64 .positive m e = ofUnits r (unitExponent m e) := by
  have hround : UnpackedFloat.round Format.binary64 .positive m e =
      roundWithAccuracy Format.binary64 .positive (m <<< (e - unitExponent m e).toNat)
        (e - (e - unitExponent m e).toNat) .exact := by
    rw [UnpackedFloat.round, targetExponent_eq]
    rfl
  rw [hround]
  exact roundWithAccuracy_shiftLeft hm (by omega)

end Operations

/-! ## Numbers in decimal -/

/-- Naturals of 53 bits are floating-point numbers. -/
theorem unpack_toFloat {n : ℕ} (hpos : 0 < n) (hn : n < 2 ^ 53) :
    ∃ m e h, n.toUInt64.toFloat.toModel.unpack = .finite .positive m e h ∧
      (m * 2 ^ e : ℚ) = n := by
  have hround : UnpackedFloat.ofNat Format.binary64 n.toUInt64.toNat =
      UnpackedFloat.round Format.binary64 .positive n 0 := by
    have hsame : n.toUInt64.toNat = n := Nat.mod_eq_of_lt (by omega)
    rw [hsame, UnpackedFloat.ofNat, UnpackedFloat.ofInt, UnpackedFloat.normalize,
      Int.compare_eq_gt.2 (by exact_mod_cast hpos)]
    rfl
  rcases round_eq hpos 0 with ⟨r, hrounds, heq⟩
  -- Below this bound the unit is a whole number or a fraction of one, so nothing is rounded off.
  have ht : unitExponent n 0 ≤ 0 := by
    have hlog := log2_le_of_lt hn
    unfold unitExponent
    omega
  rw [zpow_zero, mul_one] at hrounds
  have hexact := hrounds.exact ht
  have hrpos : 0 < r := by
    refine Nat.pos_of_ne_zero fun hzero => hpos.ne' ?_
    rw [hzero, Nat.cast_zero, zero_mul] at hexact
    exact_mod_cast hexact.symm
  rcases ofUnits_eq hrpos hrounds.le (unitExponent n 0) with ⟨m, e, hm, hunits, hvalue, -⟩
  refine ⟨m, e, hm, ?_, hvalue.trans hexact⟩
  have hstored : n.toUInt64.toFloat = stored r (unitExponent n 0) := by
    show Float.ofModel (Float.Model.pack (UnpackedFloat.ofNat Format.binary64 n.toUInt64.toNat)) = _
    rw [hround, heq]
    rfl
  rw [hstored, ← hunits]
  rcases hrounds.unpack_stored with ⟨hkept, -⟩ | ⟨-, hlarge⟩
  · exact hkept
  · omega

/-- Whether the number is that power of ten. -/
def isPower (i : ℕ) : UnpackedFloat → Bool
  | .finite .positive m e _ => m * 2 ^ e.toNat == 10 ^ i * 2 ^ (-e).toNat
  | _ => false

/-- The check is made with naturals alone. -/
theorem exists_of_isPower {i : ℕ} {u : UnpackedFloat} (h : isPower i u = true) :
    ∃ m e h, u = .finite .positive m e h ∧ (m * 2 ^ e : ℚ) = 10 ^ i := by
  unfold isPower at h
  split at h
  · rename_i m e hm
    have hnat : (m : ℚ) * 2 ^ e.toNat = 10 ^ i * 2 ^ (-e).toNat := by
      exact_mod_cast of_decide_eq_true h
    refine ⟨m, e, hm, rfl, ?_⟩
    have he : e = e.toNat - (-e).toNat := by omega
    rw [he, zpow_sub₀ two_ne_zero, zpow_natCast, zpow_natCast, ← mul_div_assoc, hnat,
      mul_div_cancel_right₀ _ (by positivity)]
  · cases h

/-- So are the first powers of ten. -/
theorem unpack_powerOfTen {k : ℕ} (hk : k < Float.exactlyRepresentablePowersOfTen.size) :
    ∃ m e h, Float.exactlyRepresentablePowersOfTen[k].toModel.unpack = .finite .positive m e h ∧
      (m * 2 ^ e : ℚ) = 10 ^ k := by
  refine exists_of_isPower ?_
  -- a table of some twenty numbers
  revert k
  decide +kernel

/-- A power of ten that is out of range leaves nothing. -/
theorem quotient_le {m k : ℕ} (hk : 2048 + m.log2 < k) :
    (m / 10 ^ k : ℚ) ≤ 2 ^ (-1075 : ℤ) := by
  have hm : (m : ℚ) ≤ 2 ^ (m.log2 + 1) := by exact_mod_cast Nat.lt_log2_self.le
  have hten : (2 : ℚ) ^ k ≤ 10 ^ k := pow_le_pow_left₀ (by norm_num) (by norm_num) k
  calc
    (m / 10 ^ k : ℚ) ≤ 2 ^ (m.log2 + 1) / 2 ^ k :=
        div_le_div₀ (by positivity) hm (by positivity) hten
    _ = 2 ^ ((m.log2 + 1 : ℕ) - k : ℤ) := by
        rw [zpow_sub₀ two_ne_zero, zpow_natCast, zpow_natCast]
    _ ≤ 2 ^ (-1075 : ℤ) := zpow_le_zpow_right₀ one_le_two (by omega)

/-- Whatever way is taken, a natural over a power of ten is rounded once. -/
theorem ofScientific_eq (m k : ℕ) :
    ∃ r t, RoundsTo (m / 10 ^ k) r t ∧
      UnpackedFloat.ofScientific Format.binary64 m (Int.negOfNat k) = ofUnits r t := by
  have hexponent : Int.negOfNat k = -k := by
    cases k <;> rfl
  rw [hexponent, UnpackedFloat.ofScientific]
  split_ifs with hzero hlarge hsmall hwhole
  · refine ⟨0, -1074, .none (by positivity) ?_, rfl⟩
    rw [hzero, Nat.cast_zero, zero_div]
    positivity
  · have hbound : (2048 : ℤ) < -k := hlarge
    omega
  · refine ⟨0, -1074, .none (by positivity) (quotient_le ?_), rfl⟩
    have hbound : -(k : ℤ) < -(2048 + m.log2) := hsmall
    omega
  · -- nothing to divide by
    obtain rfl : k = 0 := by omega
    have he : (0 : ℤ) - Format.binary64.mantissaBits ≤ unitExponent m 0 := by
      show (0 : ℤ) - 53 ≤ max _ _
      omega
    rcases roundWithAccuracy_shiftLeft (Nat.pos_of_ne_zero hzero) he with ⟨r, hrounds, heq⟩
    refine ⟨r, unitExponent m 0, ?_, ?_⟩
    · rwa [zpow_zero, mul_one, ← div_one (m : ℚ), ← pow_zero 10] at hrounds
    · rw [zero_sub] at heq
      simp only [UnpackedFloat.mul, Nat.cast_zero, neg_zero, Int.toNat_zero, pow_zero, mul_one,
        add_zero]
      exact heq
  · have hten : (-(-k : ℤ)).toNat = k := by omega
    simp only [hten]
    have hpower : 0 < 10 ^ k := Nat.pow_pos (by decide)
    rcases @div_eq m (10 ^ k) 0 0 (Nat.pos_of_ne_zero hzero) hpower with ⟨r, t, hrounds, heq⟩
    refine ⟨r, t, ?_, heq⟩
    rwa [zpow_zero, mul_one, mul_one, Nat.cast_pow, Nat.cast_ofNat] at hrounds

/-- A natural over a power of ten is rounded once. -/
theorem isRoundingOf_ofScientific (m k : ℕ) :
    IsRoundingOf ((m : ℚ) / 10 ^ k) (Float.ofScientific m true k) := by
  rw [Float.ofScientific]
  split
  · -- few digits and a small exponent: one division of exact numbers
    rename_i hfast
    rcases hfast with ⟨hm, hk⟩
    have hsize : k < Float.exactlyRepresentablePowersOfTen.size := Nat.lt_succ_of_le hk
    rcases unpack_powerOfTen hsize with ⟨m₂, e₂, hm₂, hten, hvalue₂⟩
    show IsRoundingOf _ (Float.ofModel (Float.Model.pack
      (UnpackedFloat.div Format.binary64 m.toUInt64.toFloat.toModel.unpack _)))
    rw [hten]
    rcases Nat.eq_zero_or_pos m with rfl | hpos
    · rw [Nat.cast_zero, zero_div]
      exact (RoundsTo.none le_rfl (by positivity)).isRoundingOf
    · rcases unpack_toFloat hpos hm with ⟨m₁, e₁, hm₁, hnatural, hvalue₁⟩
      rcases @div_eq m₁ m₂ e₁ e₂ hm₁ hm₂ with ⟨r, t, hrounds, heq⟩
      rw [hvalue₁, hvalue₂] at hrounds
      rw [hnatural, heq]
      exact hrounds.isRoundingOf
  · rcases ofScientific_eq m k with ⟨r, t, hrounds, heq⟩
    show IsRoundingOf _ (Float.ofModel (Float.Model.pack
      (UnpackedFloat.ofScientific Format.binary64 m (Int.negOfNat k))))
    rw [heq]
    exact hrounds.isRoundingOf

/-! ## Numerals -/

/-- Digits that follow move those before them to the left. -/
theorem numeralValue_append (base : ℕ) (cs ds : List Char) :
    numeralValue base (cs ++ ds) =
      numeralValue base cs * base ^ ds.length + numeralValue base ds := by
  induction ds generalizing cs with
  | nil => simp [numeralValue]
  | cons d ds ih =>
      have hfirst : numeralValue base (d :: ds) = digitValue d * base ^ ds.length +
          numeralValue base ds := by
        have hone : numeralValue base [d] = digitValue d := by
          simp [numeralValue]
        rw [← hone]
        exact ih [d]
      rw [List.append_cons, ih, numeralValue_append_singleton, hfirst, List.length_cons, pow_succ]
      ring

end Number

namespace Script

/-- A numeral denotes the number nearest to it, or infinity if it is too large. -/
theorem Lexer.isRoundingOf_numeralValue (whole fraction : List Char) :
    Number.IsRoundingOf
      (Number.numeralValue 10 whole + Number.numeralValue 10 fraction / 10 ^ fraction.length)
      (numeralValue whole fraction) := by
  have hdigits : (Number.numeralValue 10 (whole ++ fraction) : ℚ) / 10 ^ fraction.length =
      Number.numeralValue 10 whole + Number.numeralValue 10 fraction / 10 ^ fraction.length := by
    rw [Number.numeralValue_append]
    push_cast
    rw [add_div, mul_div_cancel_right₀ _ (by positivity)]
  rw [← hdigits]
  exact Number.isRoundingOf_ofScientific _ _

end Script
end ScriptHost
