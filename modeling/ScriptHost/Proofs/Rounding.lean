import Mathlib
import ScriptHost.Number.Binary64

/-!
# Rounding

What Lean's floating-point numbers do with a result that has more bits than they can hold. A result
is a mantissa with what is known of the bits behind it; it is cut off where 53 bits end, or where
the least numbers end, and rounded to the nearest whole number of units, to the even one of two.
Then it is stored. No finite floating-point number is nearer to the result than that which is
stored for it, and infinity is stored from that number on which is as near to the largest finite
number as to the next one that there would be (`RoundsTo.isRoundingOf`).
-/

namespace ScriptHost
namespace Number

open Float.Model UnpackedFloat

/-! ## Nearest naturals -/

/-- The natural nearest to a number, and the even one of two. -/
structure IsNearestNat (x : ℚ) (r : ℕ) : Prop where
  near : |x - r| ≤ 1 / 2
  even : |x - r| = 1 / 2 → Even r

/-- What is known of a number whose whole part is a mantissa: whether there is nothing behind it,
or less than one half, one half, or more. -/
def Lies (x : ℚ) (m : ℕ) : Accuracy → Prop
  | .exact => x = m
  | .inexact .lt => m < x ∧ x < m + 1 / 2
  | .inexact .eq => x = m + 1 / 2
  | .inexact .gt => m + 1 / 2 < x ∧ x < m + 1

section Lies

variable {x : ℚ} {m : ℕ} {a : Accuracy}

/-- The mantissa is the whole part. -/
theorem Lies.bounds (h : Lies x m a) : m ≤ x ∧ x < m + 1 := by
  cases a with
  | exact =>
      rw [show x = m from h]
      constructor <;> linarith
  | inexact o =>
      cases o with
      | lt =>
          rcases h with ⟨hlo, hhi⟩
          constructor <;> linarith
      | eq =>
          rw [show x = m + 1 / 2 from h]
          constructor <;> linarith
      | gt =>
          rcases h with ⟨hlo, hhi⟩
          constructor <;> linarith

/-- Rounding a mantissa takes it to the nearest natural. -/
theorem Lies.nearest (h : Lies x m a) : IsNearestNat x (a.roundToNearestEven m) := by
  cases a with
  | exact =>
      rw [show x = m from h]
      constructor <;> simp [Accuracy.roundToNearestEven]
  | inexact o =>
      cases o with
      | lt =>
          rcases h with ⟨hlo, hhi⟩
          have habs : |x - m| < 1 / 2 := by
            rw [abs_lt]
            constructor <;> linarith
          exact ⟨habs.le, fun htie => absurd htie habs.ne⟩
      | eq =>
          have hx : x = m + 1 / 2 := h
          -- one of the two neighbours is even
          rcases Nat.even_or_odd m with hm | hm
          · have hr : Accuracy.roundToNearestEven m (.inexact .eq) = m := by
              show m + m % 2 = m
              rw [Nat.even_iff.1 hm, add_zero]
            rw [hr, hx]
            refine ⟨?_, fun _ => hm⟩
            norm_num
          · have hr : Accuracy.roundToNearestEven m (.inexact .eq) = m + 1 := by
              show m + m % 2 = m + 1
              rw [Nat.odd_iff.1 hm]
            rw [hr, hx]
            refine ⟨?_, fun _ => hm.add_one⟩
            push_cast
            norm_num
      | gt =>
          rcases h with ⟨hlo, hhi⟩
          have habs : |x - (m + 1 : ℕ)| < 1 / 2 := by
            push_cast
            rw [abs_lt]
            constructor <;> linarith
          exact ⟨habs.le, fun htie => absurd htie habs.ne⟩

/-- The number as a sum: the mantissa, one half if the round bit is set, and something smaller than
one half if the sticky bit is. -/
theorem lies_bits_iff {n : ℕ} {round sticky : Bool} :
    Lies x m (ExtendedMantissa.accuracy ⟨n, round, sticky⟩) ↔ ∃ rest : ℚ,
      x = m + (if round then 1 / 2 else 0) + rest ∧
        if sticky then 0 < rest ∧ rest < 1 / 2 else rest = 0 := by
  cases sticky with
  | false => cases round <;> simp [ExtendedMantissa.accuracy, Lies]
  | true =>
      constructor
      · intro h
        -- What is left when the round bit has been taken off.
        refine ⟨x - (m + if round then 1 / 2 else 0), by ring, ?_⟩
        cases round with
        | false =>
            rcases h with ⟨hlo, hhi⟩
            constructor <;> norm_num <;> linarith
        | true =>
            rcases h with ⟨hlo, hhi⟩
            constructor <;> norm_num <;> linarith
      · rintro ⟨rest, rfl, hlo, hhi⟩
        cases round with
        | false => constructor <;> norm_num <;> linarith
        | true => constructor <;> norm_num <;> linarith

/-- A shift by one bit loses nothing that matters: the last bit of the mantissa becomes the round
bit, and the round bit goes where only whether there is anything is kept. -/
theorem Lies.shiftRightOne {em : ExtendedMantissa} (h : Lies x em.mantissa em.accuracy) :
    Lies (x / 2) em.shiftRightOne.mantissa em.shiftRightOne.accuracy := by
  rcases em with ⟨m, round, sticky⟩
  rcases lies_bits_iff.1 h with ⟨rest, rfl, hrest⟩
  show Lies _ (m / 2) (ExtendedMantissa.accuracy ⟨m / 2, m % 2 != 0, round || sticky⟩)
  -- the old round bit becomes a quarter
  refine lies_bits_iff.2 ⟨(if round then 1 / 4 else 0) + rest / 2, ?_, ?_⟩
  · have hhalves : (m : ℚ) = 2 * (m / 2 : ℕ) + (m % 2 : ℕ) := by
      exact_mod_cast (Nat.div_add_mod m 2).symm
    have hbit : (if (m % 2 != 0) = true then 1 / 2 else 0 : ℚ) = (m % 2 : ℕ) / 2 := by
      rcases Nat.mod_two_eq_zero_or_one m with hm | hm <;> simp [hm]
    rw [hbit, hhalves]
    cases round <;> norm_num <;> ring
  · cases sticky with
    | false =>
        rw [show rest = 0 from hrest]
        cases round <;> norm_num
    | true =>
        rcases hrest with ⟨hlo, hhi⟩
        rw [Bool.or_true, if_pos rfl]
        cases round with
        | false => constructor <;> norm_num <;> linarith
        | true => constructor <;> norm_num <;> linarith

theorem Lies.shiftRight {em : ExtendedMantissa} (h : Lies x em.mantissa em.accuracy) (n : ℕ) :
    Lies (x / 2 ^ n) (em >>> n).mantissa (em >>> n).accuracy := by
  induction n with
  | zero =>
      rw [pow_zero, div_one]
      exact h
  | succ n ih =>
      have hnext : em >>> (n + 1) = (em >>> n).shiftRightOne := rfl
      rw [hnext, pow_succ, ← div_div]
      exact ih.shiftRightOne

end Lies

/-! ## Units -/

/-- The exponent of the unit of which a number is a multiple after rounding, if its mantissa begins
like `m`: there is room for 53 bits, and none behind those of the least numbers. -/
def unitExponent (m : ℕ) (e : ℤ) : ℤ :=
  max (m.log2 + e - 52) (-1074)

/-- So many units, as they are stored. One more than 53 bits can tell is written with larger
units. -/
def ofUnits (r : ℕ) (t : ℤ) : UnpackedFloat :=
  if h : r = 0 then .zero .positive
  else if r < 2 ^ 53 then .finite .positive r t (Nat.pos_of_ne_zero h)
  else .finite .positive (2 ^ 52) (t + 1) (by decide)

/-- A number is rounded to the nearest multiple of a unit that is as small as 53 bits allow. -/
structure RoundsTo (q : ℚ) (r : ℕ) (t : ℤ) : Prop where
  least : -1074 ≤ t
  upper : q / 2 ^ t < 2 ^ 53
  lower : t ≠ -1074 → 2 ^ 52 ≤ q / 2 ^ t
  nearest : IsNearestNat (q / 2 ^ t) r

section Units

variable {q : ℚ} {m r : ℕ} {e t : ℤ} {a : Accuracy}

/-- This is the exponent that Lean's rounding aims at. -/
theorem targetExponent_eq :
    Format.binary64.targetExponent (totalExponent m e) = unitExponent m e := by
  simp only [Format.targetExponent, totalExponent, Format.mantissaBits, Format.minExponent,
    unitExponent]
  norm_num
  omega

/-- Rounding does not go past a natural. -/
theorem IsNearestNat.le_of_lt {x : ℚ} {n : ℕ} (h : IsNearestNat x r) (hx : x < n) : r ≤ n := by
  have hnear := (abs_le.1 h.near).1
  have hlt : (r : ℚ) < n + 1 := by linarith
  exact Nat.lt_succ_iff.1 (by exact_mod_cast hlt)

theorem IsNearestNat.le_of_le {x : ℚ} {n : ℕ} (h : IsNearestNat x r) (hx : n ≤ x) : n ≤ r := by
  have hnear := (abs_le.1 h.near).2
  have hlt : (n : ℚ) < r + 1 := by linarith
  exact Nat.lt_succ_iff.1 (by exact_mod_cast hlt)

/-- There are so many units at most. -/
theorem RoundsTo.le (h : RoundsTo q r t) : r ≤ 2 ^ 53 :=
  h.nearest.le_of_lt (by exact_mod_cast h.upper)

/-- Units that could be smaller are at least so many. -/
theorem RoundsTo.ge (h : RoundsTo q r t) (ht : t ≠ -1074) : 2 ^ 52 ≤ r :=
  h.nearest.le_of_le (by exact_mod_cast h.lower ht)

theorem log2_le_of_lt (h : r < 2 ^ 53) : r.log2 ≤ 52 := by
  rcases Nat.eq_zero_or_pos r with rfl | hr
  · decide
  · exact Nat.lt_succ_iff.1 ((Nat.log2_lt hr.ne').2 h)

theorem shiftToTargetExponent_eq {k : ℕ} (hk : (unitExponent m e - e).toNat = k) :
    shiftToTargetExponent Format.binary64 m e a =
      (ExtendedMantissa.ofMantissaAndAccuracy m a >>> k, e + k) := by
  unfold shiftToTargetExponent shiftToExponent
  rw [targetExponent_eq, ← hk]

/-- A number of units that has been rounded is shifted by one bit at most. -/
theorem finalForm_eq (ht : -1074 ≤ t) (hr : r ≤ 2 ^ 53) :
    (if h : (shiftToTargetExponent Format.binary64 r t .exact).1.mantissa = 0 then .zero .positive
      else .finite .positive (shiftToTargetExponent Format.binary64 r t .exact).1.mantissa
        (shiftToTargetExponent Format.binary64 r t .exact).2 (Nat.pos_of_ne_zero h)) =
      ofUnits r t := by
  rcases hr.lt_or_eq with hlt | rfl
  · -- there is room for all the bits
    have hsame : unitExponent r t ≤ t := by
      have hlog := log2_le_of_lt hlt
      unfold unitExponent
      omega
    have hshift : shiftToTargetExponent Format.binary64 r t .exact = (⟨r, false, false⟩, t) := by
      rw [shiftToTargetExponent_eq (Int.toNat_of_nonpos (by omega))]
      exact Prod.ext rfl (add_zero t)
    simp only [hshift, ofUnits, if_pos hlt]
  · have hnext : unitExponent (2 ^ 53) t = t + 1 := by
      unfold unitExponent
      rw [Nat.log2_two_pow]
      omega
    have hshift : shiftToTargetExponent Format.binary64 (2 ^ 53) t .exact =
        (⟨2 ^ 52, false, false⟩, t + 1) := by
      have hone : (unitExponent (2 ^ 53) t - t).toNat = 1 := by
        rw [hnext, add_sub_cancel_left]
        rfl
      rw [shiftToTargetExponent_eq hone]
      rfl
    simp only [hshift]
    rfl

/-- Rounding with what is known of the bits behind the mantissa. -/
theorem roundWithAccuracy_eq (hq : Lies (q / 2 ^ e) m a) (he : e ≤ unitExponent m e) :
    ∃ r, RoundsTo q r (unitExponent m e) ∧
      roundWithAccuracy Format.binary64 .positive m e a = ofUnits r (unitExponent m e) := by
  generalize ht : unitExponent m e = t at he
  obtain ⟨k, rfl⟩ : ∃ k : ℕ, t = e + k := ⟨(t - e).toNat, by omega⟩
  have hscale : q / 2 ^ (e + k : ℤ) = q / 2 ^ e / 2 ^ k := by
    rw [zpow_add₀ two_ne_zero, zpow_natCast, div_div]
  have hmax : max ((m.log2 : ℤ) + e - 52) (-1074) = e + k := ht
  have hleast : -1074 ≤ e + (k : ℤ) := hmax ▸ le_max_right _ _
  let em := ExtendedMantissa.ofMantissaAndAccuracy m a >>> k
  have hfirst : Lies (q / 2 ^ (e + k : ℤ)) em.mantissa em.accuracy := by
    rw [hscale]
    refine Lies.shiftRight ?_ k
    cases a with
    | exact => exact hq
    | inexact o => cases o <;> exact hq
  have hrounds : RoundsTo q em.roundedMantissa (e + k) := by
    rcases hq.bounds with ⟨hlo, hhi⟩
    refine ⟨hleast, ?_, fun hne => ?_, hfirst.nearest⟩
    · have hlog : m + 1 ≤ 2 ^ (53 + k) :=
        calc
          m + 1 ≤ 2 ^ (m.log2 + 1) := Nat.lt_log2_self
          _ ≤ 2 ^ (53 + k) := Nat.pow_le_pow_right (by decide) (by omega)
      have hlog' : (m : ℚ) + 1 ≤ 2 ^ 53 * 2 ^ k := by
        rw [← pow_add]
        exact_mod_cast hlog
      rw [hscale, div_lt_iff₀ (by positivity)]
      exact hhi.trans_le hlog'
    · -- the first bit of the mantissa is the first of 53
      have hlog : m.log2 = 52 + k := by omega
      have hm : m ≠ 0 := by
        rintro rfl
        rw [Nat.log2_zero] at hlog
        omega
      have hpow : (2 : ℚ) ^ 52 * 2 ^ k ≤ m := by
        rw [← pow_add, ← hlog]
        exact_mod_cast Nat.log2_self_le hm
      rw [hscale, le_div_iff₀ (by positivity)]
      exact hpow.trans hlo
  refine ⟨em.roundedMantissa, ht ▸ hrounds, ?_⟩
  have hshift : shiftToTargetExponent Format.binary64 m e a = (em, e + k) := by
    refine shiftToTargetExponent_eq ?_
    rw [ht, add_sub_cancel_left, Int.toNat_natCast]
  rw [roundWithAccuracy, hshift]
  exact finalForm_eq hleast hrounds.le

end Units

/-! ## Storing -/

section Storing

variable {m r : ℕ} {t : ℤ} {q : ℚ}

/-- A normal number has a leading bit that is not stored. -/
theorem toNat_leadingBit (m : BitVec 52) :
    (1#1 ++ m).toNat = Binary64.leastNormalMantissa + m.toNat := by
  rw [BitVec.toNat_append, ← Nat.shiftLeft_add_eq_or_of_lt m.isLt, Nat.shiftLeft_eq]
  rfl

/-- A normal number is stored without its leading bit, and read back with it. -/
theorem unpack_pack_normal (hlo : 2 ^ 52 ≤ m) (hhi : m < 2 ^ 53) (ht : -1074 ≤ t) (htop : t ≤ 971)
    (hm : 0 < m) :
    UnpackedFloat.unpack Format.binary64 (UnpackedFloat.pack Format.binary64
      (.finite .positive m t hm)) = .finite .positive m t hm := by
  -- `b` is the exponent field, which the bounds on `t` keep from being all zeros or all ones: those
  -- stand for the subnormals and the infinities.
  obtain ⟨b, hb⟩ : ∃ b : ℕ, (b : ℤ) = t + 1075 := ⟨(t + 1075).toNat, by omega⟩
  have hbiased : (t + Format.binary64.exponentBias +
      Format.binary64.mantissaBitsWithoutImplicit).toNat = b := by
    show (t + 1023 + 52).toNat = b
    omega
  have hlog : m.log2 + 1 = Format.binary64.mantissaBits := by
    show m.log2 + 1 = 53
    rw [(Nat.log2_eq_iff hm.ne').2 ⟨hlo, hhi⟩]
  have hpack : UnpackedFloat.pack Format.binary64 (.finite .positive m t hm) =
      packComponents Format.binary64 .positive (BitVec.ofNat 11 b) (BitVec.ofNat 52 m) := by
    rw [UnpackedFloat.pack]
    simp only [hbiased]
    rw [if_neg (by show ¬ 2048 ≤ b + 1; omega), if_pos hlog]
  have hexponent : (BitVec.ofNat 11 b).toNat = b := by
    rw [BitVec.toNat_ofNat]
    omega
  have hmantissa : (1#1 ++ BitVec.ofNat 52 m).toNat = m := by
    rw [toNat_leadingBit, BitVec.toNat_ofNat, Binary64.leastNormalMantissa]
    omega
  have hlast : BitVec.ofNat 11 b ≠ -1#11 := by
    intro h
    have hmax : b = 2047 := hexponent.symm.trans (congrArg BitVec.toNat h)
    omega
  have hfirst : BitVec.ofNat 11 b ≠ 0#11 := by
    intro h
    have hzero : b = 0 := hexponent.symm.trans (congrArg BitVec.toNat h)
    omega
  rw [hpack, UnpackedFloat.unpack]
  simp only [unpackExponent_packComponents, unpackMantissa_packComponents,
    unpackSign_packComponents, if_neg hlast, if_neg hfirst, hexponent, hmantissa]
  have hunbiased : (b : ℤ) - (Format.binary64.exponentBias + (52 : ℕ)) = t := by
    show (b : ℤ) - (1023 + 52) = t
    omega
  rw [UnpackedFloat.finite.injEq]
  exact ⟨rfl, rfl, hunbiased⟩

/-- A subnormal number has no leading bit. -/
theorem unpack_pack_subnormal (hhi : m < 2 ^ 52) (hm : 0 < m) :
    UnpackedFloat.unpack Format.binary64 (UnpackedFloat.pack Format.binary64
      (.finite .positive m (-1074) hm)) = .finite .positive m (-1074) hm := by
  have hlog : ¬ m.log2 + 1 = Format.binary64.mantissaBits := by
    show ¬ m.log2 + 1 = 53
    have hlt := (Nat.log2_lt hm.ne').2 hhi
    omega
  have hpack : UnpackedFloat.pack Format.binary64 (.finite .positive m (-1074) hm) =
      packComponents Format.binary64 .positive 0#11 (BitVec.ofNat 52 m) := by
    rw [UnpackedFloat.pack]
    exact (if_neg (by decide)).trans (if_neg hlog)
  have hmantissa : (BitVec.ofNat 52 m).toNat = m := by
    rw [BitVec.toNat_ofNat]
    exact Nat.mod_eq_of_lt hhi
  have hne : BitVec.ofNat 52 m ≠ 0#52 := by
    intro h
    exact hm.ne' (hmantissa.symm.trans (congrArg BitVec.toNat h))
  have hlast : 0#11 ≠ -1#11 := by decide
  rw [hpack, UnpackedFloat.unpack]
  simp only [unpackExponent_packComponents, unpackMantissa_packComponents,
    unpackSign_packComponents, if_neg hlast, dif_neg hne, hmantissa, if_true]
  rfl

/-- What has too large an exponent is stored as infinity. -/
theorem pack_of_large (ht : 971 < t) (hm : 0 < m) :
    UnpackedFloat.pack Format.binary64 (.finite .positive m t hm) =
      packedInfinity Format.binary64 .positive := by
  rw [UnpackedFloat.pack]
  refine if_pos ?_
  show 2048 ≤ (t + 1023 + 52).toNat + 1
  omega

theorem unpack_packedInfinity :
    UnpackedFloat.unpack Format.binary64 (packedInfinity Format.binary64 .positive) =
      .infinity .positive :=
  rfl

/-- The number that is stored for so many units. -/
def stored (r : ℕ) (t : ℤ) : Float :=
  .ofModel (Float.Model.pack (ofUnits r t))

/-- It is kept as it is, or it is too large. -/
theorem RoundsTo.unpack_stored (h : RoundsTo q r t) :
    (stored r t).toModel.unpack = ofUnits r t ∧ (t < 971 ∨ t = 971 ∧ r < 2 ^ 53) ∨
      (stored r t).toModel.unpack = .infinity .positive ∧ (971 < t ∨ t = 971 ∧ r = 2 ^ 53) := by
  show UnpackedFloat.unpack _ (UnpackedFloat.pack _ (ofUnits r t)) = _ ∧ _ ∨
    UnpackedFloat.unpack _ (UnpackedFloat.pack _ (ofUnits r t)) = _ ∧ _
  have hleast := h.least
  unfold ofUnits
  by_cases hzero : r = 0
  · -- so few units are the least ones
    have ht : t = -1074 := by
      by_contra hne
      have hge := h.ge hne
      omega
    rw [dif_pos hzero]
    exact .inl ⟨rfl, by omega⟩
  · rw [dif_neg hzero]
    have hpos := Nat.pos_of_ne_zero hzero
    rcases h.le.lt_or_eq with hlt | hfull
    · rw [if_pos hlt]
      rcases lt_or_ge 971 t with htop | htop
      · rw [pack_of_large htop]
        exact .inr ⟨unpack_packedInfinity, .inl htop⟩
      · refine .inl ⟨?_, by omega⟩
        rcases lt_or_ge r (2 ^ 52) with hsmall | hlarge
        · have ht : t = -1074 := by
            by_contra hne
            exact absurd (h.ge hne) (by omega)
          subst ht
          exact unpack_pack_subnormal hsmall hpos
        · exact unpack_pack_normal hlarge hlt hleast htop hpos
    · rw [if_neg (by omega)]
      rcases lt_or_ge 970 t with htop | htop
      · rw [pack_of_large (by omega)]
        exact .inr ⟨unpack_packedInfinity, by omega⟩
      · exact .inl ⟨unpack_pack_normal (by decide) (by decide) (by omega) (by omega) _, by omega⟩

end Storing

/-! ## Nearest numbers -/

/-- The rational number that a finite number stands for. -/
def valueOf (x : Float) : Option ℚ :=
  match x.toModel.unpack with
  | .zero _ => some 0
  | .finite .positive m e _ => some (m * 2 ^ e)
  | .finite .negative m e _ => some (-(m * 2 ^ e))
  | _ => none

/-- The least number that is too large: the next one after the largest finite number would be as
near to it. -/
def overflowLimit : ℚ :=
  (2 ^ 54 - 1) * 2 ^ (970 : ℤ)

/-- The last bit is not set. -/
def EndsEvenly (x : Float) : Prop :=
  match x.toModel.unpack with
  | .finite _ m _ _ => Even m
  | _ => True

/-- What a rational number from zero on is rounded to: the nearest one of the finite numbers, and
that whose last bit is not set if there are two; or infinity, if it is too large. -/
inductive IsRoundingOf (q : ℚ) (x : Float) : Prop
  | nearest {v : ℚ} : valueOf x = some v → q < overflowLimit →
      (∀ y w, valueOf y = some w →
        |q - v| ≤ |q - w| ∧ (|q - w| = |q - v| → w = v ∨ EndsEvenly x)) →
      IsRoundingOf q x
  | infinite : x.toModel.unpack = .infinity .positive → overflowLimit ≤ q → IsRoundingOf q x

section Nearest

variable {q x : ℚ} {r : ℕ} {t : ℤ}

/-- No whole number is nearer, and if another one is as near, then this one is even. -/
theorem IsNearestNat.le_abs (h : IsNearestNat x r) (n : ℤ) :
    |x - r| ≤ |x - n| ∧ (|x - n| = |x - r| → n = r ∨ Even r) := by
  by_cases hn : n = r
  · rw [hn]
    exact ⟨le_rfl, fun _ => .inl rfl⟩
  · have hapart : (1 : ℚ) ≤ |(n : ℚ) - r| := by
      have hint : 1 ≤ |n - r| := Int.one_le_abs (sub_ne_zero.2 hn)
      exact_mod_cast hint
    have htriangle : |(n : ℚ) - r| ≤ |x - n| + |x - r| :=
      calc
        |(n : ℚ) - r| = |(x - r) - (x - n)| := by ring_nf
        _ ≤ |x - r| + |x - n| := abs_sub _ _
        _ = |x - n| + |x - r| := add_comm _ _
    have hnear := h.near
    refine ⟨by linarith, fun htie => .inr (h.even ?_)⟩
    linarith

/-- What can be stored has 53 bits and no bit behind those of the least numbers. -/
theorem unpack_finite_bounds {b : BitVec Format.binary64.numBits} {s : Sign} {m : ℕ} {e : ℤ}
    {hm : 0 < m} (h : UnpackedFloat.unpack Format.binary64 b = .finite s m e hm) :
    -1074 ≤ e ∧ m < 2 ^ 53 := by
  have hmantissa : (unpackMantissa b).toNat < 2 ^ 52 := (unpackMantissa b).isLt
  rw [UnpackedFloat.unpack] at h
  split_ifs at h with hlast hnan hfirst hzero
  · -- subnormal
    cases h
    rw [hfirst]
    exact ⟨by decide, by omega⟩
  · -- normal, with a leading bit that is not stored
    cases h
    have hexponent : (unpackExponent b).toNat ≠ 0 :=
      fun hnone => hfirst (BitVec.eq_of_toNat_eq hnone)
    constructor
    · show (-1074 : ℤ) ≤ (unpackExponent b).toNat - (1023 + 52)
      omega
    · rw [toNat_leadingBit, Binary64.leastNormalMantissa]
      omega

/-- Every finite number is a whole number of units that are not smaller than the least one. -/
theorem exists_units {y : Float} {w : ℚ} (h : valueOf y = some w) :
    ∃ n e : ℤ, w = n * 2 ^ e ∧ -1074 ≤ e ∧ |n| < 2 ^ 53 := by
  unfold valueOf at h
  split at h
  · cases h
    exact ⟨0, -1074, by simp, le_rfl, by decide⟩
  · rename_i m e hm hy
    cases h
    rcases unpack_finite_bounds hy with ⟨he, hlt⟩
    exact ⟨m, e, by simp, he, by rw [Nat.abs_cast]; exact_mod_cast hlt⟩
  · rename_i m e hm hy
    cases h
    rcases unpack_finite_bounds hy with ⟨he, hlt⟩
    exact ⟨-m, e, by simp, he, by rw [abs_neg, Nat.abs_cast]; exact_mod_cast hlt⟩
  · cases h

theorem abs_sub_units (q : ℚ) (x : ℚ) (t : ℤ) :
    |q - x * 2 ^ t| = |q / 2 ^ t - x| * 2 ^ t := by
  have hpos : (0 : ℚ) < 2 ^ t := by positivity
  rw [← abs_of_pos hpos, ← abs_mul, abs_of_pos hpos, sub_mul, div_mul_cancel₀ _ hpos.ne']

/-- No number of units, of whatever size, is nearer than that to which it is rounded. -/
theorem RoundsTo.le_abs (h : RoundsTo q r t) {n e : ℤ} (he : -1074 ≤ e) (hn : |n| < 2 ^ 53) :
    |q - r * 2 ^ t| ≤ |q - n * 2 ^ e| ∧
      (|q - n * 2 ^ e| = |q - r * 2 ^ t| → (n * 2 ^ e : ℚ) = r * 2 ^ t ∨ Even r) := by
  have hpos : (0 : ℚ) < 2 ^ t := by positivity
  rcases le_or_gt t e with hte | hte
  · -- the other number is a whole number of the same units
    obtain ⟨k, rfl⟩ : ∃ k : ℕ, e = t + k := ⟨(e - t).toNat, by omega⟩
    have hsame : (n * 2 ^ (t + k : ℤ) : ℚ) = (n * 2 ^ k : ℤ) * 2 ^ t := by
      push_cast
      rw [zpow_add₀ two_ne_zero, zpow_natCast]
      ring
    rw [hsame, abs_sub_units, abs_sub_units]
    rcases h.nearest.le_abs (n * 2 ^ k) with ⟨hle, htie⟩
    refine ⟨mul_le_mul_of_nonneg_right hle hpos.le, fun heq => ?_⟩
    rcases htie (mul_right_cancel₀ hpos.ne' heq) with hr | hr
    · rw [hr]
      exact .inl rfl
    · exact .inr hr
  · -- the units of the other number are smaller, so it lies below the numbers that have these units
    have hlower := h.lower (by omega)
    have hbelow : (n * 2 ^ e : ℚ) < 2 ^ 52 * 2 ^ t := by
      have hn' : (n : ℚ) < 2 ^ 53 := by exact_mod_cast (le_abs_self n).trans_lt hn
      calc
        (n * 2 ^ e : ℚ) < 2 ^ 53 * 2 ^ e := mul_lt_mul_of_pos_right hn' (by positivity)
        _ = 2 ^ 52 * 2 ^ (e + 1) := by rw [zpow_add_one₀ two_ne_zero]; ring
        _ ≤ 2 ^ 52 * 2 ^ t := by
            have hle : (2 : ℚ) ^ (e + 1) ≤ 2 ^ t := zpow_le_zpow_right₀ one_le_two hte
            linarith
    have hq : 2 ^ 52 * 2 ^ t ≤ q := (le_div_iff₀ hpos).1 hlower
    have hleast : |q - r * 2 ^ t| ≤ q - 2 ^ 52 * 2 ^ t := by
      have hle := (h.nearest.le_abs (2 ^ 52)).1
      rw [Int.cast_pow, Int.cast_ofNat, abs_of_nonneg (sub_nonneg.2 hlower)] at hle
      calc
        |q - r * 2 ^ t| = |q / 2 ^ t - r| * 2 ^ t := abs_sub_units q r t
        _ ≤ (q / 2 ^ t - 2 ^ 52) * 2 ^ t := mul_le_mul_of_nonneg_right hle hpos.le
        _ = q - 2 ^ 52 * 2 ^ t := by rw [sub_mul, div_mul_cancel₀ _ hpos.ne']
    have hmore : q - 2 ^ 52 * 2 ^ t < |q - n * 2 ^ e| := by
      rw [abs_of_pos (by linarith)]
      linarith
    exact ⟨by linarith, fun heq => by linarith⟩

/-- So many units, written as a mantissa and an exponent. -/
theorem ofUnits_eq (hpos : 0 < r) (hr : r ≤ 2 ^ 53) (t : ℤ) :
    ∃ m e h, ofUnits r t = .finite .positive m e h ∧ (m * 2 ^ e : ℚ) = r * 2 ^ t ∧
      (Even r → Even m) := by
  rw [ofUnits, dif_neg hpos.ne']
  rcases hr.lt_or_eq with hlt | rfl
  · rw [if_pos hlt]
    exact ⟨r, t, hpos, rfl, rfl, id⟩
  · refine ⟨2 ^ 52, t + 1, by decide, rfl, ?_, fun _ => by decide⟩
    rw [zpow_add_one₀ two_ne_zero]
    push_cast
    ring

/-- What is read back has the value of so many units. -/
theorem valueOf_of_unpack {x : Float} (hr : r ≤ 2 ^ 53) (hx : x.toModel.unpack = ofUnits r t) :
    valueOf x = some ((r : ℚ) * 2 ^ t) := by
  unfold valueOf
  rcases Nat.eq_zero_or_pos r with rfl | hpos
  · rw [hx, Nat.cast_zero, zero_mul]
    rfl
  · rcases ofUnits_eq hpos hr t with ⟨m, e, hm, hunits, hvalue, -⟩
    rw [hx, hunits, ← hvalue]

/-- An even number of units ends with a bit that is not set. -/
theorem endsEvenly_of_unpack {x : Float} (hr : r ≤ 2 ^ 53) (hx : x.toModel.unpack = ofUnits r t)
    (heven : Even r) : EndsEvenly x := by
  unfold EndsEvenly
  rcases Nat.eq_zero_or_pos r with rfl | hpos
  · rw [hx]
    trivial
  · rcases ofUnits_eq hpos hr t with ⟨m, e, hm, hunits, -, hlast⟩
    rw [hx, hunits]
    exact hlast heven

/-- The limit lies half a unit below the next power of two. -/
theorem overflowLimit_eq : overflowLimit = (2 ^ 53 - 1 / 2) * 2 ^ (971 : ℤ) := by
  have hnext : (2 : ℚ) ^ (971 : ℤ) = 2 ^ (970 : ℤ) * 2 := zpow_add_one₀ two_ne_zero 970
  rw [overflowLimit, hnext]
  ring

/-- What is stored as a finite number is below the limit. -/
theorem RoundsTo.lt_overflowLimit (h : RoundsTo q r t) (ht : t < 971 ∨ t = 971 ∧ r < 2 ^ 53) :
    q < overflowLimit := by
  have hpos : (0 : ℚ) < 2 ^ t := by positivity
  rcases ht with ht | ⟨rfl, hr⟩
  · calc
      q < 2 ^ 53 * 2 ^ t := (div_lt_iff₀ hpos).1 h.upper
      _ ≤ 2 ^ 53 * 2 ^ (970 : ℤ) := by
          have hle : (2 : ℚ) ^ t ≤ 2 ^ (970 : ℤ) := zpow_le_zpow_right₀ one_le_two (by omega)
          linarith
      _ ≤ overflowLimit := mul_le_mul_of_nonneg_right (by norm_num) (by positivity)
  · -- the largest finite number ends with a bit that is set, so a tie goes to infinity
    have hnear := (abs_le.1 h.nearest.near).2
    have hlt : q / 2 ^ (971 : ℤ) < 2 ^ 53 - 1 / 2 := by
      have hr' : (r : ℚ) ≤ 2 ^ 53 - 1 := by
        have hle : (r : ℚ) + 1 ≤ 2 ^ 53 := by exact_mod_cast hr
        linarith
      refine lt_of_le_of_ne (by linarith) fun heq => ?_
      have htie : (r : ℚ) = 2 ^ 53 - 1 := by linarith
      have hodd : r = 2 ^ 53 - 1 := by
        have hsum : (r : ℚ) + 1 = 2 ^ 53 := by linarith
        have hsum' : r + 1 = 2 ^ 53 := by exact_mod_cast hsum
        omega
      have heven := h.nearest.even (by rw [heq, htie]; norm_num)
      rw [hodd] at heven
      exact absurd heven (by decide)
    rw [overflowLimit_eq]
    exact (div_lt_iff₀ hpos).1 hlt

/-- What is stored as infinity is not. -/
theorem RoundsTo.overflowLimit_le (h : RoundsTo q r t) (ht : 971 < t ∨ t = 971 ∧ r = 2 ^ 53) :
    overflowLimit ≤ q := by
  have hpos : (0 : ℚ) < 2 ^ t := by positivity
  -- Either the unit is too large itself, or the mantissa was rounded up past the largest one.
  rcases ht with ht | ⟨rfl, rfl⟩
  · calc
      overflowLimit ≤ 2 ^ 53 * 2 ^ (971 : ℤ) := by
          rw [overflowLimit_eq]
          exact mul_le_mul_of_nonneg_right (by norm_num) (by positivity)
      _ = 2 ^ 52 * 2 ^ (972 : ℤ) := by
          have hnext : (2 : ℚ) ^ (972 : ℤ) = 2 ^ (971 : ℤ) * 2 := zpow_add_one₀ two_ne_zero 971
          rw [hnext]
          ring
      _ ≤ 2 ^ 52 * 2 ^ t := by
          have hle : (2 : ℚ) ^ (972 : ℤ) ≤ 2 ^ t := zpow_le_zpow_right₀ one_le_two (by omega)
          linarith
      _ ≤ q := (le_div_iff₀ hpos).1 (h.lower (by omega))
  · have hnear := (abs_le.1 h.nearest.near).1
    rw [Nat.cast_pow, Nat.cast_ofNat] at hnear
    rw [overflowLimit_eq]
    refine (le_div_iff₀ hpos).1 ?_
    linarith

/-- A number that needs no rounding is not rounded. -/
theorem RoundsTo.exact {n r : ℕ} {t : ℤ} (h : RoundsTo n r t) (ht : t ≤ 0) :
    (r * 2 ^ t : ℚ) = n := by
  obtain ⟨k, hk⟩ : ∃ k : ℕ, t = -k := ⟨(-t).toNat, by omega⟩
  subst hk
  have hunits : (n : ℚ) / 2 ^ (-k : ℤ) = (n * 2 ^ k : ℤ) := by
    rw [zpow_neg, zpow_natCast, div_inv_eq_mul]
    push_cast
    rfl
  have hle := (h.nearest.le_abs (n * 2 ^ k)).1
  rw [hunits, sub_self, abs_zero] at hle
  have hsame : ((n * 2 ^ k : ℤ) : ℚ) = r := sub_eq_zero.1 (abs_nonpos_iff.1 hle)
  rw [← hsame, ← hunits, div_mul_cancel₀ _ (by positivity)]

/-- A number from zero on that is at most half of the least unit is rounded to zero. -/
theorem RoundsTo.none {q : ℚ} (hq : 0 ≤ q) (hsmall : q ≤ 2 ^ (-1075 : ℤ)) :
    RoundsTo q 0 (-1074) := by
  have hhalf : q / 2 ^ (-1074 : ℤ) ≤ 1 / 2 := by
    rw [div_le_iff₀ (by positivity)]
    refine hsmall.trans_eq ?_
    rw [show (-1074 : ℤ) = -1075 + 1 by norm_num, zpow_add_one₀ two_ne_zero]
    ring
  have hnonneg : 0 ≤ q / 2 ^ (-1074 : ℤ) := by positivity
  refine ⟨le_rfl, by linarith, fun hne => absurd rfl hne, ?_, fun _ => Even.zero⟩
  rw [Nat.cast_zero, sub_zero, abs_of_nonneg hnonneg]
  exact hhalf

/-- What is stored for a number of units is what they are rounded from. -/
theorem RoundsTo.isRoundingOf (h : RoundsTo q r t) : IsRoundingOf q (stored r t) := by
  rcases h.unpack_stored with ⟨hx, hsmall⟩ | ⟨hx, hlarge⟩
  · refine .nearest (valueOf_of_unpack h.le hx) (h.lt_overflowLimit hsmall) fun y w hw => ?_
    rcases exists_units hw with ⟨n, e, rfl, he, hn⟩
    rcases h.le_abs he hn with ⟨hle, htie⟩
    exact ⟨hle, fun heq => (htie heq).imp_right (endsEvenly_of_unpack h.le hx)⟩
  · exact .infinite hx (h.overflowLimit_le hlarge)

end Nearest

end Number
end ScriptHost
