import Mathlib.Tactic.Ring
import Traaitt.Common.IntUtil

/-! `CryptoNoteBasicImpl`: the size penalty of a block reward. A block larger than the median
size `m` keeps the fraction `s * (2 m - s) / m²` of an amount, where `s` is its size; the
product is taken in 128 bits by `mul128` and divided twice by the median with `div128_32`. For a
median of at most 32 bits and a block at most twice as large, the result is the floor of the
exact fraction, and strictly less than the amount: the factor is `m² - (s - m)²`. -/

namespace CryptoNote

/-- `getPenalizedAmount`: `amount * currentBlockSize * (2 * medianSize - currentBlockSize) /
medianSize²`, the product by `mul128` and the quotient by two `div128_32` divisions by the median
cast to 32 bits. The asserts are not modelled, as in the release build (`-DNDEBUG`);
`toNat_getPenalizedAmount` shows that the two on the result hold. -/
def getPenalizedAmount (amount medianSize currentBlockSize : UInt64) : UInt64 :=
  if amount = 0 then 0
  else if currentBlockSize ≤ medianSize then amount
  else
    let (productLo, productHi) :=
      mul128 amount (currentBlockSize * (2 * medianSize - currentBlockSize))
    let (penalizedAmountHi, penalizedAmountLo, _) :=
      div128_32 productHi productLo medianSize.toUInt32
    let (_, penalizedAmountLo, _) :=
      div128_32 penalizedAmountHi penalizedAmountLo medianSize.toUInt32
    penalizedAmountLo

variable {amount medianSize currentBlockSize : UInt64}

theorem penaltyFactor_add_sq {m s : ℕ} (hlarger : m < s) (htwice : s ≤ 2 * m) :
    s * (2 * m - s) + (s - m) ^ 2 = m ^ 2 := by
  obtain ⟨e, rfl⟩ : ∃ e, s = m + e := ⟨s - m, by omega⟩
  obtain ⟨f, rfl⟩ : ∃ f, m = e + f := ⟨m - e, by omega⟩
  have hsub : 2 * (e + f) - (e + f + e) = f := by omega
  rw [hsub, Nat.add_sub_cancel_left]
  ring

/-- The factor `currentBlockSize * (2 * medianSize - currentBlockSize)` is computed in 64 bits
without wrapping. -/
theorem toNat_penaltyFactor (hmedian : medianSize.toNat < 2 ^ 32)
    (hlarger : medianSize.toNat < currentBlockSize.toNat)
    (htwice : currentBlockSize.toNat ≤ 2 * medianSize.toNat) :
    (currentBlockSize * (2 * medianSize - currentBlockSize)).toNat =
      currentBlockSize.toNat * (2 * medianSize.toNat - currentBlockSize.toNat) := by
  have hdouble : (2 * medianSize).toNat = 2 * medianSize.toNat := by
    rw [UInt64.toNat_mul]
    simp only [UInt64.reduceToNat]
    omega
  have hrest : (2 * medianSize - currentBlockSize).toNat =
      2 * medianSize.toNat - currentBlockSize.toNat := by
    rw [UInt64.toNat_sub_of_le _ _ (by rw [UInt64.le_iff_toNat_le]; omega), hdouble]
  have hsq := penaltyFactor_add_sq hlarger htwice
  rw [UInt64.toNat_mul, hrest]
  apply Nat.mod_eq_of_lt
  calc _ ≤ medianSize.toNat ^ 2 := by omega
    _ < (2 ^ 32) ^ 2 := Nat.pow_lt_pow_left hmedian (by norm_num)
    _ = 2 ^ 64 := by norm_num

/-- Two divisions by the median give the floor of the fraction, which fits in 64 bits: the high
word of the quotient is zero. -/
theorem toNat_getPenalizedAmount (hmedian : 0 < medianSize.toNat)
    (hmedianMax : medianSize.toNat < 2 ^ 32) (hlarger : medianSize.toNat < currentBlockSize.toNat)
    (htwice : currentBlockSize.toNat ≤ 2 * medianSize.toNat) :
    (getPenalizedAmount amount medianSize currentBlockSize).toNat =
      amount.toNat * currentBlockSize.toNat * (2 * medianSize.toNat - currentBlockSize.toNat) /
        medianSize.toNat ^ 2 := by
  have hdivisor : medianSize.toUInt32.toNat = medianSize.toNat := by
    rw [UInt64.toNat_toUInt32]
    exact Nat.mod_eq_of_lt hmedianMax
  have hsq := penaltyFactor_add_sq hlarger htwice
  -- the quotient is at most the amount, so it fits in the low word
  have hfits : amount.toNat * currentBlockSize.toNat *
      (2 * medianSize.toNat - currentBlockSize.toNat) / medianSize.toNat ^ 2 < 2 ^ 64 := by
    apply lt_of_le_of_lt _ amount.toNat_lt
    apply Nat.div_le_of_le_mul
    calc _ = amount.toNat * (currentBlockSize.toNat *
          (2 * medianSize.toNat - currentBlockSize.toNat)) := by ring
      _ ≤ amount.toNat * medianSize.toNat ^ 2 := Nat.mul_le_mul_left _ (by omega)
      _ = _ := Nat.mul_comm _ _
  by_cases hzero : amount = 0
  · subst hzero
    simp [getPenalizedAmount]
  have hnot : ¬currentBlockSize ≤ medianSize := by
    rw [UInt64.le_iff_toNat_le]
    omega
  -- the product, then the two quotients, each spelled out by its specification
  have hproduct := toNat_mul128 amount (currentBlockSize * (2 * medianSize - currentBlockSize))
  rw [toNat_penaltyFactor hmedianMax hlarger htwice] at hproduct
  rcases hp : mul128 amount (currentBlockSize * (2 * medianSize - currentBlockSize)) with
    ⟨productLo, productHi⟩
  simp only [hp] at hproduct
  obtain ⟨hfirst, -⟩ := div128_32_spec productHi productLo (hdivisor ▸ hmedian)
  rcases hq : div128_32 productHi productLo medianSize.toUInt32 with
    ⟨quotientHi, quotientLo, remainder⟩
  simp only [hq] at hfirst
  rw [hproduct, hdivisor] at hfirst
  obtain ⟨hsecond, -⟩ := div128_32_spec quotientHi quotientLo (hdivisor ▸ hmedian)
  rcases hr : div128_32 quotientHi quotientLo medianSize.toUInt32 with
    ⟨penalizedAmountHi, penalizedAmountLo, remainder'⟩
  simp only [hr] at hsecond
  rw [hfirst, hdivisor, Nat.div_div_eq_div_mul, ← pow_two, ← Nat.mul_assoc] at hsecond
  rw [getPenalizedAmount, if_neg hzero, if_neg hnot, hp]
  dsimp only
  rw [hq]
  dsimp only
  rw [hr]
  dsimp only
  omega

theorem getPenalizedAmount_of_le (hsmall : currentBlockSize ≤ medianSize) :
    getPenalizedAmount amount medianSize currentBlockSize = amount := by
  rw [getPenalizedAmount]
  split_ifs with hzero
  · exact hzero.symm
  · rfl

theorem getPenalizedAmount_lt (hmedian : 0 < medianSize.toNat)
    (hmedianMax : medianSize.toNat < 2 ^ 32) (hlarger : medianSize.toNat < currentBlockSize.toNat)
    (htwice : currentBlockSize.toNat ≤ 2 * medianSize.toNat) (hamount : 0 < amount.toNat) :
    (getPenalizedAmount amount medianSize currentBlockSize).toNat < amount.toNat := by
  have hsq := penaltyFactor_add_sq hlarger htwice
  have hexcess : 0 < (currentBlockSize.toNat - medianSize.toNat) ^ 2 := pow_pos (by omega) 2
  rw [toNat_getPenalizedAmount hmedian hmedianMax hlarger htwice, Nat.div_lt_iff_lt_mul
    (pow_pos hmedian 2)]
  calc _ = amount.toNat * (currentBlockSize.toNat *
        (2 * medianSize.toNat - currentBlockSize.toNat)) := by ring
    _ < amount.toNat * medianSize.toNat ^ 2 := Nat.mul_lt_mul_of_pos_left (by omega) hamount

/-- `getPenalizedAmount` for every median of at most 32 bits and every block up to twice its
size: the floor of the exact fraction, below the amount when the block is larger than the
median, and the amount when it is not. -/
theorem getPenalizedAmount_exact (amount medianSize currentBlockSize : UInt64)
    (hmedian : 0 < medianSize.toNat) (hmedianMax : medianSize.toNat ≤ 2 ^ 32 - 1)
    (hlarger : medianSize.toNat < currentBlockSize.toNat)
    (htwice : currentBlockSize.toNat ≤ 2 * medianSize.toNat) :
    (getPenalizedAmount amount medianSize currentBlockSize).toNat =
        amount.toNat * currentBlockSize.toNat * (2 * medianSize.toNat - currentBlockSize.toNat) /
          medianSize.toNat ^ 2 ∧
      (0 < amount.toNat →
        (getPenalizedAmount amount medianSize currentBlockSize).toNat < amount.toNat) ∧
      ∀ smallerBlockSize : UInt64, smallerBlockSize ≤ medianSize →
        getPenalizedAmount amount medianSize smallerBlockSize = amount := by
  have hmedianLt : medianSize.toNat < 2 ^ 32 := by omega
  exact ⟨toNat_getPenalizedAmount hmedian hmedianLt hlarger htwice,
    getPenalizedAmount_lt hmedian hmedianLt hlarger htwice,
    fun _ hsmall => getPenalizedAmount_of_le hsmall⟩

theorem getPenalizedAmount_exact_largest :
    0 < (4294967295 : UInt64).toNat ∧ (4294967295 : UInt64).toNat ≤ 2 ^ 32 - 1 ∧
      (4294967295 : UInt64).toNat < (8589934590 : UInt64).toNat ∧
      (8589934590 : UInt64).toNat ≤ 2 * (4294967295 : UInt64).toNat ∧
      ((getPenalizedAmount 1000000 4294967295 8589934590).toNat =
          (1000000 : UInt64).toNat * (8589934590 : UInt64).toNat *
            (2 * (4294967295 : UInt64).toNat - (8589934590 : UInt64).toNat) /
              (4294967295 : UInt64).toNat ^ 2 ∧
        (0 < (1000000 : UInt64).toNat →
          (getPenalizedAmount 1000000 4294967295 8589934590).toNat < (1000000 : UInt64).toNat) ∧
        ∀ smallerBlockSize : UInt64, smallerBlockSize ≤ 4294967295 →
          getPenalizedAmount 1000000 4294967295 smallerBlockSize = 1000000) :=
  ⟨by decide, by decide, by decide, by decide,
    getPenalizedAmount_exact 1000000 4294967295 8589934590 (by decide) (by decide) (by decide)
      (by decide)⟩

end CryptoNote
