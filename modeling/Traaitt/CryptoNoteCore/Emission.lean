import Traaitt.CryptoNoteCore.PoolAdmission
import Mathlib.Tactic.Linarith
import Mathlib.Tactic.Ring

/-! Emission. A block adds its `emissionChange` to the coins generated before it, in `uint64_t`:
the penalized base reward, less the part of the fee the size penalty burns. The base reward is
a fraction of what is left of the money supply and the penalty never raises an amount, so the
running total stays within the supply as long as the burnt fee is covered by the coins already
generated, which fees paid out of existing coins always are. In the checkpoint zone the inputs
of a transaction are not checked against the chain, so a fee there can be any amount; a block
that burns more than has been generated wraps the total past the supply, and the next
`getBlockReward` breaks its assertion `alreadyGeneratedCoins <= m_moneySupply`. -/

namespace CryptoNote

/-- The size penalty never raises an amount, for a block at most twice the median and a median
that fits the 32 bits `div128_32` divides by, as `getPenalizedAmount` asserts. -/
theorem getPenalizedAmount_le {amount medianSize currentBlockSize : UInt64}
    (hsize : currentBlockSize.toNat ≤ 2 * medianSize.toNat) (hmedian : medianSize.toNat < 2 ^ 32) :
    getPenalizedAmount amount medianSize currentBlockSize ≤ amount := by
  by_cases hsmall : currentBlockSize ≤ medianSize
  · rw [getPenalizedAmount_of_le hsmall]
    exact UInt64.le_refl amount
  · have hlarger : medianSize.toNat < currentBlockSize.toNat := by
      rw [UInt64.le_iff_toNat_le] at hsmall
      omega
    rw [UInt64.le_iff_toNat_le]
    rcases Nat.eq_zero_or_pos amount.toNat with hzero | hamount
    · rw [toNat_getPenalizedAmount (by omega) hmedian hlarger hsize, hzero]
      simp
    · exact (getPenalizedAmount_lt (by omega) hmedian hlarger hsize hamount).le

/-- One block of emission: from a total within the money supply, a block whose fee is covered
by the coins generated before it leaves the total within the supply. -/
theorem add_emissionChange_le_moneySupply {currency : Currency} {blockMajorVersion : UInt8}
    {medianSize currentBlockSize alreadyGeneratedCoins fee reward emissionChange : UInt64}
    (hmedian : (max medianSize
      (currency.blockGrantedFullRewardZoneByBlockVersion blockMajorVersion)).toNat < 2 ^ 32)
    (hcoins : alreadyGeneratedCoins ≤ currency.moneySupply) (hfee : fee ≤ alreadyGeneratedCoins)
    (hreward : currency.getBlockReward blockMajorVersion medianSize currentBlockSize
      alreadyGeneratedCoins fee = some (reward, emissionChange)) :
    alreadyGeneratedCoins + emissionChange ≤ currency.moneySupply := by
  unfold Currency.getBlockReward at hreward
  dsimp only at hreward
  split at hreward
  · cases hreward
  rename_i hbig
  obtain ⟨-, rfl⟩ := Prod.mk.inj (Option.some.inj hreward)
  set M := max medianSize (currency.blockGrantedFullRewardZoneByBlockVersion blockMajorVersion)
  have hsize : currentBlockSize.toNat ≤ 2 * M.toNat := by
    have htwice : (2 * M).toNat = 2 * M.toNat := by
      rw [UInt64.toNat_mul]
      simp only [UInt64.reduceToNat]
      omega
    rw [gt_iff_lt, UInt64.lt_iff_toNat_lt, htwice] at hbig
    omega
  -- the base reward is a fraction of what is left of the supply
  have hbase : (getPenalizedAmount ((currency.moneySupply - alreadyGeneratedCoins) >>>
      currency.emissionSpeedFactor) M currentBlockSize).toNat ≤
        currency.moneySupply.toNat - alreadyGeneratedCoins.toNat := by
    have hle := UInt64.le_iff_toNat_le.1 (@getPenalizedAmount_le
      ((currency.moneySupply - alreadyGeneratedCoins) >>> currency.emissionSpeedFactor) M
      currentBlockSize hsize hmedian)
    rw [UInt64.toNat_shiftRight, UInt64.toNat_sub_of_le _ _ hcoins] at hle
    exact hle.trans (Nat.shiftRight_le _ _)
  have hpenalizedFee : (if blockMajorVersion ≥ BLOCK_MAJOR_VERSION_2 then
      getPenalizedAmount fee M currentBlockSize else fee).toNat ≤ fee.toNat := by
    split_ifs
    · exact UInt64.le_iff_toNat_le.1 (getPenalizedAmount_le hsize hmedian)
    · exact le_rfl
  rw [UInt64.le_iff_toNat_le] at hcoins hfee ⊢
  rw [UInt64.toNat_add, UInt64.toNat_sub, UInt64.toNat_sub_of_le _ _
    (UInt64.le_iff_toNat_le.2 hpenalizedFee)]
  omega

/-- `validateBlock`'s coinbase loop: what it returns is the exact sum of the output amounts,
since it refuses a sum that would pass `2^64 - 1`. -/
theorem validateBaseOutput_eq_ok {primitives : Primitives} {minerReward next : UInt64}
    {output : TransactionOutput} (h : validateBaseOutput primitives minerReward output = .ok next) :
    next.toNat = minerReward.toNat + output.amount.toNat := by
  obtain ⟨amount, ⟨key⟩⟩ := output
  unfold validateBaseOutput at h
  dsimp only at h
  split_ifs at h with hzero hkey hoverflow
  cases h
  have hamount : amount.toNat < 2 ^ 64 := amount.toNat_lt_size
  have hmax : (UInt64.ofNat (2 ^ 64 - 1)).toNat = 2 ^ 64 - 1 := rfl
  rw [UInt64.lt_iff_toNat_lt, UInt64.toNat_sub_of_le _ _
    (by rw [UInt64.le_iff_toNat_le, hmax]; omega), hmax] at hoverflow
  rw [UInt64.toNat_add]
  exact Nat.mod_eq_of_lt (by omega)

theorem foldlM_validateBaseOutput_eq_ok (primitives : Primitives) :
    ∀ {outputs : List TransactionOutput} {minerReward reward : UInt64},
      outputs.foldlM (validateBaseOutput primitives) minerReward = .ok reward →
        reward.toNat = minerReward.toNat + (outputs.map (·.amount.toNat)).sum
  | [], _, _, h => by
    rw [List.foldlM_nil, ExceptRun.pure_eq_ok] at h
    rw [h, List.map_nil, List.sum_nil, Nat.add_zero]
  | output :: outputs, minerReward, reward, h => by
    rw [List.foldlM_cons] at h
    obtain ⟨next, hnext, hrest⟩ := ExceptRun.bind_eq_ok.1 h
    rw [foldlM_validateBaseOutput_eq_ok primitives hrest, validateBaseOutput_eq_ok hnext,
      List.map_cons, List.sum_cons]
    omega

namespace Core

/-! A run on a node that loaded its checkpoints from a file holding the default checkpoint at
height 100 only, so that blocks 1 and 2 are in the checkpoint zone and no checkpoint pins
block 2. Block 1 is empty. Block 2, of major version 2 and so of full reward zone 20000 bytes,
is 40000 bytes: the penalty takes all of its base reward and fee. Its one transaction claims an
input of `2^63` that no output backs and pays a fee of `2^63 - 1`, which the block burns. -/

end Core

end CryptoNote
