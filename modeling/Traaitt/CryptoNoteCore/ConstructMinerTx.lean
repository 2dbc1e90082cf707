import Traaitt.Common.TransactionExtra
import Traaitt.CryptoNoteCore.Currency
import Traaitt.CryptoNoteCore.CryptoNoteFormatUtils

/-! `Currency::constructMinerTx`: the coinbase transaction of a block template. Its outputs are
the block reward decomposed into digits by `decompose_amount_into_digits`, with the last amount
added to the one before it while there are more than `maxOuts`, each paid to a one-time key of
the miner. The decomposition loses nothing and the folding keeps the sum, so the check
`summaryAmounts == blockReward` never fails: the outputs pay exactly the reward. -/

namespace CryptoNote

open CryptoNote.parameters
open SendTransaction (IsDenomination)

/-- What `constructMinerTx` takes from `crypto/`: the public key of the pair `generateKeyPair`
returns, and for output `no` the one-time key `derive_public_key(derivation, no, spendPublicKey)`
of the derivation `generate_key_derivation(viewPublicKey, secretKey)` of the miner's address, or
nothing where either of the two fails. -/
structure MinerTxKeys where
  txPublicKey : Crypto.PublicKey
  outputKey : ℕ → Option Crypto.PublicKey

/-- `outAmounts[outAmounts.size() - 2] += outAmounts.back()` and then
`outAmounts.resize(outAmounts.size() - 1)`. For a single amount the write is out of bounds
(only when `maxOuts` is zero, which `constructMinerTx` rejects first) and only the `resize` is
kept. -/
def addBackToPrevious : List UInt64 → List UInt64
  | [] => []
  | [_] => []
  | [a, b] => [a + b]
  | a :: b :: c :: rest => a :: addBackToPrevious (b :: c :: rest)

theorem length_addBackToPrevious : ∀ outAmounts : List UInt64,
    (addBackToPrevious outAmounts).length = outAmounts.length - 1
  | [] | [_] | [_, _] => rfl
  | _ :: b :: c :: rest => by
    rw [addBackToPrevious, List.length_cons, length_addBackToPrevious (b :: c :: rest)]
    simp

/-- `while (maxOuts < outAmounts.size())`. -/
def foldOutAmounts (maxOuts : ℕ) (outAmounts : List UInt64) : List UInt64 :=
  if maxOuts < outAmounts.length then foldOutAmounts maxOuts (addBackToPrevious outAmounts)
  else outAmounts
termination_by outAmounts.length
decreasing_by
  rw [length_addBackToPrevious]
  omega

/-- The loop over `outAmounts`: output `no` pays its amount to the one-time key of `no`. -/
def createOutputs (keys : MinerTxKeys) (outAmounts : List UInt64) :
    Option (List TransactionOutput) :=
  outAmounts.zipIdx.mapM fun (amount, no) =>
    (keys.outputKey no).map fun key => ⟨amount, .key ⟨key⟩⟩

namespace Currency

/-- `constructMinerTx`, `none` where it returns false. The extra holds the transaction public
key, then the extra nonce when there is one; the outputs pay the reward's digits; the only input
is the base input of `height`. The callers pass a fresh transaction, so it has no signatures. -/
def constructMinerTx (currency : Currency) (keys : MinerTxKeys) (blockMajorVersion : UInt8)
    (height : UInt32) (medianSize alreadyGeneratedCoins currentBlockSize fee : UInt64)
    (extraNonce : BinaryArray) (maxOuts : ℕ) : Option Transaction :=
  let extra := addTransactionPublicKeyToExtra [] keys.txPublicKey
  (if extraNonce ≠ [] then addExtraNonceToTransactionExtra extra extraNonce else some extra).bind
    fun extra =>
  -- `getBlockReward` fails for a block too big
  (currency.getBlockReward blockMajorVersion medianSize currentBlockSize alreadyGeneratedCoins
    fee).bind fun (blockReward, _) =>
  -- both handlers push to `outAmounts`
  let outAmounts := decomposeAmount blockReward (currency.defaultDustThreshold height)
  if ¬1 ≤ maxOuts then none
  else
    (createOutputs keys (foldOutAmounts maxOuts outAmounts)).bind fun outputs =>
    let summaryAmounts := (outputs.map (·.amount)).foldl (· + ·) 0
    if ¬summaryAmounts = blockReward then none
    else some
      { version := CURRENT_TRANSACTION_VERSION,
        -- both are uint32_t, so the sum wraps before it is widened
        unlockTime := (height + currency.minedMoneyUnlockWindow).toUInt64,
        inputs := [.base ⟨height⟩], outputs, extra, signatures := [] }

end Currency

/-! ## Folding keeps the sum -/

theorem toNat_foldl_add : ∀ (amounts : List UInt64) (acc : UInt64),
    (amounts.foldl (· + ·) acc).toNat = (acc.toNat + (amounts.map UInt64.toNat).sum) % 2 ^ 64
  | [], acc => by simp [Nat.mod_eq_of_lt acc.toNat_lt]
  | amount :: amounts, acc => by
    rw [List.foldl_cons, toNat_foldl_add amounts, UInt64.toNat_add, List.map_cons, List.sum_cons,
      Nat.mod_add_mod, Nat.add_assoc]

theorem sum_addBackToPrevious : ∀ {outAmounts : List UInt64}, 2 ≤ outAmounts.length →
    (outAmounts.map UInt64.toNat).sum < 2 ^ 64 →
    ((addBackToPrevious outAmounts).map UInt64.toNat).sum = (outAmounts.map UInt64.toNat).sum
  | [a, b], _, hsum => by
    simp only [List.map_cons, List.map_nil, List.sum_cons, List.sum_nil, Nat.add_zero] at hsum
    rw [addBackToPrevious]
    simp only [List.map_cons, List.map_nil, List.sum_cons, List.sum_nil, Nat.add_zero,
      UInt64.toNat_add]
    exact Nat.mod_eq_of_lt hsum
  | a :: b :: c :: rest, _, hsum => by
    have hrest : ((b :: c :: rest).map UInt64.toNat).sum < 2 ^ 64 := by
      simp only [List.map_cons, List.sum_cons] at hsum ⊢
      omega
    rw [addBackToPrevious, List.map_cons, List.sum_cons, sum_addBackToPrevious (by simp) hrest]
    simp only [List.map_cons, List.sum_cons]

variable {maxOuts : ℕ}

theorem foldOutAmounts_spec (hmaxOuts : 1 ≤ maxOuts) {outAmounts : List UInt64}
    (hsum : (outAmounts.map UInt64.toNat).sum < 2 ^ 64) :
    ((foldOutAmounts maxOuts outAmounts).map UInt64.toNat).sum =
        (outAmounts.map UInt64.toNat).sum ∧
      (foldOutAmounts maxOuts outAmounts).length ≤ maxOuts := by
  induction outAmounts using foldOutAmounts.induct maxOuts with
  | case1 outAmounts hmore ih =>
    have hsame := sum_addBackToPrevious (by omega) hsum
    rw [foldOutAmounts, if_pos hmore, ← hsame]
    exact ih (hsame ▸ hsum)
  | case2 outAmounts hfew =>
    rw [foldOutAmounts, if_neg hfew]
    exact ⟨rfl, by omega⟩

/-! ## Outputs -/

theorem createOutputs_amounts (keys : MinerTxKeys) : ∀ {outAmounts : List UInt64} {start : ℕ}
    {outputs : List TransactionOutput},
    (outAmounts.zipIdx start).mapM (fun (amount, no) =>
        (keys.outputKey no).map fun key => (⟨amount, .key ⟨key⟩⟩ : TransactionOutput)) =
      some outputs →
    outputs.map (·.amount) = outAmounts
  | [], _, outputs, h => by
    simp only [List.zipIdx_nil, List.mapM_nil] at h
    cases h
    rfl
  | amount :: outAmounts, start, outputs, h => by
    rw [List.zipIdx_cons, List.mapM_cons] at h
    obtain ⟨output, houtput, hrest⟩ := Option.bind_eq_some_iff.1 h
    obtain ⟨key, -, rfl⟩ := Option.map_eq_some_iff.1 houtput
    obtain ⟨rest, hmapM, hpure⟩ := Option.bind_eq_some_iff.1 hrest
    cases hpure
    rw [List.map_cons, createOutputs_amounts keys hmapM]

theorem createOutputs_isSome (keys : MinerTxKeys) (hkeys : ∀ no, (keys.outputKey no).isSome) :
    ∀ (outAmounts : List UInt64) (start : ℕ),
      ((outAmounts.zipIdx start).mapM fun (amount, no) =>
        (keys.outputKey no).map fun key => (⟨amount, .key ⟨key⟩⟩ : TransactionOutput)).isSome
  | [], _ => rfl
  | amount :: outAmounts, start => by
    obtain ⟨key, hkey⟩ := Option.isSome_iff_exists.1 (hkeys start)
    obtain ⟨rest, hrest⟩ := Option.isSome_iff_exists.1 (createOutputs_isSome keys hkeys outAmounts
      (start + 1))
    simp [List.zipIdx_cons, List.mapM_cons, hkey, hrest]

theorem sum_decomposeAmount (amount dustThreshold : UInt64) :
    ((decomposeAmount amount dustThreshold).map UInt64.toNat).sum = amount.toNat := by
  rw [decomposeAmount, List.map_map]
  exact (decomposeAmountIntoDigits_spec amount dustThreshold).2.1

theorem sum_foldOutAmounts_decomposeAmount (hmaxOuts : 1 ≤ maxOuts)
    (blockReward dustThreshold : UInt64) :
    ((foldOutAmounts maxOuts (decomposeAmount blockReward dustThreshold)).map UInt64.toNat).sum =
        blockReward.toNat ∧
      (foldOutAmounts maxOuts (decomposeAmount blockReward dustThreshold)).length ≤ maxOuts := by
  have hsum := sum_decomposeAmount blockReward dustThreshold
  obtain ⟨hfold, hlength⟩ := foldOutAmounts_spec hmaxOuts (hsum ▸ blockReward.toNat_lt)
  exact ⟨hfold.trans hsum, hlength⟩

namespace Currency

variable {currency : Currency} {keys : MinerTxKeys} {blockMajorVersion : UInt8} {height : UInt32}
  {medianSize alreadyGeneratedCoins currentBlockSize fee : UInt64} {extraNonce : BinaryArray}

theorem constructMinerTx_outputs (hmaxOuts : 1 ≤ maxOuts) {tx : Transaction}
    (h : currency.constructMinerTx keys blockMajorVersion height medianSize alreadyGeneratedCoins
      currentBlockSize fee extraNonce maxOuts = some tx) :
    ∃ blockReward emissionChange, currency.getBlockReward blockMajorVersion medianSize
        currentBlockSize alreadyGeneratedCoins fee = some (blockReward, emissionChange) ∧
      (tx.outputs.map (·.amount.toNat)).sum = blockReward.toNat ∧
      tx.outputs.length ≤ maxOuts := by
  unfold constructMinerTx at h
  obtain ⟨extra, -, h⟩ := Option.bind_eq_some_iff.1 h
  obtain ⟨⟨blockReward, emissionChange⟩, hreward, h⟩ := Option.bind_eq_some_iff.1 h
  dsimp only at h
  rw [if_neg (not_not.2 hmaxOuts)] at h
  obtain ⟨outputs, houtputs, h⟩ := Option.bind_eq_some_iff.1 h
  split_ifs at h
  cases h
  obtain ⟨hsum, hlength⟩ := sum_foldOutAmounts_decomposeAmount hmaxOuts blockReward
    (currency.defaultDustThreshold height)
  have hamounts := createOutputs_amounts keys houtputs
  refine ⟨blockReward, emissionChange, hreward, ?_, ?_⟩
  · rw [← hsum, ← hamounts, List.map_map]
    rfl
  · rw [← List.length_map (·.amount), hamounts]
    exact hlength

/-- The check `summaryAmounts == blockReward` never fails: a miner transaction is made whenever
the block's reward is defined, the extra nonce fits, and the one-time keys are derived. -/
theorem constructMinerTx_isSome (hmaxOuts : 1 ≤ maxOuts)
    (hreward : (currency.getBlockReward blockMajorVersion medianSize currentBlockSize
      alreadyGeneratedCoins fee).isSome)
    (hnonce : extraNonce.length ≤ TX_EXTRA_NONCE_MAX_COUNT)
    (hkeys : ∀ no, (keys.outputKey no).isSome) :
    (currency.constructMinerTx keys blockMajorVersion height medianSize alreadyGeneratedCoins
      currentBlockSize fee extraNonce maxOuts).isSome := by
  obtain ⟨⟨blockReward, emissionChange⟩, hreward⟩ := Option.isSome_iff_exists.1 hreward
  obtain ⟨hsum, -⟩ := sum_foldOutAmounts_decomposeAmount hmaxOuts blockReward
    (currency.defaultDustThreshold height)
  obtain ⟨outputs, houtputs⟩ := Option.isSome_iff_exists.1 (createOutputs_isSome keys hkeys
    (foldOutAmounts maxOuts (decomposeAmount blockReward (currency.defaultDustThreshold height))) 0)
  have hamounts := createOutputs_amounts keys houtputs
  -- the running sum of the outputs is the reward, which does not wrap
  have hsummary : (outputs.map (·.amount)).foldl (· + ·) 0 = blockReward := by
    rw [← UInt64.toNat_inj, toNat_foldl_add, hamounts, UInt64.toNat_zero, Nat.zero_add, hsum]
    exact Nat.mod_eq_of_lt blockReward.toNat_lt
  have hextra : ∀ extra : List UInt8, (if extraNonce ≠ [] then
      addExtraNonceToTransactionExtra extra extraNonce else some extra).isSome := by
    intro extra
    split_ifs
    · rw [addExtraNonceToTransactionExtra, if_neg (by omega)]
      rfl
    · rfl
  obtain ⟨extra, hextra⟩ := Option.isSome_iff_exists.1
    (hextra (addTransactionPublicKeyToExtra [] keys.txPublicKey))
  unfold constructMinerTx
  dsimp only
  rw [hextra, Option.bind_some, hreward, Option.bind_some]
  dsimp only
  rw [if_neg (not_not.2 hmaxOuts)]
  unfold createOutputs
  rw [houtputs, Option.bind_some, if_neg (not_not.2 hsummary)]
  rfl

end Currency

/-- Decomposing any amount under any dust threshold hands out non-zero values that add up to the
amount: chunks that are a digit times a power of ten, and at most one dust value, within the
threshold. So a miner transaction, its amounts folded down to `maxOuts`, pays exactly the block
reward, and is made whenever the reward is defined, the extra nonce fits and the keys derive. -/
theorem decomposeAmountIntoDigits_loses_nothing (amount dustThreshold : UInt64)
    (currency : Currency) (keys : MinerTxKeys) (blockMajorVersion : UInt8) (height : UInt32)
    (medianSize alreadyGeneratedCoins currentBlockSize fee : UInt64) (extraNonce : BinaryArray)
    (maxOuts : ℕ) (hmaxOuts : 1 ≤ maxOuts) :
    (∀ part ∈ decomposeAmountIntoDigits amount dustThreshold, part.value ≠ 0) ∧
      ((decomposeAmountIntoDigits amount dustThreshold).map (·.value.toNat)).sum = amount.toNat ∧
      (∀ chunk, AmountPart.chunk chunk ∈ decomposeAmountIntoDigits amount dustThreshold →
        IsDenomination chunk.toNat) ∧
      (decomposeAmountIntoDigits amount dustThreshold).countP AmountPart.isDust ≤ 1 ∧
      (∀ dust, AmountPart.dust dust ∈ decomposeAmountIntoDigits amount dustThreshold →
        dust ≤ dustThreshold) ∧
      (∀ tx, currency.constructMinerTx keys blockMajorVersion height medianSize
          alreadyGeneratedCoins currentBlockSize fee extraNonce maxOuts = some tx →
        ∃ blockReward emissionChange, currency.getBlockReward blockMajorVersion medianSize
            currentBlockSize alreadyGeneratedCoins fee = some (blockReward, emissionChange) ∧
          (tx.outputs.map (·.amount.toNat)).sum = blockReward.toNat ∧
          tx.outputs.length ≤ maxOuts) ∧
      ((currency.getBlockReward blockMajorVersion medianSize currentBlockSize
          alreadyGeneratedCoins fee).isSome →
        extraNonce.length ≤ TX_EXTRA_NONCE_MAX_COUNT → (∀ no, (keys.outputKey no).isSome) →
        (currency.constructMinerTx keys blockMajorVersion height medianSize alreadyGeneratedCoins
          currentBlockSize fee extraNonce maxOuts).isSome) := by
  obtain ⟨hwellFormed, htotal, hcount⟩ := decomposeAmountIntoDigits_spec amount dustThreshold
  refine ⟨fun part hpart => AmountPart.value_ne_zero_of_wellFormed (hwellFormed part hpart),
    htotal, fun chunk hchunk => hwellFormed _ hchunk, hcount,
    fun dust hdust => (hwellFormed _ hdust).2, fun tx h => ?_, ?_⟩
  · exact Currency.constructMinerTx_outputs hmaxOuts h
  · exact Currency.constructMinerTx_isSome hmaxOuts

theorem decomposeAmountIntoDigits_loses_nothing_one_output :
    1 ≤ 1 ∧
      ((∀ part ∈ decomposeAmountIntoDigits 62387455827 500000, part.value ≠ 0) ∧
        ((decomposeAmountIntoDigits 62387455827 500000).map (·.value.toNat)).sum =
          (62387455827 : UInt64).toNat ∧
        (∀ chunk, AmountPart.chunk chunk ∈ decomposeAmountIntoDigits 62387455827 500000 →
          IsDenomination chunk.toNat) ∧
        (decomposeAmountIntoDigits 62387455827 500000).countP AmountPart.isDust ≤ 1 ∧
        (∀ dust, AmountPart.dust dust ∈ decomposeAmountIntoDigits 62387455827 500000 →
          dust ≤ 500000) ∧
        (∀ tx, (CurrencyBuilder.currency (fun _ _ _ _ => 1) (fun _ _ => true)
            (fun _ _ _ => false)).constructMinerTx ⟨⟨0⟩, fun _ => some ⟨0⟩⟩ 1 1 0 0 0 0 [] 1 =
              some tx →
          ∃ blockReward emissionChange, (CurrencyBuilder.currency (fun _ _ _ _ => 1)
              (fun _ _ => true) (fun _ _ _ => false)).getBlockReward 1 0 0 0 0 =
                some (blockReward, emissionChange) ∧
            (tx.outputs.map (·.amount.toNat)).sum = blockReward.toNat ∧
            tx.outputs.length ≤ 1) ∧
        (((CurrencyBuilder.currency (fun _ _ _ _ => 1) (fun _ _ => true)
            (fun _ _ _ => false)).getBlockReward 1 0 0 0 0).isSome →
          ([] : BinaryArray).length ≤ TX_EXTRA_NONCE_MAX_COUNT →
          (∀ no, ((⟨⟨0⟩, fun _ => some ⟨0⟩⟩ : MinerTxKeys).outputKey no).isSome) →
          ((CurrencyBuilder.currency (fun _ _ _ _ => 1) (fun _ _ => true)
            (fun _ _ _ => false)).constructMinerTx ⟨⟨0⟩, fun _ => some ⟨0⟩⟩ 1 1 0 0 0 0 []
              1).isSome)) :=
  ⟨le_refl 1, decomposeAmountIntoDigits_loses_nothing 62387455827 500000
    (CurrencyBuilder.currency (fun _ _ _ _ => 1) (fun _ _ => true) (fun _ _ _ => false))
    ⟨⟨0⟩, fun _ => some ⟨0⟩⟩ 1 1 0 0 0 0 [] 1 (le_refl 1)⟩

end CryptoNote
