import Traaitt.CryptoNoteCore.Core

/-! What a successful `addBlock` did. Its validation is a chain of checks, each of which throws or
lets the code go on, so an accepted block passed all of them: `AddedBlockValidation` lists what
they established. The tree then changes in one of five ways, the branches of `AddBlockStep`:
a push on the main leaf, a push on another leaf with or without a switch of the main chain, a
new leaf forked from the top of a segment with children, or a new leaf forked from the middle
of a segment after splitting it. The pool operations that follow a push leave the tree, the
leaves and the main chain set as they are. -/

namespace CryptoNote

namespace Core

section PoolOperations

variable (core : Core)

@[simp] theorem updateBlockMedianSize_chainsStorage :
    core.updateBlockMedianSize.chainsStorage = core.chainsStorage := rfl

@[simp] theorem updateBlockMedianSize_chainsLeaves :
    core.updateBlockMedianSize.chainsLeaves = core.chainsLeaves := rfl

@[simp] theorem updateBlockMedianSize_mainChainSet :
    core.updateBlockMedianSize.mainChainSet = core.mainChainSet := rfl

@[simp] theorem updateBlockMedianSize_currency :
    core.updateBlockMedianSize.currency = core.currency := rfl

@[simp] theorem updateBlockMedianSize_checkpoints :
    core.updateBlockMedianSize.checkpoints = core.checkpoints := rfl

@[simp] theorem updateBlockMedianSize_primitives :
    core.updateBlockMedianSize.primitives = core.primitives := rfl

@[simp] theorem updateMainChainSet_chainsStorage :
    core.updateMainChainSet.chainsStorage = core.chainsStorage := rfl

@[simp] theorem updateMainChainSet_chainsLeaves :
    core.updateMainChainSet.chainsLeaves = core.chainsLeaves := rfl

@[simp] theorem updateMainChainSet_mainChainSet :
    core.updateMainChainSet.mainChainSet = (core.pathIds core.mainChain).toFinset := rfl

@[simp] theorem updateMainChainSet_currency :
    core.updateMainChainSet.currency = core.currency := rfl

@[simp] theorem updateMainChainSet_checkpoints :
    core.updateMainChainSet.checkpoints = core.checkpoints := rfl

@[simp] theorem updateMainChainSet_primitives :
    core.updateMainChainSet.primitives = core.primitives := rfl

variable (blockTransactionsState : TransactionValidatorState)

@[simp] theorem checkAndRemoveInvalidPoolTransactions_chainsStorage :
    (core.checkAndRemoveInvalidPoolTransactions blockTransactionsState).chainsStorage =
      core.chainsStorage := rfl

@[simp] theorem checkAndRemoveInvalidPoolTransactions_chainsLeaves :
    (core.checkAndRemoveInvalidPoolTransactions blockTransactionsState).chainsLeaves =
      core.chainsLeaves := rfl

@[simp] theorem checkAndRemoveInvalidPoolTransactions_mainChainSet :
    (core.checkAndRemoveInvalidPoolTransactions blockTransactionsState).mainChainSet =
      core.mainChainSet := rfl

@[simp] theorem checkAndRemoveInvalidPoolTransactions_currency :
    (core.checkAndRemoveInvalidPoolTransactions blockTransactionsState).currency =
      core.currency := rfl

@[simp] theorem checkAndRemoveInvalidPoolTransactions_checkpoints :
    (core.checkAndRemoveInvalidPoolTransactions blockTransactionsState).checkpoints =
      core.checkpoints := rfl

@[simp] theorem checkAndRemoveInvalidPoolTransactions_primitives :
    (core.checkAndRemoveInvalidPoolTransactions blockTransactionsState).primitives =
      core.primitives := rfl

theorem addTransactionToPool_eq (cachedTransaction : CachedTransaction) (receiveTime : UInt64) :
    ∃ pool, (core.addTransactionToPool cachedTransaction receiveTime).2 =
      { core with transactionPool := pool } := by
  unfold addTransactionToPool
  split
  · exact ⟨core.transactionPool, rfl⟩
  · split
    · exact ⟨core.transactionPool, rfl⟩
    · dsimp only
      split
      · exact ⟨core.transactionPool, rfl⟩
      · exact ⟨_, rfl⟩

theorem addRawTransactionToPool_eq (transactionBinaryArray : BinaryArray) (receiveTime : UInt64) :
    ∃ pool, (core.addRawTransactionToPool transactionBinaryArray receiveTime).2 =
      { core with transactionPool := pool } := by
  unfold addRawTransactionToPool
  split
  · exact ⟨core.transactionPool, rfl⟩
  · exact core.addTransactionToPool_eq _ receiveTime

theorem copyTransactionsToPool_eq (alt : ℕ) (receiveTime : UInt64) :
    ∃ pool, core.copyTransactionsToPool alt receiveTime = { core with transactionPool := pool } := by
  -- the loop over a segment's transactions keeps all but the pool
  have htransactions : ∀ (transactions : List BinaryArray) (core : Core), ∃ pool,
      transactions.foldl (fun core transaction =>
        (core.addRawTransactionToPool transaction receiveTime).2) core =
        { core with transactionPool := pool } := by
    intro transactions
    induction transactions with
    | nil => exact fun core => ⟨core.transactionPool, rfl⟩
    | cons transaction transactions ih =>
      intro core
      obtain ⟨pool₁, hpool₁⟩ := addRawTransactionToPool_eq core transaction receiveTime
      obtain ⟨pool, hpool⟩ := ih (core.addRawTransactionToPool transaction receiveTime).2
      rw [List.foldl_cons, hpool, hpool₁]
      exact ⟨pool, rfl⟩
  unfold copyTransactionsToPool
  generalize (core.pathIds alt).takeWhile (· ∉ core.mainChainSet) = ids
  -- the loop over segments keeps all but the pool too, from whichever core it starts
  induction ids generalizing core with
  | nil => exact ⟨core.transactionPool, rfl⟩
  | cons j ids ih =>
    rw [List.foldl_cons]
    dsimp only
    split
    · exact ih core
    · obtain ⟨pool₁, hpool₁⟩ := htransactions _ core
      rw [hpool₁]
      obtain ⟨pool, hpool⟩ := ih { core with transactionPool := pool₁ }
      exact ⟨pool, hpool⟩

end PoolOperations

/-- What the checks of `validateAddedBlock` established about an accepted block. -/
structure AddedBlockValidation (core : Core) (cachedBlock : CachedBlock) (rawBlock : RawBlock)
    (adjustedTime : UInt64) (validated : ValidatedBlock) : Prop where
  hasBlock_eq_false : core.hasBlock cachedBlock.blockHash = false
  findSegmentContainingBlock_eq :
    core.findSegmentContainingBlock cachedBlock.block.previousBlockHash = some validated.cacheId
  extractTransactions_eq : ∃ cumulativeSize,
    extractTransactions core.currency core.primitives rawBlock.transactions =
      some (validated.transactions, cumulativeSize) ∧
    validated.cumulativeBlockSize =
      core.primitives.getObjectBinarySize cachedBlock.block.baseTransaction + cumulativeSize
  getBlockIndex_eq : ∃ cache, core.chainsStorage[validated.cacheId]? = some cache ∧
    cache.getBlockIndex cachedBlock.block.previousBlockHash = .ok validated.previousBlockIndex
  validateBlock_eq : ∃ minerReward,
    validateBlock core.currency core.primitives cachedBlock (core.segments validated.cacheId)
      validated.previousBlockIndex adjustedTime = .ok minerReward ∧
    ∃ fee, validated.transactions.foldlM
        (core.validateBlockTransaction (core.segments validated.cacheId)
          validated.previousBlockIndex) (⟨∅⟩, 0) = .ok (validated.validatorState, fee) ∧
      core.currency.getBlockReward cachedBlock.block.majorVersion
        (medianValue (BlockchainCache.getLastUnits core.currency.rewardBlocksWindow
          validated.previousBlockIndex true (·.blockSize.toUInt64)
          (core.segments validated.cacheId)))
        (UInt64.ofNat validated.cumulativeBlockSize)
        (BlockchainCache.getAlreadyGeneratedCoins validated.previousBlockIndex
          (core.segments validated.cacheId)) fee = some (minerReward, validated.emissionChange)
  currentDifficulty_eq : validated.currentDifficulty =
    BlockchainCache.getDifficultyForNextBlock core.currency validated.previousBlockIndex
      (core.segments validated.cacheId)
  currentDifficulty_ne_zero : validated.currentDifficulty ≠ 0
  checkBlockProof_eq : core.checkBlockProof cachedBlock validated.currentDifficulty = .ok ()

theorem validateAddedBlock_eq_ok {core : Core} {cachedBlock : CachedBlock} {rawBlock : RawBlock}
    {adjustedTime : UInt64} {validated : ValidatedBlock}
    (h : core.validateAddedBlock cachedBlock rawBlock adjustedTime = .ok validated) :
    AddedBlockValidation core cachedBlock rawBlock adjustedTime validated := by
  unfold validateAddedBlock at h
  obtain ⟨_, hhas, h⟩ := ExceptRun.bind_eq_ok.1 h
  obtain ⟨cacheId, hsegment, h⟩ := ExceptRun.bind_eq_ok.1 h
  obtain ⟨extracted, hextract, h⟩ := ExceptRun.bind_eq_ok.1 h
  obtain ⟨cache, hcache, h⟩ := ExceptRun.bind_eq_ok.1 h
  obtain ⟨previousBlockIndex, hprevious, h⟩ := ExceptRun.bind_eq_ok.1 h
  obtain ⟨_, -, h⟩ := ExceptRun.bind_eq_ok.1 h
  obtain ⟨minerReward, hminer, h⟩ := ExceptRun.bind_eq_ok.1 h
  obtain ⟨_, hdifficulty, h⟩ := ExceptRun.bind_eq_ok.1 h
  obtain ⟨_, -, h⟩ := ExceptRun.bind_eq_ok.1 h
  obtain ⟨_, -, h⟩ := ExceptRun.bind_eq_ok.1 h
  obtain ⟨fees, hfees, h⟩ := ExceptRun.bind_eq_ok.1 h
  obtain ⟨rewards, hrewards, h⟩ := ExceptRun.bind_eq_ok.1 h
  obtain ⟨_, hreward, h⟩ := ExceptRun.bind_eq_ok.1 h
  obtain ⟨_, hproof, h⟩ := ExceptRun.bind_eq_ok.1 h
  rw [ExceptRun.pure_eq_ok] at h
  subst h
  rw [ExceptRun.throwIf_eq_ok, Bool.not_eq_true] at hhas
  rw [ExceptRun.ofOption_eq_ok] at hsegment hextract hcache hrewards
  rw [ExceptRun.mapError_eq_ok] at hprevious hfees
  rw [ExceptRun.throwIf_eq_ok, not_not] at hreward
  rw [ExceptRun.throwIf_eq_ok] at hdifficulty
  exact ⟨hhas, hsegment, ⟨extracted.2, hextract, rfl⟩, ⟨cache, hcache, hprevious⟩,
    ⟨minerReward, hminer, fees.2, hfees, hreward ▸ hrewards⟩, rfl, hdifficulty, hproof⟩

/-- The branches of `addBlock` after validation, with the state each one leaves. -/
inductive AddBlockStep (core : Core) (cachedBlock : CachedBlock) (rawBlock : RawBlock)
    (adjustedTime : UInt64) (validated : ValidatedBlock) (cache : BlockchainCache) :
    AddBlockErrorCode → Core → Prop
  | pushMain (htop : cache.getTopBlockIndex = validated.previousBlockIndex)
      (hleaf : cache.getChildCount = 0) (hmain : validated.cacheId = core.mainChain) :
      AddBlockStep core cachedBlock rawBlock adjustedTime validated cache .ADDED_TO_MAIN
        ((core.pushBlockOn validated.cacheId cachedBlock rawBlock validated).updateBlockMedianSize
          |>.checkAndRemoveInvalidPoolTransactions validated.validatorState)
  | pushAlternative (htop : cache.getTopBlockIndex = validated.previousBlockIndex)
      (hleaf : cache.getChildCount = 0) (hmain : validated.cacheId ≠ core.mainChain)
      (hlighter : ¬(((core.pushBlockOn validated.cacheId cachedBlock rawBlock validated).chainsStorage[
          validated.cacheId]?).map BlockchainCache.getCurrentCumulativeDifficulty).getD 0 >
        (((core.pushBlockOn validated.cacheId cachedBlock rawBlock validated).chainsStorage[
          core.mainChain]?).map BlockchainCache.getCurrentCumulativeDifficulty).getD 0) :
      AddBlockStep core cachedBlock rawBlock adjustedTime validated cache .ADDED_TO_ALTERNATIVE
        (core.pushBlockOn validated.cacheId cachedBlock rawBlock validated)
  | switch (htop : cache.getTopBlockIndex = validated.previousBlockIndex)
      (hleaf : cache.getChildCount = 0) (hmain : validated.cacheId ≠ core.mainChain)
      (hheavier : (((core.pushBlockOn validated.cacheId cachedBlock rawBlock validated).chainsStorage[
          validated.cacheId]?).map BlockchainCache.getCurrentCumulativeDifficulty).getD 0 >
        (((core.pushBlockOn validated.cacheId cachedBlock rawBlock validated).chainsStorage[
          core.mainChain]?).map BlockchainCache.getCurrentCumulativeDifficulty).getD 0) :
      AddBlockStep core cachedBlock rawBlock adjustedTime validated cache
        .ADDED_TO_ALTERNATIVE_AND_SWITCHED
        (({ core.pushBlockOn validated.cacheId cachedBlock rawBlock validated with
            chainsLeaves := (core.chainsLeaves.set 0 validated.cacheId).set
              (core.chainsLeaves.idxOf validated.cacheId) core.mainChain } :
            Core).updateMainChainSet.updateBlockMedianSize.checkAndRemoveInvalidPoolTransactions
              validated.validatorState |>.copyTransactionsToPool core.mainChain adjustedTime)
  | fork (htop : cache.getTopBlockIndex = validated.previousBlockIndex)
      (hchildren : cache.getChildCount ≠ 0) :
      AddBlockStep core cachedBlock rawBlock adjustedTime validated cache .ADDED_TO_ALTERNATIVE
        ((core.forkLeaf validated.cacheId cachedBlock rawBlock validated).updateMainChainSet
          |>.updateBlockMedianSize)
  | splitFork (htop : cache.getTopBlockIndex ≠ validated.previousBlockIndex) :
      AddBlockStep core cachedBlock rawBlock adjustedTime validated cache .ADDED_TO_ALTERNATIVE
        ((core.splitSegment validated.cacheId (validated.previousBlockIndex + 1)).forkLeaf
          validated.cacheId cachedBlock rawBlock validated).updateMainChainSet

theorem pushBlockOn_chainsLeaves (core : Core) (id : ℕ) (cachedBlock : CachedBlock)
    (rawBlock : RawBlock) (validated : ValidatedBlock) :
    (core.pushBlockOn id cachedBlock rawBlock validated).chainsLeaves = core.chainsLeaves := by
  unfold pushBlockOn
  split <;> rfl

theorem pushBlockOn_mainChain (core : Core) (id : ℕ) (cachedBlock : CachedBlock)
    (rawBlock : RawBlock) (validated : ValidatedBlock) :
    (core.pushBlockOn id cachedBlock rawBlock validated).mainChain = core.mainChain := by
  unfold mainChain
  rw [pushBlockOn_chainsLeaves]

theorem addBlock_eq_ok {core core' : Core} {cachedBlock : CachedBlock} {rawBlock : RawBlock}
    {adjustedTime : UInt64} {code : AddBlockErrorCode}
    (h : core.addBlock cachedBlock rawBlock adjustedTime = .ok (code, core')) :
    ∃ validated cache, AddedBlockValidation core cachedBlock rawBlock adjustedTime validated ∧
      core.chainsStorage[validated.cacheId]? = some cache ∧
      AddBlockStep core cachedBlock rawBlock adjustedTime validated cache code core' := by
  unfold addBlock at h
  obtain ⟨validated, hvalidated, h⟩ := ExceptRun.bind_eq_ok.1 h
  cases hcache : core.chainsStorage[validated.cacheId]? with
  | none =>
    simp only [hcache] at h
    cases h
  | some cache =>
    refine ⟨validated, cache, validateAddedBlock_eq_ok hvalidated, hcache, ?_⟩
    simp only [hcache] at h
    split_ifs at h with htop hleaf hmain hheavier
    · cases (ExceptRun.pure_eq_ok.1 h)
      exact .pushMain htop hleaf hmain
    · simp only [pushBlockOn_mainChain, pushBlockOn_chainsLeaves] at h hheavier
      cases (ExceptRun.pure_eq_ok.1 h)
      exact .switch htop hleaf hmain hheavier
    · simp only [pushBlockOn_mainChain] at hheavier
      cases (ExceptRun.pure_eq_ok.1 h)
      exact .pushAlternative htop hleaf hmain hheavier
    · cases (ExceptRun.pure_eq_ok.1 h)
      exact .fork htop hleaf
    · cases (ExceptRun.pure_eq_ok.1 h)
      exact .splitFork htop

end Core

end CryptoNote
