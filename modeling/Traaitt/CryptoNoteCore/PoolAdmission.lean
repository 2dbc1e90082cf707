import Traaitt.CryptoNoteCore.Core

/-! Pool admission in the checkpoint zone. While the next block is in the checkpoint zone,
`validateTransaction` checks a transaction's key images against each other only and never reads
the chain, and `addTransactionToPool` never asks whether the chain already holds the
transaction. So a transaction of a block of the main chain, sent again, enters the pool, which
then holds a transaction of the main chain whose key image the chain has spent: both are what
`checkAndRemoveInvalidPoolTransactions` removes a pool transaction for. -/

namespace CryptoNote

section CheckpointZone

variable {currency : Currency} {checkpoints : Checkpoints} {primitives : Primitives}
  {cachedTransaction : CachedTransaction} {blockIndex : ℕ}

theorem validateTransactionInput_checkpointZone
    (hzone : checkpoints.isInCheckpointZone (blockIndex + 1) = true)
    (path₁ path₂ : List BlockchainCache) (state : TransactionValidatorState) (inputIndex : ℕ)
    (input : TransactionInput) :
    validateTransactionInput currency checkpoints primitives cachedTransaction path₁ blockIndex
        state inputIndex input =
      validateTransactionInput currency checkpoints primitives cachedTransaction path₂ blockIndex
        state inputIndex input := by
  cases input with
  | base _ => rfl
  | key k => simp only [validateTransactionInput, hzone, if_true]

theorem validateTransactionInputs_checkpointZone
    (hzone : checkpoints.isInCheckpointZone (blockIndex + 1) = true)
    (path₁ path₂ : List BlockchainCache) :
    ∀ (state : TransactionValidatorState) (inputIndex : ℕ) (inputs : List TransactionInput),
      validateTransactionInputs currency checkpoints primitives cachedTransaction path₁
          blockIndex state inputIndex inputs =
        validateTransactionInputs currency checkpoints primitives cachedTransaction path₂
          blockIndex state inputIndex inputs
  | _, _, [] => rfl
  | state, inputIndex, input :: inputs => by
    simp only [validateTransactionInputs,
      validateTransactionInput_checkpointZone hzone path₁ path₂ state inputIndex input]
    congr 1
    funext state'
    exact validateTransactionInputs_checkpointZone hzone path₁ path₂ state' (inputIndex + 1) inputs

/-- In the checkpoint zone `validateTransaction` does not read the chain: its answer is the
same whatever path of segments it is given, the empty one included. -/
theorem validateTransaction_checkpointZone
    (hzone : checkpoints.isInCheckpointZone (blockIndex + 1) = true)
    (state : TransactionValidatorState) (path₁ path₂ : List BlockchainCache) :
    validateTransaction currency checkpoints primitives cachedTransaction state path₁ blockIndex =
      validateTransaction currency checkpoints primitives cachedTransaction state path₂
        blockIndex := by
  unfold validateTransaction
  rw [validateTransactionInputs_checkpointZone hzone path₁ path₂]

end CheckpointZone

namespace Core

section Admission

variable {core₁ core₂ : Core}

/-- Two nodes that share their parameters, pool, median block size and top index, with the
block after the top in the checkpoint zone, judge every transaction alike for the pool,
whatever their chains hold. -/
theorem isTransactionValidForPool_checkpointZone (hcurrency : core₁.currency = core₂.currency)
    (hcheckpoints : core₁.checkpoints = core₂.checkpoints)
    (hprimitives : core₁.primitives = core₂.primitives)
    (hmedian : core₁.blockMedianSize = core₂.blockMedianSize)
    (htop : core₁.getTopBlockIndex = core₂.getTopBlockIndex)
    (hzone : core₂.checkpoints.isInCheckpointZone (core₂.getTopBlockIndex + 1) = true)
    (cachedTransaction : CachedTransaction) :
    core₁.isTransactionValidForPool cachedTransaction =
      core₂.isTransactionValidForPool cachedTransaction := by
  unfold isTransactionValidForPool
  rw [hcurrency, hcheckpoints, hprimitives, hmedian, htop,
    validateTransaction_checkpointZone hzone _ (core₁.segments core₁.mainChain)
      (core₂.segments core₂.mainChain)]

/-- The same for `addTransactionToPool`: the answer and the pool after it do not depend on the
chain. -/
theorem addTransactionToPool_checkpointZone (hcurrency : core₁.currency = core₂.currency)
    (hcheckpoints : core₁.checkpoints = core₂.checkpoints)
    (hprimitives : core₁.primitives = core₂.primitives)
    (hpool : core₁.transactionPool = core₂.transactionPool)
    (hmedian : core₁.blockMedianSize = core₂.blockMedianSize)
    (htop : core₁.getTopBlockIndex = core₂.getTopBlockIndex)
    (hzone : core₂.checkpoints.isInCheckpointZone (core₂.getTopBlockIndex + 1) = true)
    (cachedTransaction : CachedTransaction) (receiveTime : UInt64) :
    (core₁.addTransactionToPool cachedTransaction receiveTime).1 =
        (core₂.addTransactionToPool cachedTransaction receiveTime).1 ∧
      (core₁.addTransactionToPool cachedTransaction receiveTime).2.transactionPool =
        (core₂.addTransactionToPool cachedTransaction receiveTime).2.transactionPool := by
  have hvalid := isTransactionValidForPool_checkpointZone hcurrency hcheckpoints hprimitives
    hmedian htop hzone cachedTransaction
  unfold addTransactionToPool
  rw [hvalid, hpool]
  -- the two nodes now take the same branch; they differ only in the fields nobody reads
  split
  · exact ⟨rfl, hpool⟩
  · split
    · exact ⟨rfl, hpool⟩
    · dsimp only
      split
      · exact ⟨rfl, hpool⟩
      · exact ⟨rfl, rfl⟩

end Admission

/-! A run on the node's own genesis block and checkpoints. Block 1 holds a transaction that
spends the genesis output with key image `2^248`, the encoding of the identity point `I` and so
in the domain `validateSemantic` checks; the same transaction, sent to the pool after the
block, is admitted. The primitives check every key and signature and hash a transaction to its
unlock time; the difficulty function answers `1`, as `nextDifficulty` does for a chain of one
block, and proof of work is never checked in the checkpoint zone. -/

/-- The transaction of block 1: one key input of the genesis amount, key image `2^248`, and a
fee of 200. -/
def zoneSpendingTransaction : Transaction :=
  { version := 1, unlockTime := 0,
    inputs := [.key ⟨320000000000000, [0], ⟨.ofNat 256 (2 ^ 248)⟩⟩],
    outputs := [⟨319999999999800, .key ⟨⟨5⟩⟩⟩], extra := [], signatures := [[⟨0⟩]] }

def zonePrimitives : Primitives :=
  Primitives.trusting (fun transaction => ⟨BitVec.ofNat 256 transaction.unlockTime.toNat⟩)
    fun blob => if blob = [0x54] then some zoneSpendingTransaction else none

def zoneCurrency : Currency :=
  CurrencyBuilder.currency (fun _ _ _ _ => 1) (fun _ _ => true) (fun _ _ _ => false)

/-- Block 1 on the genesis block, holding the transaction of hash `0`; its coinbase pays the
base reward 14305114 and the fee. -/
def zoneBlockOne : CachedBlock :=
  ⟨{ majorVersion := 1, minorVersion := 0, nonce := 0, timestamp := 1686748487,
      previousBlockHash := genesisBlock.blockHash, parentBlock := ⟨0⟩,
      baseTransaction :=
        { version := 1, unlockTime := 41, inputs := [.base ⟨1⟩],
          outputs := [⟨14305314, .key ⟨⟨5⟩⟩⟩], extra := [], signatures := [] },
      transactionHashes := [⟨0⟩] }, ⟨1⟩⟩

theorem pool_admits_main_chain_transaction_in_checkpoint_zone :
    ∃ core, (init zoneCurrency CHECKPOINTS zonePrimitives).addBlock zoneBlockOne ⟨[], [[0x54]]⟩
        1686748487 = .ok (.ADDED_TO_MAIN, core) ∧
      let added := core.addRawTransactionToPool [0x54] 1686748500
      added.1 = (true, "") ∧ added.2.transactionPool.checkIfTransactionPresent ⟨0⟩ = true ∧
        added.2.isTransactionInChain ⟨0⟩ = true ∧
        BlockchainCache.checkIfSpent ⟨.ofNat 256 (2 ^ 248)⟩ added.2.getTopBlockIndex
          (added.2.segments added.2.mainChain) = true := by
  refine ⟨_, rfl, ?_⟩
  decide +kernel

end Core

end CryptoNote
