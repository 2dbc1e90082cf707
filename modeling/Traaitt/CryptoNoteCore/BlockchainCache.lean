import Traaitt.CryptoNoteCore.TransactionPool
import Traaitt.CryptoNoteCore.Currency
import Traaitt.CryptoNote.Primitives
import Mathlib.Data.Finset.Image

/-! `BlockchainCache`: one segment of the block tree `Core` keeps. A segment holds the blocks
from `startIndex` on and indexes them five ways (block infos, transactions, spent key images,
per-amount global output indexes, payment ids); what lies before `startIndex` is asked of the
parent. Segments live in `Core`'s store and a parent is a position in it, so a query that
walks parent pointers takes the path of segments, the segment first, and `[]` stands for
`nullptr`. Block and global output indexes are natural numbers: the `uint32_t` they have in
the code never wraps on a chain of fewer than `2 ^ 32` blocks and outputs. -/

namespace CryptoNote

structure SpentKeyImage where
  blockIndex : ℕ
  keyImage : Crypto.KeyImage
  deriving DecidableEq, Repr

/-- `SpentKeyImagesContainer`: ordered by block index, with a unique hashed index on the key
image, so that it holds at most one entry per key image. -/
structure SpentKeyImagesContainer where
  entries : Finset SpentKeyImage
  keyImage_unique : ∀ e₁ ∈ entries, ∀ e₂ ∈ entries, e₁.keyImage = e₂.keyImage → e₁ = e₂

namespace SpentKeyImagesContainer

def empty : SpentKeyImagesContainer := ⟨∅, by simp⟩

/-- `get<KeyImageTag>().find(keyImage) != end()`. -/
def contains (c : SpentKeyImagesContainer) (keyImage : Crypto.KeyImage) : Bool :=
  decide (∃ e ∈ c.entries, e.keyImage = keyImage)

/-- `it->blockIndex <= blockIndex` for the entry `find(keyImage)` returns. -/
def spentAtOrBefore (c : SpentKeyImagesContainer) (keyImage : Crypto.KeyImage)
    (blockIndex : ℕ) : Bool :=
  decide (∃ e ∈ c.entries, e.keyImage = keyImage ∧ e.blockIndex ≤ blockIndex)

/-- `addSpentKeyImage(keyImage, blockIndex)` for every key image of a validator state: the
unique index refuses a key image that is already there. The key images of a state are
distinct, so the loop's order does not matter and the result is this union. -/
def addSpentKeyImages (c : SpentKeyImagesContainer) (keyImages : Finset Crypto.KeyImage)
    (blockIndex : ℕ) : SpentKeyImagesContainer where
  entries := c.entries ∪ (keyImages.filter fun keyImage => c.contains keyImage = false).image
    fun keyImage => ⟨blockIndex, keyImage⟩
  keyImage_unique := by
    have hfresh : ∀ e ∈ c.entries, ∀ keyImage, c.contains keyImage = false →
        e.keyImage ≠ keyImage := by
      intro e he keyImage hc heq
      simp only [contains, decide_eq_false_iff_not, not_exists, not_and] at hc
      exact hc e he heq
    intro e₁ h₁ e₂ h₂ heq
    simp only [Finset.mem_union, Finset.mem_image, Finset.mem_filter] at h₁ h₂
    rcases h₁ with h₁ | ⟨k₁, ⟨-, hk₁⟩, rfl⟩ <;> rcases h₂ with h₂ | ⟨k₂, ⟨-, hk₂⟩, rfl⟩
    · exact c.keyImage_unique e₁ h₁ e₂ h₂ heq
    · exact absurd heq (hfresh e₁ h₁ k₂ hk₂)
    · exact absurd heq.symm (hfresh e₂ h₂ k₁ hk₁)
    · simp only at heq
      rw [heq]

/-- The entries of the blocks before `splitBlockIndex`, which stay in the lower segment. -/
def below (c : SpentKeyImagesContainer) (splitBlockIndex : ℕ) : SpentKeyImagesContainer :=
  ⟨c.entries.filter (·.blockIndex < splitBlockIndex), fun e₁ h₁ e₂ h₂ =>
    c.keyImage_unique e₁ (Finset.mem_of_mem_filter e₁ h₁) e₂ (Finset.mem_of_mem_filter e₂ h₂)⟩

/-- `[lower_bound(splitBlockIndex), end)`, the entries `splitSpentKeyImages` moves. -/
def from' (c : SpentKeyImagesContainer) (splitBlockIndex : ℕ) : SpentKeyImagesContainer :=
  ⟨c.entries.filter (splitBlockIndex ≤ ·.blockIndex), fun e₁ h₁ e₂ h₂ =>
    c.keyImage_unique e₁ (Finset.mem_of_mem_filter e₁ h₁) e₂ (Finset.mem_of_mem_filter e₂ h₂)⟩

end SpentKeyImagesContainer

/-- `PackedOutIndex`: where an output sits in the chain. -/
structure PackedOutIndex where
  blockIndex : ℕ
  transactionIndex : ℕ
  outputIndex : ℕ
  deriving DecidableEq, Repr

structure CachedTransactionInfo where
  blockIndex : ℕ
  transactionIndex : ℕ
  transactionHash : Crypto.Hash
  unlockTime : UInt64
  outputs : List TransactionOutputTarget
  globalIndexes : List ℕ
  deriving DecidableEq, Repr

structure CachedBlockInfo where
  blockHash : Crypto.Hash
  timestamp : UInt64
  cumulativeDifficulty : UInt64
  alreadyGeneratedCoins : UInt64
  alreadyGeneratedTransactions : UInt64
  blockSize : UInt32
  deriving DecidableEq, Repr

/-- The key outputs of one amount in a segment: the global index of `outputs[i]` is
`startIndex + i`. -/
structure OutputGlobalIndexesForAmount where
  startIndex : ℕ
  outputs : List PackedOutIndex
  deriving DecidableEq, Repr

structure PaymentIdTransactionHashPair where
  paymentId : Crypto.Hash
  transactionHash : Crypto.Hash
  deriving DecidableEq, Repr

inductive ExtractOutputKeysResult
  | SUCCESS
  | INVALID_GLOBAL_INDEX
  | OUTPUT_LOCKED
  deriving DecidableEq, Repr

/-- The segment. `transactions` and `paymentIds` are the multi-index containers in insertion
order, `blockInfos` and `storage` are indexed by `blockIndex - startIndex`, and
`keyOutputsGlobalIndexes` is the `std::map` from amounts. -/
structure BlockchainCache where
  parent : Option ℕ
  startIndex : ℕ
  transactions : List CachedTransactionInfo
  spentKeyImages : SpentKeyImagesContainer
  blockInfos : List CachedBlockInfo
  keyOutputsGlobalIndexes : UInt64 → Option OutputGlobalIndexesForAmount
  paymentIds : List PaymentIdTransactionHashPair
  storage : List RawBlock
  children : List ℕ

namespace BlockchainCache

/-- A segment as the constructor leaves it, before any block is pushed. -/
def empty (parent : Option ℕ) (startIndex : ℕ) : BlockchainCache :=
  ⟨parent, startIndex, [], .empty, [], fun _ => none, [], [], []⟩

def getBlockCount (cache : BlockchainCache) : ℕ := cache.blockInfos.length

def getTopBlockIndex (cache : BlockchainCache) : ℕ := cache.startIndex + cache.blockInfos.length - 1

def getChildCount (cache : BlockchainCache) : ℕ := cache.children.length

def hasBlock (cache : BlockchainCache) (blockHash : Crypto.Hash) : Bool :=
  cache.blockInfos.any (·.blockHash == blockHash)

/-- `getBlockIndex`, which throws `"no such block"` for a hash the segment does not hold. -/
def getBlockIndex (cache : BlockchainCache) (blockHash : Crypto.Hash) : Except String ℕ :=
  match cache.blockInfos.findIdx? (·.blockHash == blockHash) with
  | some i => .ok (i + cache.startIndex)
  | none => .error "no such block"

def hasTransaction (cache : BlockchainCache) (transactionHash : Crypto.Hash) : Bool :=
  cache.transactions.any (·.transactionHash == transactionHash)

/-- The hashes of the segment's transactions, the base transactions left out. -/
def getTransactionHashes (cache : BlockchainCache) : List Crypto.Hash :=
  (cache.transactions.filter (·.transactionIndex != 0)).map (·.transactionHash)

/-- `getTransactionGlobalIndexes`, which looks in this segment only. -/
def getTransactionGlobalIndexes (cache : BlockchainCache) (transactionHash : Crypto.Hash) :
    Option (List ℕ) :=
  (cache.transactions.find? (·.transactionHash == transactionHash)).map (·.globalIndexes)

/-- `getCurrentCumulativeDifficulty()`: the cumulative difficulty of the top block. -/
def getCurrentCumulativeDifficulty (cache : BlockchainCache) : UInt64 :=
  match cache.blockInfos.getLast? with
  | some blockInfo => blockInfo.cumulativeDifficulty
  | none => 0

/-- `getCurrentCumulativeDifficulty(blockIndex)`, which reads this segment only (`at` throws
for an index outside it; the model reads `0` there). -/
def getCurrentCumulativeDifficultyAt (cache : BlockchainCache) (blockIndex : ℕ) : UInt64 :=
  match cache.blockInfos[blockIndex - cache.startIndex]? with
  | some blockInfo => blockInfo.cumulativeDifficulty
  | none => 0

def addChild (cache : BlockchainCache) (child : ℕ) : BlockchainCache :=
  { cache with children := cache.children ++ [child] }

def fillOutputsSpentByBlock (cache : BlockchainCache) (blockIndex : ℕ) : TransactionValidatorState :=
  ⟨(cache.spentKeyImages.entries.filter (·.blockIndex = blockIndex)).image (·.keyImage)⟩

/-! Queries that walk parent pointers. -/

def checkIfSpent (keyImage : Crypto.KeyImage) (blockIndex : ℕ) : List BlockchainCache → Bool
  | [] => false
  | cache :: parents =>
    if blockIndex < cache.startIndex then checkIfSpent keyImage blockIndex parents
    else if cache.spentKeyImages.contains keyImage then
      cache.spentKeyImages.spentAtOrBefore keyImage blockIndex
    else checkIfSpent keyImage blockIndex parents

/-- `getBlockHash(blockIndex)`; out of range is an assertion in the code. -/
def getBlockHash (blockIndex : ℕ) : List BlockchainCache → Option Crypto.Hash
  | [] => none
  | cache :: parents =>
    if blockIndex < cache.startIndex then getBlockHash blockIndex parents
    else (cache.blockInfos[blockIndex - cache.startIndex]?).map (·.blockHash)

/-- `getAlreadyGeneratedCoins(blockIndex)`; `at` throws out of range, the model reads `0`. -/
def getAlreadyGeneratedCoins (blockIndex : ℕ) : List BlockchainCache → UInt64
  | [] => 0
  | cache :: parents =>
    if blockIndex < cache.startIndex then getAlreadyGeneratedCoins blockIndex parents
    else ((cache.blockInfos[blockIndex - cache.startIndex]?).map (·.alreadyGeneratedCoins)).getD 0

def getAlreadyGeneratedTransactions (blockIndex : ℕ) : List BlockchainCache → UInt64
  | [] => 0
  | cache :: parents =>
    if blockIndex < cache.startIndex then getAlreadyGeneratedTransactions blockIndex parents
    else ((cache.blockInfos[blockIndex - cache.startIndex]?).map
      (·.alreadyGeneratedTransactions)).getD 0

/-- `getLastUnits(count, blockIndex, useGenesis, pred)`: the units of the `count` blocks up to
`blockIndex`, oldest first, without the genesis block unless `useGenesis`. -/
def getLastUnits (count blockIndex : ℕ) (useGenesis : Bool) (pred : CachedBlockInfo → UInt64) :
    List BlockchainCache → List UInt64
  | [] => []
  | cache :: parents =>
    let toIndex := if blockIndex < cache.startIndex then 0 else blockIndex - cache.startIndex + 1
    let realCount := min count toIndex
    let skip := !useGenesis && toIndex - realCount == 0 && realCount != 0 && parents.isEmpty
    let fromIndex := if skip then toIndex - realCount + 1 else toIndex - realCount
    let realCount := if skip then realCount - 1 else realCount
    let result :=
      match parents with
      | parent :: _ =>
        if realCount < count then
          getLastUnits (count - realCount) (min blockIndex parent.getTopBlockIndex) useGenesis pred
            parents
        else []
      | [] => []
    result ++ ((cache.blockInfos.drop fromIndex).take (toIndex - fromIndex)).map pred

/-- `getTransactionHashesByPaymentId(paymentId)`: the parent's hashes, then the segment's own. -/
def getTransactionHashesByPaymentId (paymentId : Crypto.Hash) :
    List BlockchainCache → List Crypto.Hash
  | [] => []
  | cache :: parents =>
    getTransactionHashesByPaymentId paymentId parents ++
      (cache.paymentIds.filter (·.paymentId == paymentId)).map (·.transactionHash)

/-- `getKeyOutputsCountForAmount(amount, blockIndex)`: the entry's start plus the outputs of
blocks before `blockIndex` (`lower_bound` on the sorted outputs), or the parent's count. -/
def getKeyOutputsCountForAmount (amount : UInt64) (blockIndex : ℕ) :
    List BlockchainCache → ℕ
  | [] => 0
  | cache :: parents =>
    match cache.keyOutputsGlobalIndexes amount with
    | none => getKeyOutputsCountForAmount amount blockIndex parents
    | some entry =>
      entry.startIndex + (entry.outputs.takeWhile (·.blockIndex < blockIndex)).length

/-- The loop body of `extractKeyOutputs` for a global index of the segment's own entry: the
index must fall in the entry (the `uint32_t` difference wraps below its start), and the
output's transaction must be in the segment. -/
def extractOwnOutput {ε β : Type} (invalid : ε)
    (pred : CachedTransactionInfo → PackedOutIndex → ℕ → Except ε β) (cache : BlockchainCache)
    (entry : OutputGlobalIndexesForAmount) (globalIndex : ℕ) : Except ε β :=
  if globalIndex < entry.startIndex ∨ entry.outputs.length ≤ globalIndex - entry.startIndex then
    .error invalid
  else
    match entry.outputs[globalIndex - entry.startIndex]? with
    | none => .error invalid
    | some outputIndex =>
      match cache.transactions.find? (fun info => info.blockIndex == outputIndex.blockIndex &&
          info.transactionIndex == outputIndex.transactionIndex) with
      | none => .error invalid
      | some info => pred info outputIndex globalIndex

/-- `extractKeyOutputs(amount, blockIndex, globalIndexes, pred)` over the sorted global
indexes the callers pass: those below the entry's start go to the parent, the others are
looked up in the entry. The result is `.ok` with what `pred` produced for each index when the
code returns `SUCCESS`, and `.error` with the code it returns otherwise; `invalid` is
`INVALID_GLOBAL_INDEX` in the caller's error type. -/
def extractKeyOutputs {ε β : Type} (invalid : ε) (amount : UInt64) (blockIndex : ℕ)
    (pred : CachedTransactionInfo → PackedOutIndex → ℕ → Except ε β) :
    List ℕ → List BlockchainCache → Except ε (List β)
  | _, [] => .error invalid
  | globalIndexes, cache :: parents =>
    match cache.keyOutputsGlobalIndexes amount with
    | none => extractKeyOutputs invalid amount blockIndex pred globalIndexes parents
    | some entry =>
      if blockIndex < cache.startIndex then
        extractKeyOutputs invalid amount blockIndex pred globalIndexes parents
      else do
        let parentIndexes := globalIndexes.takeWhile (· < entry.startIndex)
        let fromParent ←
          if parentIndexes.isEmpty then pure []
          else extractKeyOutputs invalid amount blockIndex pred parentIndexes parents
        let mine ← (globalIndexes.dropWhile (· < entry.startIndex)).mapM
          (extractOwnOutput invalid pred cache entry)
        pure (fromParent ++ mine)

/-- `getRawTransaction(index, transactionIndex)`; the base transaction is serialized again from
the stored block. -/
def getRawTransaction (primitives : Primitives) (index transactionIndex : ℕ) :
    List BlockchainCache → Option BinaryArray
  | [] => none
  | cache :: parents =>
    if index < cache.startIndex then getRawTransaction primitives index transactionIndex parents
    else
      (cache.storage[index - cache.startIndex]?).bind fun rawBlock =>
        if transactionIndex = 0 then some (primitives.baseTransactionBinaryArray rawBlock.block)
        else rawBlock.transactions[transactionIndex - 1]?

/-- `getRawTransactions(hashes)` on the segment at the head of the path: the blobs of the
hashes its own transactions container holds. -/
def getRawTransactions (primitives : Primitives) (path : List BlockchainCache)
    (requestedTransactions : List Crypto.Hash) : List BinaryArray :=
  match path with
  | [] => []
  | cache :: _ =>
    requestedTransactions.filterMap fun transactionHash =>
      (cache.transactions.find? (·.transactionHash == transactionHash)).bind fun info =>
        getRawTransaction primitives info.blockIndex info.transactionIndex path

/-! Pushing a block. -/

/-- Insertion into the transactions container, refused when the position in the block or the
hash is already there. -/
def insertTransactionInfo (transactions : List CachedTransactionInfo)
    (info : CachedTransactionInfo) : List CachedTransactionInfo :=
  if transactions.any (fun t => (t.blockIndex == info.blockIndex &&
      t.transactionIndex == info.transactionIndex) || t.transactionHash == info.transactionHash)
  then transactions
  else transactions ++ [info]

/-- Insertion into the payment id container, refused when the transaction hash is there. -/
def insertPaymentId (paymentIds : List PaymentIdTransactionHashPair)
    (pair : PaymentIdTransactionHashPair) : List PaymentIdTransactionHashPair :=
  if paymentIds.any (·.transactionHash == pair.transactionHash) then paymentIds
  else paymentIds ++ [pair]

/-- `insertKeyOutputToGlobalIndex`: the output joins the entry of its amount; a new entry starts
where the parent's count for the amount ends. Returns the output's global index. -/
def insertKeyOutputToGlobalIndex (parents : List BlockchainCache) (cache : BlockchainCache)
    (amount : UInt64) (output : PackedOutIndex) (blockIndex : ℕ) : BlockchainCache × ℕ :=
  let indexEntry : OutputGlobalIndexesForAmount :=
    match cache.keyOutputsGlobalIndexes amount with
    | some entry => { entry with outputs := entry.outputs ++ [output] }
    | none => ⟨getKeyOutputsCountForAmount amount blockIndex parents, [output]⟩
  ({ cache with
      keyOutputsGlobalIndexes := Function.update cache.keyOutputsGlobalIndexes amount (some indexEntry) },
    indexEntry.startIndex + indexEntry.outputs.length - 1)

/-- The output loop of `pushTransaction`, from output number `outputCount` on: every output is a
`KeyOutput` and gets a global index. -/
def pushOutputs (parents : List BlockchainCache) (blockIndex transactionInBlockIndex : ℕ) :
    BlockchainCache → ℕ → List TransactionOutput → BlockchainCache × List ℕ
  | cache, _, [] => (cache, [])
  | cache, outputCount, output :: outputs =>
    match output.target with
    | .key _ =>
      let poi : PackedOutIndex := ⟨blockIndex, transactionInBlockIndex, outputCount⟩
      let inserted := insertKeyOutputToGlobalIndex parents cache output.amount poi blockIndex
      let rest := pushOutputs parents blockIndex transactionInBlockIndex inserted.1 (outputCount + 1)
        outputs
      (rest.1, inserted.2 :: rest.2)

def pushTransaction (primitives : Primitives) (parents : List BlockchainCache)
    (cache : BlockchainCache) (cachedTransaction : CachedTransaction)
    (blockIndex transactionInBlockIndex : ℕ) : BlockchainCache :=
  let tx := cachedTransaction.transaction
  let pushed := pushOutputs parents blockIndex transactionInBlockIndex cache 0 tx.outputs
  let transactionCacheInfo : CachedTransactionInfo :=
    ⟨blockIndex, transactionInBlockIndex, cachedTransaction.transactionHash, tx.unlockTime,
      tx.outputs.map (·.target), pushed.2⟩
  let cache := { pushed.1 with
    transactions := insertTransactionInfo pushed.1.transactions transactionCacheInfo }
  match primitives.getPaymentIdFromTxExtra tx.extra with
  | none => cache
  | some paymentId =>
    { cache with
      paymentIds := insertPaymentId cache.paymentIds ⟨paymentId, cachedTransaction.transactionHash⟩ }

/-- The loop of `doPushBlock` over the block's transactions, numbered from `transactionBlockIndex`. -/
def pushTransactions (primitives : Primitives) (parents : List BlockchainCache) (blockIndex : ℕ) :
    BlockchainCache → ℕ → List CachedTransaction → BlockchainCache
  | cache, _, [] => cache
  | cache, transactionBlockIndex, cachedTransaction :: cachedTransactions =>
    pushTransactions primitives parents blockIndex
      (pushTransaction primitives parents cache cachedTransaction blockIndex transactionBlockIndex)
      (transactionBlockIndex + 1) cachedTransactions

/-- The cumulative totals a new block continues from: the segment's top block, or for the first
block of a segment the parent's block before it (zero for the genesis block). -/
def previousTotals (cache : BlockchainCache) (parents : List BlockchainCache) (blockIndex : ℕ) :
    UInt64 × UInt64 × UInt64 :=
  match cache.blockInfos.getLast? with
  | some lastBlockInfo =>
    (lastBlockInfo.cumulativeDifficulty, lastBlockInfo.alreadyGeneratedCoins,
      lastBlockInfo.alreadyGeneratedTransactions)
  | none =>
    match parents with
    | [] => (0, 0, 0)
    | parent :: _ =>
      (parent.getCurrentCumulativeDifficultyAt (blockIndex - 1),
        getAlreadyGeneratedCoins (blockIndex - 1) parents,
        getAlreadyGeneratedTransactions (blockIndex - 1) parents)

/-- Appending to the block infos, refused when the hash is already there. -/
def pushBlockInfo (blockInfos : List CachedBlockInfo) (blockInfo : CachedBlockInfo) :
    List CachedBlockInfo :=
  if blockInfos.any (·.blockHash == blockInfo.blockHash) then blockInfos
  else blockInfos ++ [blockInfo]

def doPushBlock (primitives : Primitives) (parents : List BlockchainCache) (cache : BlockchainCache)
    (cachedBlock : CachedBlock) (cachedTransactions : List CachedTransaction)
    (validatorState : TransactionValidatorState) (blockSize : ℕ)
    (generatedCoins blockDifficulty : UInt64) (rawBlock : RawBlock) : BlockchainCache :=
  let blockIndex := cachedBlock.getBlockIndex.toNat
  let totals := cache.previousTotals parents blockIndex
  let blockInfo : CachedBlockInfo :=
    ⟨cachedBlock.blockHash, cachedBlock.block.timestamp, totals.1 + blockDifficulty,
      totals.2.1 + generatedCoins,
      totals.2.2 + UInt64.ofNat cachedTransactions.length + 1, UInt32.ofNat blockSize⟩
  let cache := { cache with
    blockInfos := pushBlockInfo cache.blockInfos blockInfo
    spentKeyImages := cache.spentKeyImages.addSpentKeyImages validatorState.spentKeyImages blockIndex }
  let cache := pushTransaction primitives parents cache
    (primitives.toCachedTransaction cachedBlock.block.baseTransaction) blockIndex 0
  let cache := pushTransactions primitives parents blockIndex cache 1 cachedTransactions
  { cache with storage := cache.storage ++ [rawBlock] }

/-- The root segment: the genesis block pushed into an empty segment, with its coinbase amount
as generated coins and difficulty `1`. -/
def root (currency : Currency) (primitives : Primitives) : BlockchainCache :=
  let genesisBlock := currency.genesisBlock
  let minerReward := (genesisBlock.block.baseTransaction.outputs.map (·.amount)).sum
  doPushBlock primitives [] (empty none 0) genesisBlock [] ⟨∅⟩
    (primitives.getObjectBinarySize genesisBlock.block.baseTransaction) minerReward 1
    ⟨primitives.blockBinaryArray genesisBlock.block, []⟩

/-! Splitting. -/

/-- `splitGlobalIndexes`, for one amount: the outputs of blocks before the split stay. -/
def lowerGlobalIndexes (splitBlockIndex : ℕ) (entry : OutputGlobalIndexesForAmount) :
    Option OutputGlobalIndexesForAmount :=
  let kept := entry.outputs.takeWhile (·.blockIndex < splitBlockIndex)
  if kept.isEmpty then none else some ⟨entry.startIndex, kept⟩

/-- `splitGlobalIndexes`, for one amount: the moved outputs start after those that stay. -/
def upperGlobalIndexes (splitBlockIndex : ℕ) (entry : OutputGlobalIndexesForAmount) :
    Option OutputGlobalIndexesForAmount :=
  let moved := entry.outputs.dropWhile (·.blockIndex < splitBlockIndex)
  if moved.isEmpty then none
  else some ⟨entry.startIndex + entry.outputs.length - moved.length, moved⟩

/-- `split(splitBlockIndex)` of the segment stored at `cacheId`, the new upper part to be stored
at `newCacheId`: returns the lower part (the segment itself) and the upper part. `Core` then
points the old children at the upper part (`fixChildrenParent`). -/
def split (cache : BlockchainCache) (cacheId newCacheId splitBlockIndex : ℕ) :
    BlockchainCache × BlockchainCache :=
  let offset := splitBlockIndex - cache.startIndex
  let moved := cache.transactions.filter (splitBlockIndex ≤ ·.blockIndex)
  let movedPaymentId (pair : PaymentIdTransactionHashPair) : Bool :=
    moved.any (·.transactionHash == pair.transactionHash)
  let lower : BlockchainCache :=
    { cache with
      transactions := cache.transactions.filter (·.blockIndex < splitBlockIndex)
      spentKeyImages := cache.spentKeyImages.below splitBlockIndex
      blockInfos := cache.blockInfos.take offset
      keyOutputsGlobalIndexes := fun amount =>
        (cache.keyOutputsGlobalIndexes amount).bind (lowerGlobalIndexes splitBlockIndex)
      paymentIds := cache.paymentIds.filter fun pair => !movedPaymentId pair
      storage := cache.storage.take offset
      children := [newCacheId] }
  let upper : BlockchainCache :=
    { parent := some cacheId
      startIndex := splitBlockIndex
      transactions := moved
      spentKeyImages := cache.spentKeyImages.from' splitBlockIndex
      blockInfos := cache.blockInfos.drop offset
      keyOutputsGlobalIndexes := fun amount =>
        (cache.keyOutputsGlobalIndexes amount).bind (upperGlobalIndexes splitBlockIndex)
      paymentIds := cache.paymentIds.filter movedPaymentId
      storage := cache.storage.drop offset
      children := cache.children }
  (lower, upper)

/-- `DatabaseBlockchainCache::split(splitBlockIndex)`, the split of the root the daemon keeps in
a database: the blocks from the split index on are pushed into a new segment under the root,
which has no children, and the root keeps its children and adds the new segment to them. -/
def splitDatabase (cache : BlockchainCache) (cacheId newCacheId splitBlockIndex : ℕ) :
    BlockchainCache × BlockchainCache :=
  let parts := cache.split cacheId newCacheId splitBlockIndex
  ({ parts.1 with children := cache.children ++ [newCacheId] }, { parts.2 with children := [] })

/-! Spend-time locks and key extraction. -/

/-- `isTransactionSpendTimeUnlocked(unlockTime, blockIndex)` of the segment at the head of the
path. A lock below `maxBlockHeight` is a block index. From
`TRANSACTION_INPUT_BLOCKTIME_VALIDATION_HEIGHT = 0` on, any other lock is a time compared with
the top block's timestamp, `getLastTimestamps(1).at(0)`; when only the genesis block is there
`at` throws, and the model answers locked: either way the input is refused. -/
def isTransactionSpendTimeUnlocked (currency : Currency) (path : List BlockchainCache)
    (unlockTime : UInt64) (blockIndex : ℕ) : Bool :=
  if unlockTime.toNat < currency.maxBlockHeight.toNat then
    decide (unlockTime.toNat ≤ blockIndex + currency.lockedTxAllowedDeltaBlocks.toNat)
  else
    match path with
    | [] => false
    | cache :: _ =>
      match (getLastUnits 1 cache.getTopBlockIndex false (·.timestamp) path).head? with
      | none => false
      | some lastBlockTimestamp =>
        decide (unlockTime ≤ lastBlockTimestamp + currency.lockedTxAllowedDeltaSeconds)

/-- `extractKeyOutputKeys(amount, blockIndex, globalIndexes, publicKeys)`: the keys of the
outputs, each checked to be unlocked at `blockIndex`. -/
def extractKeyOutputKeys (currency : Currency) (path : List BlockchainCache) (amount : UInt64)
    (blockIndex : ℕ) (globalIndexes : List ℕ) :
    Except ExtractOutputKeysResult (List Crypto.PublicKey) :=
  extractKeyOutputs .INVALID_GLOBAL_INDEX amount blockIndex
    (fun info index _ =>
      if !isTransactionSpendTimeUnlocked currency path info.unlockTime blockIndex then
        .error .OUTPUT_LOCKED
      else
        match info.outputs[index.outputIndex]? with
        | some (.key output) => .ok output.key
        | none => .error .INVALID_GLOBAL_INDEX)
    globalIndexes path

/-- `getDifficultyForNextBlock(blockIndex)`: the currency's difficulty of the version of the
next block, from the timestamps and cumulative difficulties of the last blocks up to
`blockIndex`, the genesis block left out. -/
def getDifficultyForNextBlock (currency : Currency) (blockIndex : ℕ) (path : List BlockchainCache) :
    UInt64 :=
  let nextBlockMajorVersion := currency.getBlockMajorVersion (UInt32.ofNat (blockIndex + 1))
  let count := currency.difficultyBlocksCountByBlockVersion nextBlockMajorVersion
    (UInt32.ofNat blockIndex)
  let timestamps := getLastUnits count blockIndex false (·.timestamp) path
  let commulativeDifficulties := getLastUnits count blockIndex false (·.cumulativeDifficulty) path
  currency.getNextDifficulty nextBlockMajorVersion (UInt32.ofNat blockIndex) timestamps
    commulativeDifficulties

end BlockchainCache

end CryptoNote
