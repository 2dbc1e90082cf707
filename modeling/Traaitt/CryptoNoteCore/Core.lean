import Traaitt.CryptoNoteCore.BlockchainCache
import Traaitt.CryptoNoteCore.Checkpoints
import Traaitt.Library.ParentStore
import Traaitt.Library.Except
import Mathlib.Data.List.Sort

/-! `Core`: the node's block tree and pool. The segments of the tree are stored in
`chainsStorage`; `chainsLeaves` lists the segments without children, the main chain's first;
`mainChainSet` holds the main chain's segments. `addBlock` validates a block against the
segment holding its predecessor, then pushes it on a leaf, on a new leaf forked from a
segment's top, or on a new leaf forked from the middle of a segment after splitting it;
a push on an alternative leaf that makes it heavier than the main chain switches chains.
A rejected block or transaction changes nothing. The clock (`time`) is an argument, and the
notifications, the logs and the on-disk `mainChainStorage` are left out. -/

namespace CryptoNote

open CryptoNote.parameters

inductive AddBlockErrorCode
  | ADDED_TO_MAIN
  | ADDED_TO_ALTERNATIVE
  | ADDED_TO_ALTERNATIVE_AND_SWITCHED
  | ALREADY_EXISTS
  | REJECTED_AS_ORPHANED
  | DESERIALIZATION_FAILED
  deriving DecidableEq, Repr

inductive BlockValidationError
  | VALIDATION_SUCCESS
  | WRONG_VERSION
  | PARENT_BLOCK_SIZE_TOO_BIG
  | PARENT_BLOCK_WRONG_VERSION
  | TIMESTAMP_TOO_FAR_IN_FUTURE
  | TIMESTAMP_TOO_FAR_IN_PAST
  | CUMULATIVE_BLOCK_SIZE_TOO_BIG
  | DIFFICULTY_OVERHEAD
  | BLOCK_REWARD_MISMATCH
  | CHECKPOINT_BLOCK_HASH_MISMATCH
  | PROOF_OF_WORK_TOO_WEAK
  | TRANSACTION_ABSENT_IN_POOL
  | TRANSACTION_DUPLICATES
  | TRANSACTION_INCONSISTENCY
  deriving DecidableEq, Repr

inductive TransactionValidationError
  | VALIDATION_SUCCESS
  | EMPTY_INPUTS
  | INPUT_UNKNOWN_TYPE
  | INPUT_EMPTY_OUTPUT_USAGE
  | INPUT_INVALID_DOMAIN_KEYIMAGES
  | INPUT_IDENTICAL_KEYIMAGES
  | INPUT_IDENTICAL_OUTPUT_INDEXES
  | INPUT_KEYIMAGE_ALREADY_SPENT
  | INPUT_INVALID_GLOBAL_INDEX
  | INPUT_SPEND_LOCKED_OUT
  | INPUT_INVALID_SIGNATURES
  | INPUT_WRONG_SIGNATURES_COUNT
  | INPUTS_AMOUNT_OVERFLOW
  | INPUT_WRONG_COUNT
  | INPUT_UNEXPECTED_TYPE
  | BASE_INPUT_WRONG_BLOCK_INDEX
  | OUTPUT_ZERO_AMOUNT
  | OUTPUT_INVALID_KEY
  | OUTPUT_INVALID_REQUIRED_SIGNATURES_COUNT
  | OUTPUT_UNKNOWN_TYPE
  | OUTPUTS_AMOUNT_OVERFLOW
  | WRONG_AMOUNT
  | WRONG_TRANSACTION_UNLOCK_TIME
  | INVALID_MIXIN
  | EXTRA_TOO_LARGE
  | BASE_INVALID_SIGNATURES_COUNT
  | INPUT_INVALID_SIGNATURES_COUNT
  | OUTPUT_AMOUNT_TOO_LARGE
  deriving DecidableEq, Repr

def TransactionValidationError.message : TransactionValidationError → String
  | .VALIDATION_SUCCESS => "Transaction successfully validated"
  | .EMPTY_INPUTS => "Transaction has no inputs"
  | .INPUT_UNKNOWN_TYPE => "Transaction has input with unknown type"
  | .INPUT_EMPTY_OUTPUT_USAGE => "Transaction's input uses empty output"
  | .INPUT_INVALID_DOMAIN_KEYIMAGES => "Transaction uses key image not in the valid domain"
  | .INPUT_IDENTICAL_KEYIMAGES => "Transaction has identical key images"
  | .INPUT_IDENTICAL_OUTPUT_INDEXES => "Transaction has identical output indexes"
  | .INPUT_KEYIMAGE_ALREADY_SPENT => "Transaction contains an input which has already been spent"
  | .INPUT_INVALID_GLOBAL_INDEX => "Transaction has input with invalid global index"
  | .INPUT_SPEND_LOCKED_OUT => "Transaction uses locked input"
  | .INPUT_INVALID_SIGNATURES => "Transaction has input with invalid signature"
  | .INPUT_WRONG_SIGNATURES_COUNT => "Transaction has input with wrong signatures count"
  | .INPUTS_AMOUNT_OVERFLOW => "Transaction's inputs sum overflow"
  | .INPUT_WRONG_COUNT => "Wrong input count"
  | .INPUT_UNEXPECTED_TYPE => "Wrong input type"
  | .BASE_INPUT_WRONG_BLOCK_INDEX => "Base input has wrong block index"
  | .OUTPUT_ZERO_AMOUNT => "Transaction has zero output amount"
  | .OUTPUT_INVALID_KEY => "Transaction has output with invalid key"
  | .OUTPUT_INVALID_REQUIRED_SIGNATURES_COUNT => "Transaction has output with invalid signatures count"
  | .OUTPUT_UNKNOWN_TYPE => "Transaction has unknown output type"
  | .OUTPUTS_AMOUNT_OVERFLOW => "Transaction has outputs amount overflow"
  | .WRONG_AMOUNT => "Transaction wrong amount"
  | .WRONG_TRANSACTION_UNLOCK_TIME => "Transaction has wrong unlock time"
  | .INVALID_MIXIN => "Mixin too large or too small"
  | .EXTRA_TOO_LARGE => "Transaction extra too large"
  | .BASE_INVALID_SIGNATURES_COUNT => "Coinbase transactions must not have input signatures"
  | .INPUT_INVALID_SIGNATURES_COUNT => "The number of input signatures is not correct"
  | .OUTPUT_AMOUNT_TOO_LARGE => "Transaction has output exceeding max output size"

/-- The `std::error_code` `addBlock` returns, or an exception it lets through. -/
inductive ErrorCode
  | addBlock (e : AddBlockErrorCode)
  | blockValidation (e : BlockValidationError)
  | transactionValidation (e : TransactionValidationError)
  | exception (what : String)
  deriving DecidableEq, Repr

/-- `Common::medianValue`: the middle of the sorted values, or the `uint64_t` mean of the two
middle ones. `std::sort` is an insertion sort here: both give the one sorted permutation. -/
def medianValue (v : List UInt64) : UInt64 :=
  match v with
  | [] => 0
  | [x] => x
  | _ =>
    let n := v.length / 2
    let sorted := v.insertionSort (· ≤ ·)
    if v.length % 2 = 1 then sorted.getD n 0
    else (sorted.getD (n - 1) 0 + sorted.getD n 0) / 2

/-- `Utilities::getMixinAllowableRange`: the smallest and largest mixin allowed at a height. -/
def getMixinAllowableRange (height : UInt64) : UInt64 × UInt64 :=
  if height ≥ MIXIN_LIMITS_V3_HEIGHT then (MINIMUM_MIXIN_V3, MAXIMUM_MIXIN_V3)
  else if height ≥ MIXIN_LIMITS_V2_HEIGHT then (MINIMUM_MIXIN_V2, MAXIMUM_MIXIN_V2)
  else if height ≥ MIXIN_LIMITS_V1_HEIGHT then (MINIMUM_MIXIN_V1, MAXIMUM_MIXIN_V1)
  else (0, UInt64.ofNat (2 ^ 64 - 1))

/-- `Mixins::validate(transaction, minMixin, maxMixin)`: the largest ring, less one, is in the
range. -/
def Mixins.validateTransaction (transaction : CachedTransaction) (minMixin maxMixin : UInt64) :
    Bool :=
  let ringSize := transaction.transaction.inputs.foldl
    (fun ringSize input => match input with
      | .key k => max ringSize (UInt64.ofNat k.outputIndexes.length)
      | .base _ => ringSize) 1
  let mixin := ringSize - 1
  !(mixin > maxMixin) && !(mixin < minMixin)

/-- `Mixins::validate(transactions, height)`. The message of a failure is only logged. -/
def Mixins.validate (transactions : List CachedTransaction) (height : UInt64) : Bool :=
  let range := getMixinAllowableRange height
  transactions.all fun transaction => Mixins.validateTransaction transaction range.1 range.2

def getMaximumTransactionAllowedSize (blockSizeMedian : UInt64) (currency : Currency) : UInt64 :=
  blockSizeMedian * 2 - UInt64.ofNat currency.minerTxBlobReservedSize

/-- The key inputs of `validateSemantic`'s input loop: the sum so far and the key images seen. -/
def validateSemanticInput (primitives : Primitives) (acc : UInt64 × List Crypto.KeyImage)
    (input : TransactionInput) : Except TransactionValidationError (UInt64 × List Crypto.KeyImage) :=
  match input with
  | .key k =>
    if k.keyImage ∈ acc.2 then .error .INPUT_IDENTICAL_KEYIMAGES
    else if k.outputIndexes.isEmpty then .error .INPUT_EMPTY_OUTPUT_USAGE
    else if !primitives.keyImageInDomain k.keyImage then .error .INPUT_INVALID_DOMAIN_KEYIMAGES
    else if (0 : UInt32) ∈ k.outputIndexes.tail then .error .INPUT_IDENTICAL_OUTPUT_INDEXES
    else if UInt64.ofNat (2 ^ 64 - 1) - k.amount < acc.1 then .error .INPUTS_AMOUNT_OVERFLOW
    else .ok (acc.1 + k.amount, acc.2 ++ [k.keyImage])
  | .base _ => .error .INPUT_UNKNOWN_TYPE

/-- One output of `validateSemantic`'s output loop, on the sum so far. -/
def validateSemanticOutput (primitives : Primitives) (blockIndex : ℕ) (summaryOutputAmount : UInt64)
    (output : TransactionOutput) : Except TransactionValidationError UInt64 :=
  if output.amount = 0 then .error .OUTPUT_ZERO_AMOUNT
  else if blockIndex ≥ MAX_OUTPUT_SIZE_HEIGHT.toNat ∧ output.amount > MAX_OUTPUT_SIZE_NODE then
    .error .OUTPUT_AMOUNT_TOO_LARGE
  else
    match output.target with
    | .key k =>
      if !primitives.check_key k.key then .error .OUTPUT_INVALID_KEY
      else if UInt64.ofNat (2 ^ 64 - 1) - output.amount < summaryOutputAmount then
        .error .OUTPUTS_AMOUNT_OVERFLOW
      else .ok (summaryOutputAmount + output.amount)

/-- `Core::validateSemantic`: the transaction's own consistency; returns the fee. -/
def validateSemantic (primitives : Primitives) (transaction : Transaction) (blockIndex : ℕ) :
    Except TransactionValidationError UInt64 := do
  if transaction.inputs.isEmpty then throw .EMPTY_INPUTS
  if blockIndex ≥ (MAX_EXTRA_SIZE_V2_HEIGHT + CRYPTONOTE_MINED_MONEY_UNLOCK_WINDOW.toUInt64).toNat ∧
      transaction.extra.length ≥ MAX_EXTRA_SIZE_V2.toNat then
    throw .EXTRA_TOO_LARGE
  let summaryOutputAmount ←
    transaction.outputs.foldlM (validateSemanticOutput primitives blockIndex) 0
  let inputs ← transaction.inputs.foldlM (validateSemanticInput primitives) (0, [])
  if summaryOutputAmount > inputs.1 then throw .WRONG_AMOUNT
  pure (inputs.1 - summaryOutputAmount)

/-- The absolute global indexes of a ring: the first offset and then the running sums, in
`uint32_t`. -/
def absoluteOutputIndexes (outputIndexes : List UInt32) : List ℕ :=
  (outputIndexes.foldl (fun (acc : List UInt32) offset => match acc.getLast? with
    | none => [offset]
    | some last => acc ++ [last + offset]) []).map (·.toNat)

/-- One key input of `validateTransaction`'s loop, number `inputIndex`, with the validator
state so far. Outside the checkpoint zone the input must be unspent on the chain up to
`blockIndex`, its ring must exist and be unlocked, and its signature must verify. -/
def validateTransactionInput (currency : Currency) (checkpoints : Checkpoints)
    (primitives : Primitives) (cachedTransaction : CachedTransaction) (path : List BlockchainCache)
    (blockIndex : ℕ) (state : TransactionValidatorState) (inputIndex : ℕ)
    (input : TransactionInput) : Except TransactionValidationError TransactionValidatorState :=
  match input with
  | .base _ => .error .INPUT_UNKNOWN_TYPE
  | .key k =>
    if k.keyImage ∈ state.spentKeyImages then .error .INPUT_KEYIMAGE_ALREADY_SPENT
    else
      let state : TransactionValidatorState := ⟨insert k.keyImage state.spentKeyImages⟩
      if checkpoints.isInCheckpointZone (blockIndex + 1) then .ok state
      else if BlockchainCache.checkIfSpent k.keyImage blockIndex path then
        .error .INPUT_KEYIMAGE_ALREADY_SPENT
      else
        let signatures := cachedTransaction.transaction.signatures.getD inputIndex []
        match BlockchainCache.extractKeyOutputKeys currency path k.amount blockIndex
            (absoluteOutputIndexes k.outputIndexes) with
        | .error .OUTPUT_LOCKED => .error .INPUT_SPEND_LOCKED_OUT
        | .error _ => .error .INPUT_INVALID_GLOBAL_INDEX
        | .ok outputKeys =>
          if blockIndex ≥ TRANSACTION_SIGNATURE_COUNT_VALIDATION_HEIGHT.toNat ∧
              outputKeys.length ≠ signatures.length then
            .error .INPUT_INVALID_SIGNATURES_COUNT
          else if !primitives.checkRingSignature cachedTransaction.transactionPrefixHash k.keyImage
              outputKeys signatures then
            .error .INPUT_INVALID_SIGNATURES
          else .ok state

/-- The loop of `validateTransaction` over the inputs, numbered from `inputIndex`. -/
def validateTransactionInputs (currency : Currency) (checkpoints : Checkpoints)
    (primitives : Primitives) (cachedTransaction : CachedTransaction) (path : List BlockchainCache)
    (blockIndex : ℕ) : TransactionValidatorState → ℕ → List TransactionInput →
      Except TransactionValidationError TransactionValidatorState
  | state, _, [] => .ok state
  | state, inputIndex, input :: inputs => do
    let state ← validateTransactionInput currency checkpoints primitives cachedTransaction path
      blockIndex state inputIndex input
    validateTransactionInputs currency checkpoints primitives cachedTransaction path blockIndex
      state (inputIndex + 1) inputs

/-- `Core::validateTransaction` against the chain through the path's head, up to `blockIndex`:
returns the validator state with the transaction's key images added, and the fee. -/
def validateTransaction (currency : Currency) (checkpoints : Checkpoints) (primitives : Primitives)
    (cachedTransaction : CachedTransaction) (state : TransactionValidatorState)
    (path : List BlockchainCache) (blockIndex : ℕ) :
    Except TransactionValidationError (TransactionValidatorState × UInt64) := do
  let fee ← validateSemantic primitives cachedTransaction.transaction blockIndex
  let state ← validateTransactionInputs currency checkpoints primitives cachedTransaction path
    blockIndex state 0 cachedTransaction.transaction.inputs
  pure (state, fee)

/-- One output of `validateBlock`'s coinbase loop, on the reward so far. -/
def validateBaseOutput (primitives : Primitives) (minerReward : UInt64) (output : TransactionOutput) :
    Except TransactionValidationError UInt64 :=
  if output.amount = 0 then .error .OUTPUT_ZERO_AMOUNT
  else
    match output.target with
    | .key k =>
      if !primitives.check_key k.key then .error .OUTPUT_INVALID_KEY
      else if UInt64.ofNat (2 ^ 64 - 1) - output.amount < minerReward then
        .error .OUTPUTS_AMOUNT_OVERFLOW
      else .ok (minerReward + output.amount)

/-- The parent block rules of `validateBlock`, for a block of version 2 or later. -/
def checkParentBlock (primitives : Primitives) (block : BlockTemplate) : Except ErrorCode Unit :=
  if block.majorVersion ≥ BLOCK_MAJOR_VERSION_2 then do
    ExceptRun.throwIf (block.majorVersion = BLOCK_MAJOR_VERSION_2 ∧
        block.parentBlock.majorVersion > BLOCK_MAJOR_VERSION_1)
      (.blockValidation .PARENT_BLOCK_WRONG_VERSION)
    ExceptRun.throwIf (primitives.getParentBlockBinaryArraySize block > 2048)
      (.blockValidation .PARENT_BLOCK_SIZE_TOO_BIG)
  else pure ()

/-- The coinbase input rules of `validateBlock`: one base input, for the block after
`previousBlockIndex`. -/
def checkBaseInput (block : BlockTemplate) (previousBlockIndex : ℕ) : Except ErrorCode Unit :=
  match block.baseTransaction.inputs with
  | [.base baseInput] =>
    ExceptRun.throwIf (baseInput.blockIndex.toNat ≠ previousBlockIndex + 1)
      (.transactionValidation .BASE_INPUT_WRONG_BLOCK_INDEX)
  | [.key _] => throw (.transactionValidation .INPUT_UNEXPECTED_TYPE)
  | _ => throw (.transactionValidation .INPUT_WRONG_COUNT)

/-- `Core::validateBlock` of a block following `previousBlockIndex` on the chain through the
path's head, at clock reading `adjustedTime`: returns the sum of the coinbase outputs. -/
def validateBlock (currency : Currency) (primitives : Primitives) (cachedBlock : CachedBlock)
    (path : List BlockchainCache) (previousBlockIndex : ℕ) (adjustedTime : UInt64) :
    Except ErrorCode UInt64 := do
  let block := cachedBlock.block
  ExceptRun.throwIf (currency.getBlockMajorVersion cachedBlock.getBlockIndex ≠ block.majorVersion)
    (.blockValidation .WRONG_VERSION)
  checkParentBlock primitives block
  ExceptRun.throwIf (block.timestamp >
      adjustedTime + currency.blockFutureTimeLimit (UInt32.ofNat (previousBlockIndex + 1)))
    (.blockValidation .TIMESTAMP_TOO_FAR_IN_FUTURE)
  let window := currency.timestampCheckWindow (UInt32.ofNat (previousBlockIndex + 1))
  let timestamps := BlockchainCache.getLastUnits window previousBlockIndex true (·.timestamp) path
  ExceptRun.throwIf (timestamps.length ≥ window ∧ block.timestamp < medianValue timestamps)
    (.blockValidation .TIMESTAMP_TOO_FAR_IN_PAST)
  checkBaseInput block previousBlockIndex
  ExceptRun.throwIf (block.baseTransaction.unlockTime.toNat ≠
      previousBlockIndex + 1 + currency.minedMoneyUnlockWindow.toNat)
    (.transactionValidation .WRONG_TRANSACTION_UNLOCK_TIME)
  ExceptRun.throwIf (cachedBlock.getBlockIndex.toNat ≥
      TRANSACTION_SIGNATURE_COUNT_VALIDATION_HEIGHT.toNat ∧
      !block.baseTransaction.signatures.isEmpty)
    (.transactionValidation .BASE_INVALID_SIGNATURES_COUNT)
  (block.baseTransaction.outputs.foldlM (validateBaseOutput primitives) 0).mapError
    .transactionValidation

/-- `Core::extractTransactions`: parses the transaction blobs, each at most `maxTxSize` bytes,
and sums their sizes; nothing when one is too big or does not parse. -/
def extractTransactions (currency : Currency) (primitives : Primitives)
    (rawTransactions : List BinaryArray) : Option (List CachedTransaction × ℕ) :=
  rawTransactions.foldlM (fun (acc : List CachedTransaction × ℕ) rawTransaction =>
    if rawTransaction.length > currency.maxTxSize then none
    else (primitives.cachedTransaction rawTransaction).map fun transaction =>
      (acc.1 ++ [transaction], acc.2 + rawTransaction.length)) ([], 0)

/-- The node. `currency`, `checkpoints` and `primitives` never change. -/
structure Core where
  currency : Currency
  checkpoints : Checkpoints
  primitives : Primitives
  chainsStorage : List BlockchainCache
  chainsLeaves : List ℕ
  mainChainSet : Finset ℕ
  transactionPool : TransactionPool
  blockMedianSize : UInt64

namespace Core

/-- The positions of the segments from `id` to the root. -/
def pathIds (core : Core) (id : ℕ) : List ℕ :=
  ParentStore.path BlockchainCache.parent BlockchainCache.startIndex core.chainsStorage id

/-- The segments from `id` to the root: what a query on the segment at `id` walks. -/
def segments (core : Core) (id : ℕ) : List BlockchainCache :=
  (core.pathIds id).filterMap (core.chainsStorage[·]?)

def mainChain (core : Core) : ℕ := core.chainsLeaves.headD 0

/-- `findIndexInChain(leaf, blockHash)`: the first segment from the leaf down that holds it. -/
def findIndexInChain (core : Core) (leaf : ℕ) (blockHash : Crypto.Hash) : Option ℕ :=
  (core.pathIds leaf).find? fun j => (core.chainsStorage[j]?).any (·.hasBlock blockHash)

/-- `findSegmentContainingBlock`: the main chain first, then the alternative chains in order. -/
def findSegmentContainingBlock (core : Core) (blockHash : Crypto.Hash) : Option ℕ :=
  core.chainsLeaves.findSome? fun leaf => core.findIndexInChain leaf blockHash

def hasBlock (core : Core) (blockHash : Crypto.Hash) : Bool :=
  (core.findSegmentContainingBlock blockHash).isSome

/-- `findSegmentContainingTransaction`: the whole main chain, then each alternative chain down
to where it joins the main chain. -/
def findSegmentContainingTransaction (core : Core) (transactionHash : Crypto.Hash) : Option ℕ :=
  let holds (j : ℕ) : Bool := (core.chainsStorage[j]?).any (·.hasTransaction transactionHash)
  match core.chainsLeaves with
  | [] => none
  | main :: alternatives =>
    ((core.pathIds main).find? holds).or
      (alternatives.findSome? fun leaf =>
        ((core.pathIds leaf).takeWhile (· ∉ core.mainChainSet)).find? holds)

def isTransactionInChain (core : Core) (transactionHash : Crypto.Hash) : Bool :=
  (core.findSegmentContainingTransaction transactionHash).isSome

def getTopBlockIndex (core : Core) : ℕ :=
  ((core.chainsStorage[core.mainChain]?).map (·.getTopBlockIndex)).getD 0

def updateMainChainSet (core : Core) : Core :=
  { core with mainChainSet := (core.pathIds core.mainChain).toFinset }

/-- `updateBlockMedianSize`: the median of the main chain's last block sizes, at least the
full reward zone of the next block's version. -/
def updateBlockMedianSize (core : Core) : Core :=
  let top := core.getTopBlockIndex
  let nextBlockGrantedFullRewardZone := core.currency.blockGrantedFullRewardZoneByBlockVersion
    (core.currency.getBlockMajorVersion (UInt32.ofNat (top + 1)))
  let lastBlockSizes := BlockchainCache.getLastUnits core.currency.rewardBlocksWindow top false
    (·.blockSize.toUInt64) (core.segments core.mainChain)
  { core with blockMedianSize := max (medianValue lastBlockSizes) nextBlockGrantedFullRewardZone }

/-- `isTransactionValidForPool`: the pool's own rules, then `validateTransaction` against the
main chain at its top. Returns the transaction's validator state, or the reason to refuse. -/
def isTransactionValidForPool (core : Core) (cachedTransaction : CachedTransaction) :
    Except String TransactionValidatorState :=
  if !Mixins.validate [cachedTransaction] (UInt64.ofNat core.getTopBlockIndex) then
    .error "Transaction does not contain the proper number of ring signatures"
  else if cachedTransaction.transaction.extra.length ≥ MAX_EXTRA_SIZE_V2.toNat then
    .error "Transaction extra data is too large"
  else if cachedTransaction.transactionBinaryArray.length >
      (getMaximumTransactionAllowedSize core.blockMedianSize core.currency).toNat then
    .error "Transaction size (bytes) is too large"
  else
    match validateTransaction core.currency core.checkpoints core.primitives cachedTransaction ⟨∅⟩
        (core.segments core.mainChain) core.getTopBlockIndex with
    | .error e => .error e.message
    | .ok (validatorState, fee) =>
      let isFusion := fee == 0 && core.currency.isFusionTransaction cachedTransaction.transaction
        cachedTransaction.transactionBinaryArray.length (UInt32.ofNat core.getTopBlockIndex)
      if !isFusion && fee < core.currency.minimumFee then .error "Transaction fee is too small"
      else .ok validatorState

/-- `addTransactionToPool(CachedTransaction&&)` at clock reading `receiveTime`. -/
def addTransactionToPool (core : Core) (cachedTransaction : CachedTransaction)
    (receiveTime : UInt64) : (Bool × String) × Core :=
  if core.transactionPool.checkIfTransactionPresent cachedTransaction.transactionHash then
    ((false, "Transaction already exists in pool"), core)
  else
    match core.isTransactionValidForPool cachedTransaction with
    | .error error => ((false, error), core)
    | .ok validatorState =>
      let pushed := core.transactionPool.pushTransaction cachedTransaction validatorState receiveTime
      if !pushed.1 then ((false, "Transaction already exists in pool"), core)
      else ((true, ""), { core with transactionPool := pushed.2 })

/-- `addTransactionToPool(const BinaryArray&)`: parses the blob first. -/
def addRawTransactionToPool (core : Core) (transactionBinaryArray : BinaryArray)
    (receiveTime : UInt64) : (Bool × String) × Core :=
  match core.primitives.cachedTransaction transactionBinaryArray with
  | none => ((false, "Could not deserialize transaction"), core)
  | some cachedTransaction => core.addTransactionToPool cachedTransaction receiveTime

/-- One pool transaction of `checkAndRemoveInvalidPoolTransactions`: removed when it is in the
chain, breaks the mixin rule or the size limit, or spends a key image of the new block. -/
def checkPoolTransaction (core : Core) (blockTransactionsState : TransactionValidatorState)
    (pool : TransactionPool) (poolTxHash : Crypto.Hash) : TransactionPool :=
  match pool.getTransaction? poolTxHash with
  | none => pool
  | some poolTx =>
    let maxTransactionSize := getMaximumTransactionAllowedSize core.blockMedianSize core.currency
    let isValid := !core.isTransactionInChain poolTxHash &&
      Mixins.validate [poolTx] (UInt64.ofNat core.getTopBlockIndex) &&
      !(poolTx.transactionBinaryArray.length > maxTransactionSize.toNat) &&
      !hasIntersections blockTransactionsState (extractSpentOutputs poolTx)
    if isValid then pool else (pool.removeTransaction poolTxHash).2

def checkAndRemoveInvalidPoolTransactions (core : Core)
    (blockTransactionsState : TransactionValidatorState) : Core :=
  let pool := core.transactionPool.getTransactionHashes.foldl
    (core.checkPoolTransaction blockTransactionsState) core.transactionPool
  { core with transactionPool := pool }

/-- `copyTransactionsToPool(alt)`: the transactions of the segments from `alt` down to the main
chain go back to the pool, at clock reading `receiveTime`. -/
def copyTransactionsToPool (core : Core) (alt : ℕ) (receiveTime : UInt64) : Core :=
  ((core.pathIds alt).takeWhile (· ∉ core.mainChainSet)).foldl (fun core j =>
    let path := (ParentStore.path BlockchainCache.parent BlockchainCache.startIndex
      core.chainsStorage j).filterMap (core.chainsStorage[·]?)
    match core.chainsStorage[j]? with
    | none => core
    | some segment =>
      (BlockchainCache.getRawTransactions core.primitives path segment.getTransactionHashes).foldl
        (fun core transaction => (core.addRawTransactionToPool transaction receiveTime).2) core)
    core

def setSegment (core : Core) (id : ℕ) (segment : BlockchainCache) : Core :=
  { core with chainsStorage := core.chainsStorage.set id segment }

/-- Points the segments at `children` to a new parent (`fixChildrenParent`). -/
def setParent (core : Core) (children : List ℕ) (parent : ℕ) : Core :=
  { core with chainsStorage := core.chainsStorage.mapIdx fun j segment =>
      if j ∈ children then { segment with parent := some parent } else segment }

/-- The transaction hash rules of `addBlock` from `BLOCK_BLOB_SHUFFLE_CHECK_HEIGHT` on: the
template lists the hashes of the parsed transactions, in their order, each once. -/
def checkTransactionHashes (blockIndex : ℕ) (blockTemplate : BlockTemplate)
    (transactions : List CachedTransaction) : Except ErrorCode Unit :=
  if blockIndex ≥ BLOCK_BLOB_SHUFFLE_CHECK_HEIGHT.toNat then do
    ExceptRun.throwIf (!blockTemplate.transactionHashes.Nodup)
      (.blockValidation .TRANSACTION_DUPLICATES)
    let transactionHashes := transactions.map (·.transactionHash)
    ExceptRun.throwIf (!transactionHashes.Nodup) (.blockValidation .TRANSACTION_DUPLICATES)
    ExceptRun.throwIf (transactionHashes.any (· ∉ blockTemplate.transactionHashes))
      (.blockValidation .TRANSACTION_INCONSISTENCY)
    ExceptRun.throwIf (blockTemplate.transactionHashes ≠ transactionHashes)
      (.blockValidation .TRANSACTION_INCONSISTENCY)
  else pure ()

/-- The last rule of `addBlock`'s validation: a block in the checkpoint zone must match its
checkpoint, and one after it must meet the difficulty. -/
def checkBlockProof (core : Core) (cachedBlock : CachedBlock) (currentDifficulty : UInt64) :
    Except ErrorCode Unit :=
  let blockIndex := cachedBlock.getBlockIndex.toNat
  if core.checkpoints.isInCheckpointZone blockIndex then
    ExceptRun.throwIf (!core.checkpoints.checkBlock blockIndex cachedBlock.blockHash)
      (.blockValidation .CHECKPOINT_BLOCK_HASH_MISMATCH)
  else
    ExceptRun.throwIf (!core.currency.checkProofOfWork cachedBlock currentDifficulty)
      (.blockValidation .PROOF_OF_WORK_TOO_WEAK)

/-- What `addBlock` has checked when it changes the tree: the segment holding the predecessor
and its position, the parsed transactions with their validator state, the block's size,
emission change and difficulty. -/
structure ValidatedBlock where
  cacheId : ℕ
  previousBlockIndex : ℕ
  transactions : List CachedTransaction
  validatorState : TransactionValidatorState
  cumulativeBlockSize : ℕ
  emissionChange : UInt64
  currentDifficulty : UInt64

/-- One transaction of `addBlock`'s loop: validated against the path with the block's state so
far, its fee added to the cumulative fee. -/
def validateBlockTransaction (core : Core) (path : List BlockchainCache) (previousBlockIndex : ℕ)
    (acc : TransactionValidatorState × UInt64) (transaction : CachedTransaction) :
    Except TransactionValidationError (TransactionValidatorState × UInt64) :=
  (validateTransaction core.currency core.checkpoints core.primitives transaction acc.1 path
    previousBlockIndex).map fun result => (result.1, acc.2 + result.2)

/-- The validation part of `addBlock`, up to the proof-of-work check. -/
def validateAddedBlock (core : Core) (cachedBlock : CachedBlock) (rawBlock : RawBlock)
    (adjustedTime : UInt64) : Except ErrorCode ValidatedBlock := do
  let blockIndex := cachedBlock.getBlockIndex.toNat
  ExceptRun.throwIf (core.hasBlock cachedBlock.blockHash) (.addBlock .ALREADY_EXISTS)
  let blockTemplate := cachedBlock.block
  let previousBlockHash := blockTemplate.previousBlockHash
  let cacheId ← ExceptRun.ofOption (.addBlock .REJECTED_AS_ORPHANED)
    (core.findSegmentContainingBlock previousBlockHash)
  let extracted ← ExceptRun.ofOption (.addBlock .DESERIALIZATION_FAILED)
    (extractTransactions core.currency core.primitives rawBlock.transactions)
  let transactions := extracted.1
  let coinbaseTransactionSize := core.primitives.getObjectBinarySize blockTemplate.baseTransaction
  let cumulativeBlockSize := coinbaseTransactionSize + extracted.2
  let path := core.segments cacheId
  let cache ← ExceptRun.ofOption (.exception "no such block") core.chainsStorage[cacheId]?
  let previousBlockIndex ← (cache.getBlockIndex previousBlockHash).mapError .exception
  let maxBlockCumulativeSize :=
    core.currency.maxBlockCumulativeSize (UInt64.ofNat (previousBlockIndex + 1))
  ExceptRun.throwIf (cumulativeBlockSize > maxBlockCumulativeSize.toNat)
    (.blockValidation .CUMULATIVE_BLOCK_SIZE_TOO_BIG)
  let minerReward ← validateBlock core.currency core.primitives cachedBlock path previousBlockIndex
    adjustedTime
  let currentDifficulty :=
    BlockchainCache.getDifficultyForNextBlock core.currency previousBlockIndex path
  ExceptRun.throwIf (currentDifficulty = 0) (.blockValidation .DIFFICULTY_OVERHEAD)
  checkTransactionHashes blockIndex blockTemplate transactions
  let mixinChangeWindow := if blockIndex > CRYPTONOTE_MINED_MONEY_UNLOCK_WINDOW.toNat then
    blockIndex - CRYPTONOTE_MINED_MONEY_UNLOCK_WINDOW.toNat else blockIndex
  ExceptRun.throwIf (!Mixins.validate transactions (UInt64.ofNat blockIndex) &&
      !Mixins.validate transactions (UInt64.ofNat mixinChangeWindow))
    (.transactionValidation .INVALID_MIXIN)
  let validated ← (transactions.foldlM (core.validateBlockTransaction path previousBlockIndex)
    (⟨∅⟩, 0)).mapError .transactionValidation
  let alreadyGeneratedCoins := BlockchainCache.getAlreadyGeneratedCoins previousBlockIndex path
  let lastBlocksSizes := BlockchainCache.getLastUnits core.currency.rewardBlocksWindow
    previousBlockIndex true (·.blockSize.toUInt64) path
  let blocksSizeMedian := medianValue lastBlocksSizes
  let rewards ← ExceptRun.ofOption (.blockValidation .CUMULATIVE_BLOCK_SIZE_TOO_BIG)
    (core.currency.getBlockReward blockTemplate.majorVersion blocksSizeMedian
      (UInt64.ofNat cumulativeBlockSize) alreadyGeneratedCoins validated.2)
  ExceptRun.throwIf (minerReward ≠ rewards.1) (.blockValidation .BLOCK_REWARD_MISMATCH)
  core.checkBlockProof cachedBlock currentDifficulty
  pure ⟨cacheId, previousBlockIndex, transactions, validated.1, cumulativeBlockSize, rewards.2,
    currentDifficulty⟩

/-- Pushes a validated block on the segment at `id`, whose parents are read from the store. -/
def pushBlockOn (core : Core) (id : ℕ) (cachedBlock : CachedBlock) (rawBlock : RawBlock)
    (validated : ValidatedBlock) : Core :=
  match core.segments id with
  | [] => core
  | segment :: parents =>
    core.setSegment id (segment.doPushBlock core.primitives parents cachedBlock
      validated.transactions validated.validatorState validated.cumulativeBlockSize
      validated.emissionChange validated.currentDifficulty rawBlock)

/-- A new leaf forked from the top of the segment at `parentId`, holding the validated block. -/
def forkLeaf (core : Core) (parentId : ℕ) (cachedBlock : CachedBlock) (rawBlock : RawBlock)
    (validated : ValidatedBlock) : Core :=
  let newId := core.chainsStorage.length
  let core := match core.chainsStorage[parentId]? with
    | none => core
    | some parent => core.setSegment parentId (parent.addChild newId)
  let core := { core with
    chainsStorage := core.chainsStorage ++
      [BlockchainCache.empty (some parentId) (validated.previousBlockIndex + 1)]
    chainsLeaves := core.chainsLeaves ++ [newId] }
  core.pushBlockOn newId cachedBlock rawBlock validated

/-- `split(previousBlockIndex + 1)` of the segment at `cacheId` inside the store: the upper part
is appended and, when it has no children, takes the segment's place among the leaves. A
`BlockchainCache` hands its children over to the upper part. The daemon keeps the root, the one
segment without a parent, in a `DatabaseBlockchainCache`, which keeps them. A root that is no
leaf is not found among the leaves; the `assert` is compiled out under `NDEBUG` and no leaf
changes. -/
def splitSegment (core : Core) (cacheId splitBlockIndex : ℕ) : Core :=
  match core.chainsStorage[cacheId]? with
  | none => core
  | some cache =>
    let upperId := core.chainsStorage.length
    let parts := if cache.parent.isNone then cache.splitDatabase cacheId upperId splitBlockIndex
      else cache.split cacheId upperId splitBlockIndex
    let core := core.setSegment cacheId parts.1
    let core := if cache.parent.isNone then core else core.setParent cache.children upperId
    { core with
      chainsStorage := core.chainsStorage ++ [parts.2]
      chainsLeaves := if parts.2.getChildCount = 0 then
          core.chainsLeaves.map fun leaf => if leaf = cacheId then upperId else leaf
        else core.chainsLeaves }

/-- `Core::addBlock(cachedBlock, rawBlock)` at clock reading `adjustedTime`: the result code
and the new state, or the error of a rejected block, which changes nothing. -/
def addBlock (core : Core) (cachedBlock : CachedBlock) (rawBlock : RawBlock)
    (adjustedTime : UInt64) : Except ErrorCode (AddBlockErrorCode × Core) := do
  let validated ← core.validateAddedBlock cachedBlock rawBlock adjustedTime
  let cacheId := validated.cacheId
  let some cache := core.chainsStorage[cacheId]? | throw (.exception "no such block")
  if cache.getTopBlockIndex = validated.previousBlockIndex then
    if cache.getChildCount = 0 then
      let pushed := core.pushBlockOn cacheId cachedBlock rawBlock validated
      if cacheId = core.mainChain then
        pure (.ADDED_TO_MAIN,
          pushed.updateBlockMedianSize.checkAndRemoveInvalidPoolTransactions validated.validatorState)
      else
        let mainChainCache : UInt64 := ((pushed.chainsStorage[pushed.mainChain]?).map
          BlockchainCache.getCurrentCumulativeDifficulty).getD 0
        let pushedCache : UInt64 := ((pushed.chainsStorage[cacheId]?).map
          BlockchainCache.getCurrentCumulativeDifficulty).getD 0
        if pushedCache > mainChainCache then
          let endpointIndex := pushed.chainsLeaves.idxOf cacheId
          let switched := { pushed with
            chainsLeaves := (pushed.chainsLeaves.set 0 cacheId).set endpointIndex pushed.mainChain }
          let switched := switched.updateMainChainSet.updateBlockMedianSize
          let switched := switched.checkAndRemoveInvalidPoolTransactions validated.validatorState
          pure (.ADDED_TO_ALTERNATIVE_AND_SWITCHED,
            switched.copyTransactionsToPool pushed.mainChain adjustedTime)
        else pure (.ADDED_TO_ALTERNATIVE, pushed)
    else
      let forked := core.forkLeaf cacheId cachedBlock rawBlock validated
      pure (.ADDED_TO_ALTERNATIVE, forked.updateMainChainSet.updateBlockMedianSize)
  else
    let split := core.splitSegment cacheId (validated.previousBlockIndex + 1)
    let forked := split.forkLeaf cacheId cachedBlock rawBlock validated
    pure (.ADDED_TO_ALTERNATIVE, forked.updateMainChainSet)

/-- `initRootSegment`: the root segment with the genesis block, the only leaf and main chain,
and an empty pool. The daemon's root is a `DatabaseBlockchainCache` on an empty database; its
blocks are kept as a `BlockchainCache` keeps them, and only its split differs (`splitSegment`). -/
def init (currency : Currency) (checkpoints : Checkpoints) (primitives : Primitives) : Core :=
  updateBlockMedianSize ⟨currency, checkpoints, primitives,
    [BlockchainCache.root currency primitives], [0], {0}, TransactionPool.empty, 0⟩

end Core

end CryptoNote
