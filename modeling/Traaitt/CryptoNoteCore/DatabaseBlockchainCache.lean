import Traaitt.CryptoNoteCore.BlockchainCache

/-! `DatabaseBlockchainCache`: the main chain's root segment when it is kept in a database. Some
values are kept in memory as well: the top block's index, the number of transactions, and the
number of key outputs of each amount. `pushBlock` builds one write batch for the block and writes
it at the end. While it builds the batch, `pushTransaction` raises the counts kept in memory, and
nothing lowers them again when the write fails and `pushBlock` throws. The database is left as it
was, but the cache now counts the block's transactions and outputs, and the next block it pushes
gets global output indexes past those of the block that was never written. -/

namespace CryptoNote

open ListContainer

/-- `KeyOutputInfo`: what the database keeps of a key output. -/
structure KeyOutputInfo where
  publicKey : Crypto.PublicKey
  transactionHash : Crypto.Hash
  unlockTime : UInt64
  outputIndex : UInt16

/-- `ExtendedTransactionInfo`: what the database keeps of a transaction. -/
structure ExtendedTransactionInfo where
  blockIndex : UInt32
  transactionIndex : UInt16
  transactionHash : Crypto.Hash
  unlockTime : UInt64
  outputs : List TransactionOutputTarget
  globalIndexes : List UInt32
  amountToKeyIndexes : List (UInt64 × List UInt32)

/-- The writes of the `BlockchainWriteBatch` that `pushBlock` builds, in order. -/
inductive WriteOperation
  | insertSpentKeyImages (blockIndex : UInt32) (spentKeyImages : Finset Crypto.KeyImage)
  | insertCachedBlock (blockInfo : CachedBlockInfo) (blockIndex : UInt32)
      (transactionHashes : List Crypto.Hash)
  | insertRawBlock (blockIndex : UInt32) (rawBlock : RawBlock)
  | insertKeyOutputInfo (amount : UInt64) (globalIndex : UInt32) (outputInfo : KeyOutputInfo)
  | insertKeyOutputGlobalIndexes (amount : UInt64) (outputs : List PackedOutIndex)
      (totalCount : UInt32)
  | insertKeyOutputAmounts (amounts : Finset UInt64) (totalCount : UInt32)
  | insertPaymentId (transactionHash paymentId : Crypto.Hash) (totalCount : UInt32)
  | insertCachedTransaction (info : ExtendedTransactionInfo) (totalTxsCount : UInt64)
  | insertClosestTimestampBlockIndex (midnight : UInt64) (blockIndex : UInt32)
  | insertTimestamp (timestamp : UInt64) (blockHashes : List Crypto.Hash)

/-- The reads `DatabaseBlockchainCache` makes of its `IDataBase`, on the database's content `δ`,
and `write`, which gives the content after the batch or the message of the error it returns.
A read answers `none` for a key the database does not hold, as `deserializeValues` erases it;
the closest-timestamp read may also fail as a whole, which `pushBlock` reports. -/
structure IDataBase (δ : Type) where
  lastBlockIndex : δ → Option UInt32
  transactionsCount : δ → Option UInt64
  cachedBlock : δ → UInt32 → Option CachedBlockInfo
  keyOutputGlobalIndexesCountForAmount : δ → UInt64 → Option UInt32
  keyOutputAmountsCount : δ → UInt32
  transactionCountByPaymentId : δ → Crypto.Hash → Option UInt32
  blockHashesByTimestamp : δ → UInt64 → Option (List Crypto.Hash)
  closestTimestampBlockIndex : δ → UInt64 → Option (Option UInt32)
  write : δ → List WriteOperation → Except String δ

/-- The cache: its database's content and what it keeps in memory. `keyOutputCountsForAmounts` is
the `unordered_map` as a list of pairs. -/
structure DatabaseBlockchainCache (δ : Type) where
  database : δ
  topBlockIndex : Option UInt32
  topBlockHash : Option Crypto.Hash
  transactionsCount : Option UInt64
  keyOutputAmountsCount : Option UInt32
  keyOutputCountsForAmounts : List (UInt64 × UInt32)
  unitsCache : List CachedBlockInfo

def ONE_DAY_SECONDS : UInt64 := 60 * 60 * 24

/-- `roundToMidnight(timestamp)`, which throws above `time_t`'s range. -/
def roundToMidnight (timestamp : UInt64) : Except String UInt64 :=
  if timestamp.toNat > 2 ^ 63 - 1 then .error "Timestamp is too big"
  else .ok (timestamp / ONE_DAY_SECONDS * ONE_DAY_SECONDS)

namespace DatabaseBlockchainCache

variable {δ : Type} (db : IDataBase δ)

def unitsCacheSize : ℕ := 1000

/-- `getTopBlockIndex()`, which loads the index the first time. -/
def getTopBlockIndex (c : DatabaseBlockchainCache δ) : UInt32 × DatabaseBlockchainCache δ :=
  match c.topBlockIndex with
  | some index => (index, c)
  | none =>
    let index := (db.lastBlockIndex c.database).getD 0
    (index, { c with topBlockIndex := some index })

/-- `getCachedTransactionsCount()`, which loads the count the first time. -/
def getCachedTransactionsCount (c : DatabaseBlockchainCache δ) :
    UInt64 × DatabaseBlockchainCache δ :=
  match c.transactionsCount with
  | some count => (count, c)
  | none =>
    let count := (db.transactionsCount c.database).getD 0
    (count, { c with transactionsCount := some count })

/-- `updateKeyOutputCount(amount, diff)`: the count of key outputs of `amount`, loaded the first
time, plus `diff`; a new amount also raises the number of amounts. `pushTransaction` passes `1`
and `0`. -/
def updateKeyOutputCount (c : DatabaseBlockchainCache δ) (amount : UInt64) (diff : UInt32) :
    UInt32 × DatabaseBlockchainCache δ :=
  let (count, c) : UInt32 × DatabaseBlockchainCache δ :=
    let amountsCount := c.keyOutputAmountsCount.getD (db.keyOutputAmountsCount c.database)
    match c.keyOutputCountsForAmounts.lookup amount with
    | none =>
      let val := (db.keyOutputGlobalIndexesCountForAmount c.database amount).getD 0
      if val = 0 then (val, { c with keyOutputAmountsCount := some (amountsCount + 1) })
      else (val, c)
    | some count => (count, { c with keyOutputAmountsCount := some amountsCount })
  (count + diff,
    { c with keyOutputCountsForAmounts := upsert c.keyOutputCountsForAmounts amount (count + diff) })

/-- What the loop of `pushTransaction` over the outputs carries. -/
structure OutputsAcc (δ : Type) where
  cache : DatabaseBlockchainCache δ
  batch : List WriteOperation
  outputCount : ℕ
  globalIndexes : List UInt32
  amountToKeyIndexes : List (UInt64 × List UInt32)
  keyIndexes : List (UInt64 × List PackedOutIndex)
  newKeyAmounts : Finset UInt64

/-- One output of `pushTransaction`: its count is raised and its global index is the count
before. -/
def pushOutput (blockIndex : UInt32) (transactionBlockIndex : UInt16) (transactionHash : Crypto.Hash)
    (unlockTime : UInt64) (acc : OutputsAcc δ) (output : TransactionOutput) : OutputsAcc δ :=
  let poi : PackedOutIndex := ⟨blockIndex.toNat, transactionBlockIndex.toNat, acc.outputCount⟩
  match output.target with
  | .key keyOutput =>
    let (outputCountForAmount, cache) := acc.cache.updateKeyOutputCount db output.amount 1
    let globalIndex := outputCountForAmount - 1
    { cache := cache
      batch := acc.batch ++ [.insertKeyOutputInfo output.amount globalIndex
        ⟨keyOutput.key, transactionHash, unlockTime, acc.outputCount.toUInt16⟩]
      outputCount := acc.outputCount + 1
      globalIndexes := acc.globalIndexes ++ [globalIndex]
      amountToKeyIndexes := pushAt acc.amountToKeyIndexes output.amount globalIndex
      keyIndexes := pushAt acc.keyIndexes output.amount poi
      newKeyAmounts := if outputCountForAmount = 1 then insert output.amount acc.newKeyAmounts
        else acc.newKeyAmounts }

/-- The loop of `pushTransaction` over `keyIndexes`, in the map's order: the outputs of each
amount with the count already raised. -/
def insertKeyOutputGlobalIndexes :
    List (UInt64 × List PackedOutIndex) → DatabaseBlockchainCache δ → List WriteOperation →
      DatabaseBlockchainCache δ × List WriteOperation
  | [], c, batch => (c, batch)
  | (amount, outputs) :: keyIndexes, c, batch =>
    let (count, c) := c.updateKeyOutputCount db amount 0
    insertKeyOutputGlobalIndexes keyIndexes c (batch ++ [.insertKeyOutputGlobalIndexes amount outputs count])

/-- `pushTransaction(cachedTransaction, blockIndex, transactionBlockIndex, batch)`. -/
def pushTransaction (primitives : Primitives) (cachedTransaction : CachedTransaction)
    (blockIndex : UInt32) (transactionBlockIndex : UInt16) (c : DatabaseBlockchainCache δ)
    (batch : List WriteOperation) : DatabaseBlockchainCache δ × List WriteOperation :=
  let tx := cachedTransaction.transaction
  let acc := tx.outputs.foldl
    (pushOutput db blockIndex transactionBlockIndex cachedTransaction.transactionHash tx.unlockTime)
    ⟨c, batch, 0, [], [], [], ∅⟩
  let (c, batch) := insertKeyOutputGlobalIndexes db acc.keyIndexes acc.cache acc.batch
  let batch := if acc.newKeyAmounts = ∅ then batch
    else batch ++ [.insertKeyOutputAmounts acc.newKeyAmounts (c.keyOutputAmountsCount.getD 0)]
  let batch := match primitives.getPaymentIdFromTxExtra tx.extra with
    | some paymentId => batch ++ [.insertPaymentId cachedTransaction.transactionHash paymentId
        ((db.transactionCountByPaymentId c.database paymentId).getD 0 + 1)]
    | none => batch
  let info : ExtendedTransactionInfo := ⟨blockIndex, transactionBlockIndex,
    cachedTransaction.transactionHash, tx.unlockTime, tx.outputs.map (·.target), acc.globalIndexes,
    acc.amountToKeyIndexes⟩
  let (count, c) := c.getCachedTransactionsCount db
  ({ c with transactionsCount := some (count + 1) },
    batch ++ [.insertCachedTransaction info (count + 1)])

/-- The loop of `pushBlock` over the base transaction and the block's transactions, with their
index in the block. -/
def pushTransactions (primitives : Primitives) (blockIndex : UInt32) :
    List CachedTransaction → ℕ → DatabaseBlockchainCache δ → List WriteOperation →
      DatabaseBlockchainCache δ × List WriteOperation
  | [], _, c, batch => (c, batch)
  | transaction :: transactions, transactionIndex, c, batch =>
    let (c, batch) := c.pushTransaction db primitives transaction blockIndex
      transactionIndex.toUInt16 batch
    pushTransactions primitives blockIndex transactions (transactionIndex + 1) c batch

/-- `pushBlock(cachedBlock, cachedTransactions, validatorState, blockSize, generatedCoins,
blockDifficulty, rawBlock)`: whether it returned or threw, with the message, and the cache after
the call either way. `getCachedBlockInfo` reads the top block with `at`, which throws
`std::out_of_range` when the database does not hold it. -/
def pushBlock (primitives : Primitives) (cachedBlock : CachedBlock)
    (cachedTransactions : List CachedTransaction) (validatorState : TransactionValidatorState)
    (blockSize : ℕ) (generatedCoins blockDifficulty : UInt64) (rawBlock : RawBlock)
    (c : DatabaseBlockchainCache δ) : Except String Unit × DatabaseBlockchainCache δ :=
  let (top, c) := c.getTopBlockIndex db
  match db.cachedBlock c.database top with
  | none => (.error "_Map_base::at", c)
  | some lastBlockInfo =>
      let blockInfo : CachedBlockInfo :=
        { blockHash := cachedBlock.blockHash
          timestamp := cachedBlock.block.timestamp
          cumulativeDifficulty := lastBlockInfo.cumulativeDifficulty + blockDifficulty
          alreadyGeneratedCoins := lastBlockInfo.alreadyGeneratedCoins + generatedCoins
          alreadyGeneratedTransactions :=
            lastBlockInfo.alreadyGeneratedTransactions + (cachedTransactions.length + 1).toUInt64
          blockSize := blockSize.toUInt32 }
      let cachedBaseTransaction := primitives.toCachedTransaction cachedBlock.block.baseTransaction
      -- the base transaction's hash is always the first one in the block's index
      let txHashes := cachedBaseTransaction.transactionHash :: cachedBlock.block.transactionHashes
      let batch : List WriteOperation :=
        [.insertSpentKeyImages (top + 1) validatorState.spentKeyImages,
          .insertCachedBlock blockInfo (top + 1) txHashes, .insertRawBlock (top + 1) rawBlock]
      let (c, batch) :=
        pushTransactions db primitives (top + 1) (cachedBaseTransaction :: cachedTransactions) 0 c
          batch
      match roundToMidnight cachedBlock.block.timestamp with
      | .error message => (.error message, c)
      | .ok midnight =>
        match db.closestTimestampBlockIndex c.database midnight with
        | none => (.error "Couldn't get closest to timestamp block index", c)
        | some closestBlockIndex =>
          let batch := if closestBlockIndex.isNone then
              batch ++ [.insertClosestTimestampBlockIndex midnight (top + 1)]
            else batch
          let timestamp := cachedBlock.block.timestamp
          let batch := batch ++ [.insertTimestamp timestamp
            ((db.blockHashesByTimestamp c.database timestamp).getD [] ++ [cachedBlock.blockHash])]
          match db.write c.database batch with
          | .error message => (.error message, c)
          | .ok database =>
            let unitsCache := c.unitsCache ++ [blockInfo]
            (.ok (), { c with
              database := database
              topBlockIndex := some (top + 1)
              topBlockHash := some cachedBlock.blockHash
              unitsCache :=
                if unitsCache.length > unitsCacheSize then unitsCache.tail else unitsCache })

/-! ## The counts the cache goes by -/

/-- The number of transactions the cache goes by: its own, or the database's. -/
def cachedTransactionsCount (c : DatabaseBlockchainCache δ) : UInt64 :=
  c.transactionsCount.getD ((db.transactionsCount c.database).getD 0)

/-- The number of key outputs of `amount` the cache goes by: its own, or the database's. -/
def keyOutputCount (c : DatabaseBlockchainCache δ) (amount : UInt64) : UInt32 :=
  (c.keyOutputCountsForAmounts.lookup amount).getD
    ((db.keyOutputGlobalIndexesCountForAmount c.database amount).getD 0)

/-- `c'` reads the same database as `c`, and counts `transactions` more transactions and
`outputs amount` more key outputs of each amount. -/
def Counts (c c' : DatabaseBlockchainCache δ) (transactions : UInt64)
    (outputs : UInt64 → UInt32) : Prop :=
  c'.database = c.database ∧
    cachedTransactionsCount db c' = cachedTransactionsCount db c + transactions ∧
    ∀ amount, keyOutputCount db c' amount = keyOutputCount db c amount + outputs amount

variable {db} {c c₁ c₂ : DatabaseBlockchainCache δ} {transactions transactions' : UInt64}
  {outputs outputs' : UInt64 → UInt32}

theorem Counts.refl (c : DatabaseBlockchainCache δ) : Counts db c c 0 fun _ => 0 :=
  ⟨rfl, (UInt64.add_zero _).symm, fun _ => (UInt32.add_zero _).symm⟩

theorem Counts.trans (h₁ : Counts db c c₁ transactions outputs)
    (h₂ : Counts db c₁ c₂ transactions' outputs') :
    Counts db c c₂ (transactions + transactions') fun amount => outputs amount + outputs' amount := by
  obtain ⟨hdatabase₁, htransactions₁, houtputs₁⟩ := h₁
  obtain ⟨hdatabase₂, htransactions₂, houtputs₂⟩ := h₂
  refine ⟨hdatabase₂.trans hdatabase₁, ?_, fun amount => ?_⟩
  · rw [htransactions₂, htransactions₁, UInt64.add_assoc]
  · rw [houtputs₂, houtputs₁, UInt32.add_assoc]

theorem Counts.congr (h : Counts db c c₁ transactions outputs) (htransactions : transactions = transactions')
    (houtputs : ∀ amount, outputs amount = outputs' amount) :
    Counts db c c₁ transactions' outputs' := by
  obtain ⟨hdatabase, htransactions₁, houtputs₁⟩ := h
  exact ⟨hdatabase, htransactions ▸ htransactions₁, fun amount => houtputs amount ▸ houtputs₁ amount⟩

variable (db)

theorem counts_getTopBlockIndex (c : DatabaseBlockchainCache δ) :
    Counts db c (c.getTopBlockIndex db).2 0 fun _ => 0 := by
  unfold getTopBlockIndex
  split
  · exact Counts.refl c
  · exact Counts.refl c

theorem getCachedTransactionsCount_fst (c : DatabaseBlockchainCache δ) :
    (c.getCachedTransactionsCount db).1 = cachedTransactionsCount db c := by
  unfold getCachedTransactionsCount cachedTransactionsCount
  split <;> simp_all

theorem counts_getCachedTransactionsCount (c : DatabaseBlockchainCache δ) :
    Counts db c (c.getCachedTransactionsCount db).2 0 fun _ => 0 := by
  unfold getCachedTransactionsCount
  split
  · exact Counts.refl c
  · rename_i hcount
    refine ⟨rfl, ?_, fun _ => (UInt32.add_zero _).symm⟩
    simp [cachedTransactionsCount, hcount]

/-- The one step of the counts: `updateKeyOutputCount` sets the count of `amount` to the one the
cache went by, plus `diff`. -/
theorem updateKeyOutputCount_eq (c : DatabaseBlockchainCache δ) (amount : UInt64) (diff : UInt32) :
    ∃ amountsCount, c.updateKeyOutputCount db amount diff =
      (keyOutputCount db c amount + diff, { c with
        keyOutputAmountsCount := amountsCount
        keyOutputCountsForAmounts :=
          upsert c.keyOutputCountsForAmounts amount (keyOutputCount db c amount + diff) }) := by
  unfold updateKeyOutputCount keyOutputCount
  cases hlookup : c.keyOutputCountsForAmounts.lookup amount with
  | none =>
    dsimp only
    split_ifs
    · exact ⟨_, rfl⟩
    · exact ⟨_, rfl⟩
  | some count => exact ⟨_, rfl⟩

theorem updateKeyOutputCount_fst (c : DatabaseBlockchainCache δ) (amount : UInt64) (diff : UInt32) :
    (c.updateKeyOutputCount db amount diff).1 = keyOutputCount db c amount + diff := by
  obtain ⟨amountsCount, heq⟩ := updateKeyOutputCount_eq db c amount diff
  rw [heq]

theorem counts_updateKeyOutputCount (c : DatabaseBlockchainCache δ) (amount : UInt64)
    (diff : UInt32) :
    Counts db c (c.updateKeyOutputCount db amount diff).2 0
      fun other => if other = amount then diff else 0 := by
  obtain ⟨amountsCount, heq⟩ := updateKeyOutputCount_eq db c amount diff
  rw [heq]
  refine ⟨rfl, (UInt64.add_zero _).symm, fun other => ?_⟩
  unfold keyOutputCount
  rw [lookup_upsert]
  split_ifs with hother
  · subst hother
    simp
  · simp [hother]

/-- The number of key outputs of `amount` among `outputs`, in `uint32_t`. -/
def outputsOfAmount (outputs : List TransactionOutput) (amount : UInt64) : UInt32 :=
  (outputs.countP (·.amount == amount)).toUInt32

theorem outputsOfAmount_cons (output : TransactionOutput) (outputs : List TransactionOutput)
    (amount : UInt64) :
    outputsOfAmount (output :: outputs) amount =
      (if amount = output.amount then 1 else 0) + outputsOfAmount outputs amount := by
  unfold outputsOfAmount
  rw [List.countP_cons, Nat.toUInt32, UInt32.ofNat_add, UInt32.add_comm]
  by_cases hamount : amount = output.amount
  · simp [hamount]
  · simp [hamount, Ne.symm hamount]

theorem outputsOfAmount_append (outputs outputs' : List TransactionOutput) (amount : UInt64) :
    outputsOfAmount (outputs ++ outputs') amount =
      outputsOfAmount outputs amount + outputsOfAmount outputs' amount := by
  unfold outputsOfAmount
  rw [List.countP_append, Nat.toUInt32, UInt32.ofNat_add]

theorem counts_pushOutput (blockIndex : UInt32) (transactionBlockIndex : UInt16)
    (transactionHash : Crypto.Hash) (unlockTime : UInt64) (acc : OutputsAcc δ)
    (output : TransactionOutput) :
    Counts db acc.cache
      (pushOutput db blockIndex transactionBlockIndex transactionHash unlockTime acc output).cache 0
      fun amount => if amount = output.amount then 1 else 0 := by
  unfold pushOutput
  split
  exact counts_updateKeyOutputCount db acc.cache output.amount 1

theorem counts_foldl_pushOutput (blockIndex : UInt32) (transactionBlockIndex : UInt16)
    (transactionHash : Crypto.Hash) (unlockTime : UInt64) (outputs : List TransactionOutput) :
    ∀ acc : OutputsAcc δ, Counts db acc.cache
      (outputs.foldl (pushOutput db blockIndex transactionBlockIndex transactionHash unlockTime)
        acc).cache 0 (outputsOfAmount outputs) := by
  induction outputs with
  | nil =>
    intro acc
    exact (Counts.refl acc.cache).congr rfl fun _ => rfl
  | cons output outputs ih =>
    intro acc
    rw [List.foldl_cons]
    refine ((counts_pushOutput db _ _ _ _ acc output).trans (ih _)).congr (UInt64.add_zero 0)
      fun amount => ?_
    rw [outputsOfAmount_cons]

theorem counts_insertKeyOutputGlobalIndexes (keyIndexes : List (UInt64 × List PackedOutIndex)) :
    ∀ (c : DatabaseBlockchainCache δ) (batch : List WriteOperation),
      Counts db c (insertKeyOutputGlobalIndexes db keyIndexes c batch).1 0 fun _ => 0 := by
  induction keyIndexes with
  | nil => exact fun c _ => Counts.refl c
  | cons entry keyIndexes ih =>
    intro c batch
    obtain ⟨amount, outputs⟩ := entry
    refine ((counts_updateKeyOutputCount db c amount 0).trans (ih _ _)).congr
      (UInt64.add_zero 0) fun other => ?_
    split_ifs <;> rfl

/-- `pushTransaction` counts one more transaction and its key outputs, whatever the write
does after. -/
theorem counts_pushTransaction (primitives : Primitives) (cachedTransaction : CachedTransaction)
    (blockIndex : UInt32) (transactionBlockIndex : UInt16) (c : DatabaseBlockchainCache δ)
    (batch : List WriteOperation) :
    Counts db c
      (c.pushTransaction db primitives cachedTransaction blockIndex transactionBlockIndex batch).1 1
      (outputsOfAmount cachedTransaction.transaction.outputs) := by
  set acc := cachedTransaction.transaction.outputs.foldl
    (pushOutput db blockIndex transactionBlockIndex cachedTransaction.transactionHash
      cachedTransaction.transaction.unlockTime) ⟨c, batch, 0, [], [], [], ∅⟩
  set c₂ := (insertKeyOutputGlobalIndexes db acc.keyIndexes acc.cache acc.batch).1
  set counted := c₂.getCachedTransactionsCount db
  have h₁ : Counts db c acc.cache 0 (outputsOfAmount cachedTransaction.transaction.outputs) :=
    counts_foldl_pushOutput db _ _ _ _ _ _
  have h₂ := counts_insertKeyOutputGlobalIndexes db acc.keyIndexes acc.cache acc.batch
  have h₃ := counts_getCachedTransactionsCount db c₂
  -- the count is raised from the one just read
  have h₄ : Counts db counted.2 { counted.2 with transactionsCount := some (counted.1 + 1) } 1
      fun _ => 0 := by
    refine ⟨rfl, ?_, fun _ => (UInt32.add_zero _).symm⟩
    have hread : counted.1 = cachedTransactionsCount db counted.2 := by
      rw [getCachedTransactionsCount_fst, h₃.2.1, UInt64.add_zero]
    rw [← hread]
    rfl
  have hpushed : (c.pushTransaction db primitives cachedTransaction blockIndex transactionBlockIndex
      batch).1 = { counted.2 with transactionsCount := some (counted.1 + 1) } := rfl
  rw [hpushed]
  refine (((h₁.trans h₂).trans h₃).trans h₄).congr (by simp) fun amount => ?_
  simp

theorem counts_pushTransactions (primitives : Primitives) (blockIndex : UInt32)
    (transactions : List CachedTransaction) :
    ∀ (transactionIndex : ℕ) (c : DatabaseBlockchainCache δ) (batch : List WriteOperation),
      Counts db c (pushTransactions db primitives blockIndex transactions transactionIndex c batch).1
        transactions.length.toUInt64
        (outputsOfAmount (transactions.flatMap (·.transaction.outputs))) := by
  induction transactions with
  | nil => exact fun _ c _ => Counts.refl c
  | cons transaction transactions ih =>
    intro transactionIndex c batch
    refine ((counts_pushTransaction db primitives transaction blockIndex _ c batch).trans
      (ih _ _ _)).congr ?_ fun amount => ?_
    · rw [List.length_cons, Nat.toUInt64, UInt64.ofNat_add, UInt64.add_comm]
      rfl
    · rw [List.flatMap_cons, outputsOfAmount_append]

theorem database_pushTransactions (primitives : Primitives) (blockIndex : UInt32)
    (transactions : List CachedTransaction) (transactionIndex : ℕ) (c : DatabaseBlockchainCache δ)
    (batch : List WriteOperation) :
    (pushTransactions db primitives blockIndex transactions transactionIndex c batch).1.database =
      c.database :=
  (counts_pushTransactions db primitives blockIndex transactions transactionIndex c batch).1

/-- `pushBlock` whose write fails: the error, and the cache as the loop over the transactions left
it. -/
theorem pushBlock_of_write_error (primitives : Primitives) (cachedBlock : CachedBlock)
    (cachedTransactions : List CachedTransaction) (validatorState : TransactionValidatorState)
    (blockSize : ℕ) (generatedCoins blockDifficulty : UInt64) (rawBlock : RawBlock)
    (c : DatabaseBlockchainCache δ)
    (hblock : (db.cachedBlock c.database (c.getTopBlockIndex db).1).isSome)
    (htimestamp : cachedBlock.block.timestamp.toNat ≤ 2 ^ 63 - 1)
    (hclosest : ∀ midnight, (db.closestTimestampBlockIndex c.database midnight).isSome)
    (hwrite : ∀ batch, ∃ message, db.write c.database batch = .error message) :
    ∃ message batch, c.pushBlock db primitives cachedBlock cachedTransactions validatorState
        blockSize generatedCoins blockDifficulty rawBlock =
      (.error message, (pushTransactions db primitives ((c.getTopBlockIndex db).1 + 1)
        (primitives.toCachedTransaction cachedBlock.block.baseTransaction :: cachedTransactions) 0
        (c.getTopBlockIndex db).2 batch).1) := by
  have hmidnight : roundToMidnight cachedBlock.block.timestamp =
      .ok (cachedBlock.block.timestamp / ONE_DAY_SECONDS * ONE_DAY_SECONDS) := if_neg (by omega)
  have hdatabase : (c.getTopBlockIndex db).2.database = c.database := (counts_getTopBlockIndex db c).1
  have hok : ∀ batch database, db.write c.database batch ≠ .ok database := by
    intro batch database hbatch
    obtain ⟨message, hmessage⟩ := hwrite batch
    rw [hmessage] at hbatch
    cases hbatch
  obtain ⟨closest, hclosest⟩ := Option.isSome_iff_exists.1
    (hclosest (cachedBlock.block.timestamp / ONE_DAY_SECONDS * ONE_DAY_SECONDS))
  unfold pushBlock
  rcases htop : c.getTopBlockIndex db with ⟨top, c₁⟩
  rw [htop] at hdatabase hblock
  dsimp only at hdatabase hblock ⊢
  obtain ⟨lastBlockInfo, hlast⟩ := Option.isSome_iff_exists.1 hblock
  rw [hdatabase, hlast, hmidnight]
  dsimp only
  rw [database_pushTransactions, hdatabase, hclosest]
  dsimp only
  split
  · exact ⟨_, _, rfl⟩
  · rename_i database hbatch
    exact absurd hbatch (hok _ _)

/-- A `pushBlock` on a database that holds the top block, whose write fails, throws, and the
database is as it was; but the cache has
already counted the block's transactions and their key outputs. `getCachedTransactionsCount`
answers with the block's transactions added, and the next key output of an amount is given a
global index (the count `updateKeyOutputCount` returns, less one, as in `pushOutput`) past the
block's outputs of that amount, which were never written. -/
theorem pushBlock_write_failure_keeps_counts (primitives : Primitives) (cachedBlock : CachedBlock)
    (cachedTransactions : List CachedTransaction) (validatorState : TransactionValidatorState)
    (blockSize : ℕ) (generatedCoins blockDifficulty : UInt64) (rawBlock : RawBlock)
    (c : DatabaseBlockchainCache δ)
    (hblock : (db.cachedBlock c.database (c.getTopBlockIndex db).1).isSome)
    (htimestamp : cachedBlock.block.timestamp.toNat ≤ 2 ^ 63 - 1)
    (hclosest : ∀ midnight, (db.closestTimestampBlockIndex c.database midnight).isSome)
    (hwrite : ∀ batch, ∃ message, db.write c.database batch = .error message) :
    let pushed := c.pushBlock db primitives cachedBlock cachedTransactions validatorState blockSize
      generatedCoins blockDifficulty rawBlock
    let outputs := (primitives.toCachedTransaction cachedBlock.block.baseTransaction ::
      cachedTransactions).flatMap (·.transaction.outputs)
    (∃ message, pushed.1 = .error message) ∧ pushed.2.database = c.database ∧
      (pushed.2.getCachedTransactionsCount db).1 =
        (c.getCachedTransactionsCount db).1 + (cachedTransactions.length + 1).toUInt64 ∧
      ∀ amount, (pushed.2.updateKeyOutputCount db amount 1).1 - 1 =
        (c.updateKeyOutputCount db amount 1).1 - 1 + outputsOfAmount outputs amount := by
  intro pushed outputs
  obtain ⟨message, batch, hpushed⟩ := pushBlock_of_write_error db primitives cachedBlock
    cachedTransactions validatorState blockSize generatedCoins blockDifficulty rawBlock c hblock
    htimestamp hclosest hwrite
  -- the cache left behind counts everything the loop over the transactions counted
  obtain ⟨hdatabase, htransactions, houtputs⟩ := (counts_getTopBlockIndex db c).trans
    (counts_pushTransactions db primitives ((c.getTopBlockIndex db).1 + 1)
      (primitives.toCachedTransaction cachedBlock.block.baseTransaction :: cachedTransactions) 0
      (c.getTopBlockIndex db).2 batch)
  simp only [pushed, hpushed]
  refine ⟨⟨message, rfl⟩, hdatabase, ?_, fun amount => ?_⟩
  · rw [getCachedTransactionsCount_fst, getCachedTransactionsCount_fst, htransactions,
      List.length_cons, UInt64.zero_add]
  · rw [updateKeyOutputCount_fst, updateKeyOutputCount_fst, houtputs, UInt32.add_sub_cancel,
      UInt32.add_sub_cancel]
    exact congrArg _ (UInt32.zero_add _)

/-- A database holding block 0, with its one transaction and its key output of
320000000000000, that refuses every write, as a full disk does. -/
def refusingDataBase : IDataBase Unit where
  lastBlockIndex _ := some 0
  transactionsCount _ := some 1
  cachedBlock _ index := if index = 0 then some ⟨⟨1⟩, 0, 1, 320000000000000, 1, 300⟩ else none
  keyOutputGlobalIndexesCountForAmount _ amount :=
    if amount = 320000000000000 then some 1 else none
  keyOutputAmountsCount _ := 1
  transactionCountByPaymentId _ _ := none
  blockHashesByTimestamp _ timestamp := if timestamp = 0 then some [⟨1⟩] else none
  closestTimestampBlockIndex _ midnight := some (if midnight = 0 then some 0 else none)
  write _ _ := .error "IO error"

/-- Block 1, whose base transaction has one key output of `10`. -/
def oneOutputBlock : CachedBlock :=
  let baseTransaction : Transaction :=
    { version := 1, unlockTime := 0, inputs := [.base ⟨1⟩], outputs := [⟨10, .key ⟨⟨5⟩⟩⟩],
      extra := [], signatures := [] }
  ⟨{ majorVersion := 1, minorVersion := 0, nonce := 0, timestamp := 0, previousBlockHash := ⟨1⟩,
      parentBlock := ⟨0⟩, baseTransaction := baseTransaction, transactionHashes := [] }, ⟨2⟩⟩

theorem pushBlock_write_failure_keeps_counts_refused :
    let db := refusingDataBase
    let primitives := Primitives.trusting (fun _ => ⟨0⟩) fun _ => none
    let c : DatabaseBlockchainCache Unit := ⟨(), none, none, none, none, [], []⟩
    (db.cachedBlock c.database (c.getTopBlockIndex db).1).isSome ∧
      oneOutputBlock.block.timestamp.toNat ≤ 2 ^ 63 - 1 ∧
      (∀ midnight, (db.closestTimestampBlockIndex c.database midnight).isSome) ∧
      (∀ batch, ∃ message, db.write c.database batch = .error message) ∧
      let pushed := c.pushBlock db primitives oneOutputBlock [] ⟨∅⟩ 0 0 0 ⟨[], []⟩
      let outputs := (primitives.toCachedTransaction oneOutputBlock.block.baseTransaction ::
        []).flatMap (·.transaction.outputs)
      (∃ message, pushed.1 = .error message) ∧ pushed.2.database = c.database ∧
        (pushed.2.getCachedTransactionsCount db).1 =
          (c.getCachedTransactionsCount db).1 + (([] : List CachedTransaction).length + 1).toUInt64 ∧
        ∀ amount, (pushed.2.updateKeyOutputCount db amount 1).1 - 1 =
          (c.updateKeyOutputCount db amount 1).1 - 1 + outputsOfAmount outputs amount :=
  have hblock : (refusingDataBase.cachedBlock ()
      ((⟨(), none, none, none, none, [], []⟩ : DatabaseBlockchainCache Unit).getTopBlockIndex
        refusingDataBase).1).isSome := rfl
  have htimestamp : oneOutputBlock.block.timestamp.toNat ≤ 2 ^ 63 - 1 := by decide
  have hclosest : ∀ midnight,
      (refusingDataBase.closestTimestampBlockIndex () midnight).isSome := fun _ => rfl
  have hwrite : ∀ batch, ∃ message, refusingDataBase.write () batch = .error message :=
    fun _ => ⟨_, rfl⟩
  ⟨hblock, htimestamp, hclosest, hwrite,
    pushBlock_write_failure_keeps_counts refusingDataBase _ oneOutputBlock [] ⟨∅⟩ 0 0 0 ⟨[], []⟩
      ⟨(), none, none, none, none, [], []⟩ hblock htimestamp hclosest hwrite⟩

end DatabaseBlockchainCache

end CryptoNote
