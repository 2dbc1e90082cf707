import Traaitt.CryptoNoteCore.SegmentPath

/-! What pushing a block does to a segment. Each key output joins the entry of its amount and
gets the global index that entry ends at, `nextGlobalIndex`; the transaction info is added
unless its place in the block or its hash is taken. So the segments `doPushBlock` builds never
hold an empty entry or two transactions of one hash, and two segments that agree on where the
next output of every amount goes assign a pushed block the same global indexes. -/

namespace CryptoNote

namespace BlockchainCache

/-- The global index `insertKeyOutputToGlobalIndex` gives the next key output of `amount`
pushed at `blockIndex` under `parents`. -/
def nextGlobalIndex (parents : List BlockchainCache) (cache : BlockchainCache) (amount : UInt64)
    (blockIndex : ℕ) : ℕ :=
  match cache.keyOutputsGlobalIndexes amount with
  | some entry => entry.startIndex + entry.outputs.length
  | none => getKeyOutputsCountForAmount amount blockIndex parents

/-- No amount has an entry without outputs. -/
def EntriesNonempty (cache : BlockchainCache) : Prop :=
  ∀ amount entry, cache.keyOutputsGlobalIndexes amount = some entry → entry.outputs ≠ []

/-- No two transactions of the segment have one hash. -/
def HashesNodup (cache : BlockchainCache) : Prop :=
  (cache.transactions.map (·.transactionHash)).Nodup

/-- Every entry lists its outputs by block index, none of them past block `bound`: what the
binary searches of the queries rely on. -/
def EntriesSortedAtMost (bound : ℕ) (cache : BlockchainCache) : Prop :=
  ∀ amount entry, cache.keyOutputsGlobalIndexes amount = some entry →
    entry.outputs.Pairwise (fun o o' => o.blockIndex ≤ o'.blockIndex) ∧
      ∀ o ∈ entry.outputs, o.blockIndex ≤ bound

theorem EntriesSortedAtMost.mono {bound bound' : ℕ} {cache : BlockchainCache}
    (h : cache.EntriesSortedAtMost bound) (hle : bound ≤ bound') :
    cache.EntriesSortedAtMost bound' := fun amount entry hentry =>
  ⟨(h amount entry hentry).1, fun o ho => le_trans ((h amount entry hentry).2 o ho) hle⟩

section Insert

variable {parents : List BlockchainCache} {cache : BlockchainCache} {amount : UInt64}
  {output : PackedOutIndex} {blockIndex : ℕ}

@[simp] theorem insertKeyOutputToGlobalIndex_startIndex :
    (insertKeyOutputToGlobalIndex parents cache amount output blockIndex).1.startIndex =
      cache.startIndex := rfl

@[simp] theorem insertKeyOutputToGlobalIndex_parent :
    (insertKeyOutputToGlobalIndex parents cache amount output blockIndex).1.parent =
      cache.parent := rfl

@[simp] theorem insertKeyOutputToGlobalIndex_children :
    (insertKeyOutputToGlobalIndex parents cache amount output blockIndex).1.children =
      cache.children := rfl

@[simp] theorem insertKeyOutputToGlobalIndex_transactions :
    (insertKeyOutputToGlobalIndex parents cache amount output blockIndex).1.transactions =
      cache.transactions := rfl

theorem insertKeyOutputToGlobalIndex_snd :
    (insertKeyOutputToGlobalIndex parents cache amount output blockIndex).2 =
      nextGlobalIndex parents cache amount blockIndex := by
  unfold insertKeyOutputToGlobalIndex nextGlobalIndex
  cases cache.keyOutputsGlobalIndexes amount <;> simp

theorem nextGlobalIndex_insertKeyOutputToGlobalIndex (a : UInt64) :
    nextGlobalIndex parents (insertKeyOutputToGlobalIndex parents cache amount output blockIndex).1
        a blockIndex =
      nextGlobalIndex parents cache a blockIndex + if a = amount then 1 else 0 := by
  unfold nextGlobalIndex insertKeyOutputToGlobalIndex
  by_cases ha : a = amount
  · subst ha
    cases cache.keyOutputsGlobalIndexes a <;> simp [Nat.add_assoc]
  · simp [ha]

theorem EntriesNonempty.insertKeyOutputToGlobalIndex (h : cache.EntriesNonempty) :
    (cache.insertKeyOutputToGlobalIndex parents amount output blockIndex).1.EntriesNonempty := by
  intro a entry ha
  unfold BlockchainCache.insertKeyOutputToGlobalIndex at ha
  by_cases hamount : a = amount
  · subst hamount
    simp only [Function.update_self, Option.some.injEq] at ha
    subst ha
    cases cache.keyOutputsGlobalIndexes a <;> simp
  · simp only [Function.update_of_ne hamount] at ha
    exact h a entry ha

theorem EntriesSortedAtMost.insertKeyOutputToGlobalIndex
    (h : cache.EntriesSortedAtMost output.blockIndex) :
    (cache.insertKeyOutputToGlobalIndex parents amount output blockIndex).1.EntriesSortedAtMost
      output.blockIndex := by
  intro a entry ha
  unfold BlockchainCache.insertKeyOutputToGlobalIndex at ha
  by_cases hamount : a = amount
  · subst hamount
    simp only [Function.update_self, Option.some.injEq] at ha
    subst ha
    cases hentry : cache.keyOutputsGlobalIndexes a with
    | none => simp
    | some entry =>
      obtain ⟨hsorted, hbound⟩ := h a entry hentry
      simp only [List.pairwise_append, List.pairwise_singleton, List.mem_singleton, forall_eq,
        List.mem_append]
      exact ⟨⟨hsorted, trivial, hbound⟩, fun o ho => ho.elim (hbound o) (fun h => h ▸ le_rfl)⟩
  · simp only [Function.update_of_ne hamount] at ha
    exact h a entry ha

end Insert

theorem filter_insertTransactionInfo {transactions : List CachedTransactionInfo}
    {info : CachedTransactionInfo} {blockIndex : ℕ} (hinfo : info.blockIndex = blockIndex)
    (hother : ∀ t ∈ transactions, t.blockIndex ≠ blockIndex →
      t.transactionHash ≠ info.transactionHash) :
    (insertTransactionInfo transactions info).filter (·.blockIndex = blockIndex) =
      insertTransactionInfo (transactions.filter (·.blockIndex = blockIndex)) info := by
  subst hinfo
  -- a transaction that blocks the insertion is in the block of the new one
  have hany : transactions.any (fun t => (t.blockIndex == info.blockIndex &&
        t.transactionIndex == info.transactionIndex) || t.transactionHash == info.transactionHash) =
      (transactions.filter (·.blockIndex = info.blockIndex)).any (fun t =>
        (t.blockIndex == info.blockIndex && t.transactionIndex == info.transactionIndex) ||
          t.transactionHash == info.transactionHash) := by
    rw [Bool.eq_iff_iff, List.any_eq_true, List.any_eq_true]
    constructor
    · rintro ⟨t, ht, hblock⟩
      refine ⟨t, List.mem_filter.2 ⟨ht, decide_eq_true ?_⟩, hblock⟩
      by_contra hne
      simp only [Bool.or_eq_true, Bool.and_eq_true, beq_iff_eq] at hblock
      rcases hblock with ⟨hb, -⟩ | hh
      · exact hne hb
      · exact hother t ht hne hh
    · rintro ⟨t, ht, hblock⟩
      exact ⟨t, (List.mem_filter.1 ht).1, hblock⟩
  unfold insertTransactionInfo
  rw [hany]
  split_ifs <;> simp [List.filter_append]

theorem HashesNodup.insertTransactionInfo {transactions : List CachedTransactionInfo}
    {info : CachedTransactionInfo} (h : (transactions.map (·.transactionHash)).Nodup) :
    ((BlockchainCache.insertTransactionInfo transactions info).map (·.transactionHash)).Nodup := by
  unfold BlockchainCache.insertTransactionInfo
  split_ifs with hany
  · exact h
  · have hfresh : ∀ t ∈ transactions, t.transactionHash ≠ info.transactionHash :=
      fun t ht hh => hany (List.any_eq_true.2 ⟨t, ht, by simp [hh]⟩)
    rw [List.map_append, List.nodup_append]
    simpa using ⟨h, hfresh⟩

section PushOutputs

variable {parents : List BlockchainCache} {blockIndex transactionInBlockIndex : ℕ}

@[simp] theorem pushOutputs_startIndex :
    ∀ (cache : BlockchainCache) (outputCount : ℕ) (outputs : List TransactionOutput),
      (pushOutputs parents blockIndex transactionInBlockIndex cache outputCount outputs).1.startIndex =
        cache.startIndex
  | _, _, [] => rfl
  | cache, outputCount, output :: outputs => by
    match output with
    | ⟨_, .key _⟩ => exact pushOutputs_startIndex _ (outputCount + 1) outputs

@[simp] theorem pushOutputs_parent :
    ∀ (cache : BlockchainCache) (outputCount : ℕ) (outputs : List TransactionOutput),
      (pushOutputs parents blockIndex transactionInBlockIndex cache outputCount outputs).1.parent =
        cache.parent
  | _, _, [] => rfl
  | cache, outputCount, output :: outputs => by
    match output with
    | ⟨_, .key _⟩ => exact pushOutputs_parent _ (outputCount + 1) outputs

@[simp] theorem pushOutputs_children :
    ∀ (cache : BlockchainCache) (outputCount : ℕ) (outputs : List TransactionOutput),
      (pushOutputs parents blockIndex transactionInBlockIndex cache outputCount outputs).1.children =
        cache.children
  | _, _, [] => rfl
  | cache, outputCount, output :: outputs => by
    match output with
    | ⟨_, .key _⟩ => exact pushOutputs_children _ (outputCount + 1) outputs

@[simp] theorem pushOutputs_transactions :
    ∀ (cache : BlockchainCache) (outputCount : ℕ) (outputs : List TransactionOutput),
      (pushOutputs parents blockIndex transactionInBlockIndex cache outputCount outputs).1.transactions =
        cache.transactions
  | _, _, [] => rfl
  | cache, outputCount, output :: outputs => by
    match output with
    | ⟨_, .key _⟩ => exact pushOutputs_transactions _ (outputCount + 1) outputs

@[simp] theorem pushOutputs_blockInfos :
    ∀ (cache : BlockchainCache) (outputCount : ℕ) (outputs : List TransactionOutput),
      (pushOutputs parents blockIndex transactionInBlockIndex cache outputCount outputs).1.blockInfos =
        cache.blockInfos
  | _, _, [] => rfl
  | cache, outputCount, output :: outputs => by
    match output with
    | ⟨_, .key _⟩ => exact pushOutputs_blockInfos _ (outputCount + 1) outputs

theorem EntriesSortedAtMost.pushOutputs :
    ∀ {cache : BlockchainCache} (outputCount : ℕ) (outputs : List TransactionOutput),
      cache.EntriesSortedAtMost blockIndex →
      (BlockchainCache.pushOutputs parents blockIndex transactionInBlockIndex cache outputCount
        outputs).1.EntriesSortedAtMost blockIndex
  | _, _, [], h => h
  | _, outputCount, output :: outputs, h => by
    match output with
    | ⟨_, .key _⟩ => exact pushOutputs (outputCount + 1) outputs h.insertKeyOutputToGlobalIndex

theorem EntriesNonempty.pushOutputs :
    ∀ {cache : BlockchainCache} (outputCount : ℕ) (outputs : List TransactionOutput),
      cache.EntriesNonempty →
      (BlockchainCache.pushOutputs parents blockIndex transactionInBlockIndex cache outputCount
        outputs).1.EntriesNonempty
  | _, _, [], h => h
  | _, outputCount, output :: outputs, h => by
    match output with
    | ⟨_, .key _⟩ => exact pushOutputs (outputCount + 1) outputs h.insertKeyOutputToGlobalIndex

end PushOutputs

theorem mem_insertTransactionInfo {transactions : List CachedTransactionInfo}
    {info t : CachedTransactionInfo} (ht : t ∈ insertTransactionInfo transactions info) :
    t ∈ transactions ∨ t = info := by
  unfold insertTransactionInfo at ht
  split_ifs at ht
  · exact Or.inl ht
  · simpa using ht

theorem nextGlobalIndex_congr {parents : List BlockchainCache} {cache cache' : BlockchainCache}
    (h : cache'.keyOutputsGlobalIndexes = cache.keyOutputsGlobalIndexes) (amount : UInt64)
    (blockIndex : ℕ) :
    nextGlobalIndex parents cache' amount blockIndex = nextGlobalIndex parents cache amount blockIndex := by
  unfold nextGlobalIndex
  rw [h]

section PushTransaction

variable {primitives : Primitives} {parents : List BlockchainCache} {cache : BlockchainCache}
  {cachedTransaction : CachedTransaction} {blockIndex transactionInBlockIndex : ℕ}

/-- The info `pushTransaction` inserts: the output indexes are those the output loop returns. -/
theorem pushTransaction_transactions :
    (pushTransaction primitives parents cache cachedTransaction blockIndex
        transactionInBlockIndex).transactions =
      insertTransactionInfo cache.transactions
        ⟨blockIndex, transactionInBlockIndex, cachedTransaction.transactionHash,
          cachedTransaction.transaction.unlockTime,
          cachedTransaction.transaction.outputs.map (·.target),
          (pushOutputs parents blockIndex transactionInBlockIndex cache 0
            cachedTransaction.transaction.outputs).2⟩ := by
  unfold pushTransaction
  cases h : primitives.getPaymentIdFromTxExtra cachedTransaction.transaction.extra <;> simp [h]

theorem pushTransaction_keyOutputsGlobalIndexes :
    (pushTransaction primitives parents cache cachedTransaction blockIndex
        transactionInBlockIndex).keyOutputsGlobalIndexes =
      (pushOutputs parents blockIndex transactionInBlockIndex cache 0
        cachedTransaction.transaction.outputs).1.keyOutputsGlobalIndexes := by
  unfold pushTransaction
  cases h : primitives.getPaymentIdFromTxExtra cachedTransaction.transaction.extra <;> simp [h]

@[simp] theorem pushTransaction_startIndex :
    (pushTransaction primitives parents cache cachedTransaction blockIndex
        transactionInBlockIndex).startIndex = cache.startIndex := by
  unfold pushTransaction
  cases h : primitives.getPaymentIdFromTxExtra cachedTransaction.transaction.extra <;> simp [h]

@[simp] theorem pushTransaction_parent :
    (pushTransaction primitives parents cache cachedTransaction blockIndex
        transactionInBlockIndex).parent = cache.parent := by
  unfold pushTransaction
  cases h : primitives.getPaymentIdFromTxExtra cachedTransaction.transaction.extra <;> simp [h]

@[simp] theorem pushTransaction_children :
    (pushTransaction primitives parents cache cachedTransaction blockIndex
        transactionInBlockIndex).children = cache.children := by
  unfold pushTransaction
  cases h : primitives.getPaymentIdFromTxExtra cachedTransaction.transaction.extra <;> simp [h]

@[simp] theorem pushTransaction_blockInfos :
    (pushTransaction primitives parents cache cachedTransaction blockIndex
        transactionInBlockIndex).blockInfos = cache.blockInfos := by
  unfold pushTransaction
  cases h : primitives.getPaymentIdFromTxExtra cachedTransaction.transaction.extra <;> simp [h]

theorem EntriesSortedAtMost.pushTransaction (h : cache.EntriesSortedAtMost blockIndex) :
    (cache.pushTransaction primitives parents cachedTransaction blockIndex
      transactionInBlockIndex).EntriesSortedAtMost blockIndex := by
  intro amount entry hentry
  rw [pushTransaction_keyOutputsGlobalIndexes] at hentry
  exact h.pushOutputs 0 _ amount entry hentry

theorem EntriesNonempty.pushTransaction (h : cache.EntriesNonempty) :
    (cache.pushTransaction primitives parents cachedTransaction blockIndex
      transactionInBlockIndex).EntriesNonempty := by
  intro amount entry hentry
  rw [pushTransaction_keyOutputsGlobalIndexes] at hentry
  exact h.pushOutputs 0 _ amount entry hentry

theorem HashesNodup.pushTransaction (h : cache.HashesNodup) :
    (cache.pushTransaction primitives parents cachedTransaction blockIndex
      transactionInBlockIndex).HashesNodup := by
  unfold HashesNodup
  rw [pushTransaction_transactions]
  exact HashesNodup.insertTransactionInfo h

end PushTransaction

theorem EntriesNonempty.pushTransactions {primitives : Primitives} {parents : List BlockchainCache}
    {blockIndex : ℕ} :
    ∀ {cache : BlockchainCache} (transactionBlockIndex : ℕ)
      (cachedTransactions : List CachedTransaction), cache.EntriesNonempty →
      (BlockchainCache.pushTransactions primitives parents blockIndex cache transactionBlockIndex
        cachedTransactions).EntriesNonempty
  | _, _, [], h => h
  | _, transactionBlockIndex, _ :: cachedTransactions, h =>
    pushTransactions (transactionBlockIndex + 1) cachedTransactions h.pushTransaction

theorem HashesNodup.pushTransactions {primitives : Primitives} {parents : List BlockchainCache}
    {blockIndex : ℕ} :
    ∀ {cache : BlockchainCache} (transactionBlockIndex : ℕ)
      (cachedTransactions : List CachedTransaction), cache.HashesNodup →
      (BlockchainCache.pushTransactions primitives parents blockIndex cache transactionBlockIndex
        cachedTransactions).HashesNodup
  | _, _, [], h => h
  | _, transactionBlockIndex, _ :: cachedTransactions, h =>
    pushTransactions (transactionBlockIndex + 1) cachedTransactions h.pushTransaction

theorem EntriesSortedAtMost.pushTransactions {primitives : Primitives}
    {parents : List BlockchainCache} {blockIndex : ℕ} :
    ∀ {cache : BlockchainCache} (transactionBlockIndex : ℕ)
      (cachedTransactions : List CachedTransaction), cache.EntriesSortedAtMost blockIndex →
      (BlockchainCache.pushTransactions primitives parents blockIndex cache transactionBlockIndex
        cachedTransactions).EntriesSortedAtMost blockIndex
  | _, _, [], h => h
  | _, transactionBlockIndex, _ :: cachedTransactions, h =>
    pushTransactions (transactionBlockIndex + 1) cachedTransactions h.pushTransaction

@[simp] theorem pushTransactions_blockInfos {primitives : Primitives}
    {parents : List BlockchainCache} {blockIndex : ℕ} :
    ∀ (cache : BlockchainCache) (transactionBlockIndex : ℕ)
      (cachedTransactions : List CachedTransaction),
      (pushTransactions primitives parents blockIndex cache transactionBlockIndex
        cachedTransactions).blockInfos = cache.blockInfos
  | _, _, [] => rfl
  | cache, transactionBlockIndex, _ :: cachedTransactions => by
    rw [pushTransactions, pushTransactions_blockInfos _ (transactionBlockIndex + 1) cachedTransactions,
      pushTransaction_blockInfos]

@[simp] theorem pushTransactions_startIndex {primitives : Primitives}
    {parents : List BlockchainCache} {blockIndex : ℕ} :
    ∀ (cache : BlockchainCache) (transactionBlockIndex : ℕ)
      (cachedTransactions : List CachedTransaction),
      (pushTransactions primitives parents blockIndex cache transactionBlockIndex
        cachedTransactions).startIndex = cache.startIndex
  | _, _, [] => rfl
  | cache, transactionBlockIndex, _ :: cachedTransactions => by
    rw [pushTransactions, pushTransactions_startIndex _ (transactionBlockIndex + 1) cachedTransactions,
      pushTransaction_startIndex]

@[simp] theorem pushTransactions_parent {primitives : Primitives}
    {parents : List BlockchainCache} {blockIndex : ℕ} :
    ∀ (cache : BlockchainCache) (transactionBlockIndex : ℕ)
      (cachedTransactions : List CachedTransaction),
      (pushTransactions primitives parents blockIndex cache transactionBlockIndex
        cachedTransactions).parent = cache.parent
  | _, _, [] => rfl
  | cache, transactionBlockIndex, _ :: cachedTransactions => by
    rw [pushTransactions, pushTransactions_parent _ (transactionBlockIndex + 1) cachedTransactions,
      pushTransaction_parent]

@[simp] theorem pushTransactions_children {primitives : Primitives}
    {parents : List BlockchainCache} {blockIndex : ℕ} :
    ∀ (cache : BlockchainCache) (transactionBlockIndex : ℕ)
      (cachedTransactions : List CachedTransaction),
      (pushTransactions primitives parents blockIndex cache transactionBlockIndex
        cachedTransactions).children = cache.children
  | _, _, [] => rfl
  | cache, transactionBlockIndex, _ :: cachedTransactions => by
    rw [pushTransactions, pushTransactions_children _ (transactionBlockIndex + 1)
      cachedTransactions, pushTransaction_children]

section DoPushBlock

variable {primitives : Primitives} {parents : List BlockchainCache} {cache : BlockchainCache}
  {cachedBlock : CachedBlock} {cachedTransactions : List CachedTransaction}
  {validatorState : TransactionValidatorState} {blockSize : ℕ}
  {generatedCoins blockDifficulty : UInt64} {rawBlock : RawBlock}

@[simp] theorem doPushBlock_startIndex :
    (cache.doPushBlock primitives parents cachedBlock cachedTransactions validatorState blockSize
      generatedCoins blockDifficulty rawBlock).startIndex = cache.startIndex := by
  simp [doPushBlock]

@[simp] theorem doPushBlock_parent :
    (cache.doPushBlock primitives parents cachedBlock cachedTransactions validatorState blockSize
      generatedCoins blockDifficulty rawBlock).parent = cache.parent := by
  simp [doPushBlock]

@[simp] theorem doPushBlock_children :
    (cache.doPushBlock primitives parents cachedBlock cachedTransactions validatorState blockSize
      generatedCoins blockDifficulty rawBlock).children = cache.children := by
  simp [doPushBlock]

theorem doPushBlock_blockInfos_length (hnew : cache.hasBlock cachedBlock.blockHash = false) :
    (cache.doPushBlock primitives parents cachedBlock cachedTransactions validatorState blockSize
      generatedCoins blockDifficulty rawBlock).blockInfos.length = cache.blockInfos.length + 1 := by
  simp only [doPushBlock, pushTransactions_blockInfos, pushTransaction_blockInfos, pushBlockInfo]
  rw [if_neg (by simpa [hasBlock] using hnew), List.length_append, List.length_singleton]

theorem doPushBlock_blockHashes (hnew : cache.hasBlock cachedBlock.blockHash = false) :
    (cache.doPushBlock primitives parents cachedBlock cachedTransactions validatorState blockSize
      generatedCoins blockDifficulty rawBlock).blockInfos.map (·.blockHash) =
      cache.blockInfos.map (·.blockHash) ++ [cachedBlock.blockHash] := by
  simp only [doPushBlock, pushTransactions_blockInfos, pushTransaction_blockInfos, pushBlockInfo]
  rw [if_neg (by simpa [hasBlock] using hnew), List.map_append, List.map_singleton]

theorem EntriesSortedAtMost.doPushBlock (h : cache.EntriesSortedAtMost cache.getTopBlockIndex)
    (hnew : cache.hasBlock cachedBlock.blockHash = false)
    (hindex : cachedBlock.getBlockIndex.toNat = cache.startIndex + cache.blockInfos.length) :
    let pushed := cache.doPushBlock primitives parents cachedBlock cachedTransactions validatorState
      blockSize generatedCoins blockDifficulty rawBlock
    pushed.EntriesSortedAtMost pushed.getTopBlockIndex := by
  intro pushed
  -- the block's outputs carry its index, which is the new top
  have htop : pushed.getTopBlockIndex = cachedBlock.getBlockIndex.toNat := by
    simp only [pushed, getTopBlockIndex, doPushBlock_startIndex, doPushBlock_blockInfos_length hnew]
    omega
  have hbound : cache.EntriesSortedAtMost cachedBlock.getBlockIndex.toNat :=
    h.mono (by unfold getTopBlockIndex; omega)
  rw [htop]
  unfold pushed BlockchainCache.doPushBlock
  exact EntriesSortedAtMost.pushTransactions 1 cachedTransactions
    (EntriesSortedAtMost.pushTransaction hbound)

theorem EntriesNonempty.doPushBlock (h : cache.EntriesNonempty) :
    (cache.doPushBlock primitives parents cachedBlock cachedTransactions validatorState blockSize
      generatedCoins blockDifficulty rawBlock).EntriesNonempty := by
  -- recording the block and its key images leaves the entries alone
  unfold BlockchainCache.doPushBlock
  exact EntriesNonempty.pushTransactions 1 cachedTransactions (EntriesNonempty.pushTransaction h)

theorem HashesNodup.doPushBlock (h : cache.HashesNodup) :
    (cache.doPushBlock primitives parents cachedBlock cachedTransactions validatorState blockSize
      generatedCoins blockDifficulty rawBlock).HashesNodup := by
  unfold BlockchainCache.doPushBlock
  exact HashesNodup.pushTransactions 1 cachedTransactions (HashesNodup.pushTransaction h)

end DoPushBlock

/-- Two segments, each under its own parents, that agree on the next global index of every
amount at `blockIndex` and on the transactions of that block, the others' hashes lying
outside `fresh`, the hashes of the block being pushed. -/
structure PushAgree (fresh : List Crypto.Hash) (blockIndex : ℕ) (parents₁ : List BlockchainCache)
    (cache₁ : BlockchainCache) (parents₂ : List BlockchainCache) (cache₂ : BlockchainCache) :
    Prop where
  nextGlobalIndex_eq : ∀ amount,
    nextGlobalIndex parents₁ cache₁ amount blockIndex = nextGlobalIndex parents₂ cache₂ amount blockIndex
  transactions_eq : cache₁.transactions.filter (·.blockIndex = blockIndex) =
    cache₂.transactions.filter (·.blockIndex = blockIndex)
  fresh₁ : ∀ t ∈ cache₁.transactions, t.blockIndex ≠ blockIndex → t.transactionHash ∉ fresh
  fresh₂ : ∀ t ∈ cache₂.transactions, t.blockIndex ≠ blockIndex → t.transactionHash ∉ fresh

namespace PushAgree

variable {fresh : List Crypto.Hash} {blockIndex transactionInBlockIndex : ℕ}
  {parents₁ parents₂ : List BlockchainCache}

theorem pushOutputs :
    ∀ {cache₁ cache₂ : BlockchainCache} (outputCount : ℕ) (outputs : List TransactionOutput),
      (∀ amount, nextGlobalIndex parents₁ cache₁ amount blockIndex =
        nextGlobalIndex parents₂ cache₂ amount blockIndex) →
      (BlockchainCache.pushOutputs parents₁ blockIndex transactionInBlockIndex cache₁ outputCount
          outputs).2 =
        (BlockchainCache.pushOutputs parents₂ blockIndex transactionInBlockIndex cache₂ outputCount
          outputs).2 ∧
      ∀ amount, nextGlobalIndex parents₁ (BlockchainCache.pushOutputs parents₁ blockIndex
          transactionInBlockIndex cache₁ outputCount outputs).1 amount blockIndex =
        nextGlobalIndex parents₂ (BlockchainCache.pushOutputs parents₂ blockIndex
          transactionInBlockIndex cache₂ outputCount outputs).1 amount blockIndex
  | _, _, _, [], h => ⟨rfl, h⟩
  | cache₁, cache₂, outputCount, output :: outputs, h => by
    match output with
    | ⟨amount, .key _⟩ =>
      have hnext : ∀ a, nextGlobalIndex parents₁ (insertKeyOutputToGlobalIndex parents₁ cache₁ amount
            ⟨blockIndex, transactionInBlockIndex, outputCount⟩ blockIndex).1 a blockIndex =
          nextGlobalIndex parents₂ (insertKeyOutputToGlobalIndex parents₂ cache₂ amount
            ⟨blockIndex, transactionInBlockIndex, outputCount⟩ blockIndex).1 a blockIndex := by
        intro a
        rw [nextGlobalIndex_insertKeyOutputToGlobalIndex, nextGlobalIndex_insertKeyOutputToGlobalIndex,
          h a]
      obtain ⟨hrest, hafter⟩ := pushOutputs (outputCount + 1) outputs hnext
      simp only [BlockchainCache.pushOutputs]
      exact ⟨by rw [insertKeyOutputToGlobalIndex_snd, insertKeyOutputToGlobalIndex_snd, h amount,
        hrest], hafter⟩

theorem pushTransaction {primitives : Primitives} {cache₁ cache₂ : BlockchainCache}
    {cachedTransaction : CachedTransaction} (hfresh : cachedTransaction.transactionHash ∈ fresh)
    (h : PushAgree fresh blockIndex parents₁ cache₁ parents₂ cache₂) :
    PushAgree fresh blockIndex
      parents₁ (cache₁.pushTransaction primitives parents₁ cachedTransaction blockIndex
        transactionInBlockIndex)
      parents₂ (cache₂.pushTransaction primitives parents₂ cachedTransaction blockIndex
        transactionInBlockIndex) := by
  obtain ⟨hindexes, hnext⟩ := @pushOutputs blockIndex transactionInBlockIndex parents₁ parents₂
    cache₁ cache₂ 0 cachedTransaction.transaction.outputs h.nextGlobalIndex_eq
  have hother : ∀ {cache : BlockchainCache},
      (∀ t ∈ cache.transactions, t.blockIndex ≠ blockIndex → t.transactionHash ∉ fresh) →
      ∀ t ∈ cache.transactions, t.blockIndex ≠ blockIndex →
        t.transactionHash ≠ cachedTransaction.transactionHash :=
    fun hc t ht hb hh => hc t ht hb (hh ▸ hfresh)
  have hkeep : ∀ {cache : BlockchainCache} {info : CachedTransactionInfo},
      info.blockIndex = blockIndex →
      (∀ t ∈ cache.transactions, t.blockIndex ≠ blockIndex → t.transactionHash ∉ fresh) →
      ∀ t ∈ insertTransactionInfo cache.transactions info, t.blockIndex ≠ blockIndex →
        t.transactionHash ∉ fresh := by
    intro cache info hinfo hc t ht hb
    rcases mem_insertTransactionInfo ht with ht | rfl
    · exact hc t ht hb
    · exact absurd hinfo hb
  refine ⟨fun amount => ?_, ?_, ?_, ?_⟩
  · rw [nextGlobalIndex_congr pushTransaction_keyOutputsGlobalIndexes,
      nextGlobalIndex_congr pushTransaction_keyOutputsGlobalIndexes]
    exact hnext amount
  · rw [pushTransaction_transactions, pushTransaction_transactions,
      @filter_insertTransactionInfo _ _ blockIndex rfl (hother h.fresh₁),
      @filter_insertTransactionInfo _ _ blockIndex rfl (hother h.fresh₂), h.transactions_eq, hindexes]
  · rw [pushTransaction_transactions]
    exact hkeep rfl h.fresh₁
  · rw [pushTransaction_transactions]
    exact hkeep rfl h.fresh₂

theorem pushTransactions {primitives : Primitives} :
    ∀ {cache₁ cache₂ : BlockchainCache} (transactionBlockIndex : ℕ)
      (cachedTransactions : List CachedTransaction),
      (∀ t ∈ cachedTransactions, t.transactionHash ∈ fresh) →
      PushAgree fresh blockIndex parents₁ cache₁ parents₂ cache₂ →
      PushAgree fresh blockIndex
        parents₁ (BlockchainCache.pushTransactions primitives parents₁ blockIndex cache₁
          transactionBlockIndex cachedTransactions)
        parents₂ (BlockchainCache.pushTransactions primitives parents₂ blockIndex cache₂
          transactionBlockIndex cachedTransactions)
  | _, _, _, [], _, h => h
  | _, _, transactionBlockIndex, cachedTransaction :: cachedTransactions, hfresh, h =>
    pushTransactions (transactionBlockIndex + 1) cachedTransactions
      (fun t ht => hfresh t (List.mem_cons_of_mem _ ht))
      (h.pushTransaction (hfresh cachedTransaction List.mem_cons_self))

theorem of_fields {cache₁ cache₂ cache₁' cache₂' : BlockchainCache}
    (h : PushAgree fresh blockIndex parents₁ cache₁ parents₂ cache₂)
    (htransactions₁ : cache₁'.transactions = cache₁.transactions)
    (hentries₁ : cache₁'.keyOutputsGlobalIndexes = cache₁.keyOutputsGlobalIndexes)
    (htransactions₂ : cache₂'.transactions = cache₂.transactions)
    (hentries₂ : cache₂'.keyOutputsGlobalIndexes = cache₂.keyOutputsGlobalIndexes) :
    PushAgree fresh blockIndex parents₁ cache₁' parents₂ cache₂' where
  nextGlobalIndex_eq amount := by
    rw [nextGlobalIndex_congr hentries₁, nextGlobalIndex_congr hentries₂]
    exact h.nextGlobalIndex_eq amount
  transactions_eq := by
    rw [htransactions₁, htransactions₂]
    exact h.transactions_eq
  fresh₁ := htransactions₁ ▸ h.fresh₁
  fresh₂ := htransactions₂ ▸ h.fresh₂

/-- A whole block keeps two agreeing segments agreeing, whatever else each of them holds. -/
theorem doPushBlock {primitives : Primitives} {cache₁ cache₂ : BlockchainCache}
    {cachedBlock : CachedBlock} {cachedTransactions : List CachedTransaction}
    {validatorState : TransactionValidatorState} {blockSize : ℕ}
    {generatedCoins blockDifficulty : UInt64} {rawBlock : RawBlock}
    (hindex : cachedBlock.getBlockIndex.toNat = blockIndex)
    (hfresh : ∀ t ∈ primitives.toCachedTransaction cachedBlock.block.baseTransaction ::
      cachedTransactions, t.transactionHash ∈ fresh)
    (h : PushAgree fresh blockIndex parents₁ cache₁ parents₂ cache₂) :
    PushAgree fresh blockIndex
      parents₁ (cache₁.doPushBlock primitives parents₁ cachedBlock cachedTransactions validatorState
        blockSize generatedCoins blockDifficulty rawBlock)
      parents₂ (cache₂.doPushBlock primitives parents₂ cachedBlock cachedTransactions validatorState
        blockSize generatedCoins blockDifficulty rawBlock) := by
  subst hindex
  unfold BlockchainCache.doPushBlock
  -- recording the block and its key images, and storing the raw block, touch neither the
  -- transactions nor the entries
  refine (((h.of_fields ?_ ?_ ?_ ?_).pushTransaction (hfresh _ List.mem_cons_self)).pushTransactions
    1 cachedTransactions (fun t ht => hfresh t (List.mem_cons_of_mem _ ht))).of_fields rfl rfl rfl rfl
  all_goals rfl

end PushAgree

/-- The segments `doPushBlock` builds from an empty segment under fixed parents, each block new
to the segment and pushed at the index after the top, as the code asserts. -/
inductive PushReachable (primitives : Primitives) (parents : List BlockchainCache) :
    BlockchainCache → Prop
  | empty (parent : Option ℕ) (startIndex : ℕ) :
      PushReachable primitives parents (BlockchainCache.empty parent startIndex)
  | push {cache : BlockchainCache} (cachedBlock : CachedBlock)
      (cachedTransactions : List CachedTransaction) (validatorState : TransactionValidatorState)
      (blockSize : ℕ) (generatedCoins blockDifficulty : UInt64) (rawBlock : RawBlock) :
      PushReachable primitives parents cache →
      cache.hasBlock cachedBlock.blockHash = false →
      cachedBlock.getBlockIndex.toNat = cache.startIndex + cache.blockInfos.length →
      PushReachable primitives parents (cache.doPushBlock primitives parents cachedBlock
        cachedTransactions validatorState blockSize generatedCoins blockDifficulty rawBlock)

/-- What every segment built by pushes keeps. -/
structure PushInvariant (cache : BlockchainCache) : Prop where
  entriesNonempty : cache.EntriesNonempty
  hashesNodup : cache.HashesNodup
  entriesSorted : cache.EntriesSortedAtMost cache.getTopBlockIndex

theorem PushReachable.invariant {primitives : Primitives} {parents : List BlockchainCache}
    {cache : BlockchainCache} (h : PushReachable primitives parents cache) : cache.PushInvariant := by
  induction h with
  | empty parent startIndex =>
    have hnone : ∀ amount, (BlockchainCache.empty parent startIndex).keyOutputsGlobalIndexes amount = none :=
      fun _ => rfl
    exact ⟨fun amount _ hentry => absurd hentry (by simp [hnone]), List.nodup_nil,
      fun amount _ hentry => absurd hentry (by simp [hnone])⟩
  | push _ _ _ _ _ _ _ _ hnew hindex ih =>
    exact ⟨ih.entriesNonempty.doPushBlock, ih.hashesNodup.doPushBlock,
      ih.entriesSorted.doPushBlock hnew hindex⟩

end BlockchainCache

end CryptoNote
