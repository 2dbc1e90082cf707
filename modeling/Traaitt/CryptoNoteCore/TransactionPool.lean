import Traaitt.CryptoNote.Types
import Traaitt.Library.Lists

/-! `TransactionValidatorState` with `mergeStates`, `hasIntersections` and
`excludeFromState`, and `TransactionPool`: pending transactions kept in a container
indexed by hash, next to one merged set of the key images they spend. -/

namespace CryptoNote

/-- The key images spent by the transactions validated so far (`std::unordered_set`). -/
structure TransactionValidatorState where
  spentKeyImages : Finset Crypto.KeyImage
  deriving DecidableEq

def mergeStates (destination source : TransactionValidatorState) : TransactionValidatorState :=
  ⟨destination.spentKeyImages ∪ source.spentKeyImages⟩

def hasIntersections (destination source : TransactionValidatorState) : Bool :=
  decide (∃ ki ∈ source.spentKeyImages, ki ∈ destination.spentKeyImages)

/-- Erases the key image of every `KeyInput`; a `BaseInput` only hits `assert(false)`. -/
def excludeFromState (state : TransactionValidatorState) (transaction : CachedTransaction) :
    TransactionValidatorState :=
  ⟨transaction.transaction.inputs.foldl
    (fun s input => match input with
      | .key k => s.erase k.keyImage
      | .base _ => s) state.spentKeyImages⟩

/-- The state `Core` hands to the pool with a transaction: its `KeyInput` key images. -/
def extractSpentOutputs (transaction : CachedTransaction) : TransactionValidatorState :=
  ⟨transaction.transaction.keyImages.toFinset⟩

theorem excludeFromState_eq (state : TransactionValidatorState) (transaction : CachedTransaction) :
    (excludeFromState state transaction).spentKeyImages =
      state.spentKeyImages \ transaction.transaction.keyImages.toFinset := by
  unfold excludeFromState Transaction.keyImages
  dsimp only
  generalize state.spentKeyImages = s
  induction transaction.transaction.inputs generalizing s with
  | nil => simp
  | cons input inputs ih =>
    cases input with
    | base b => simpa [List.filterMap_cons, TransactionInput.keyImage?] using ih s
    | key k =>
      rw [List.foldl_cons, ih, List.filterMap_cons]
      ext ki
      simp only [TransactionInput.keyImage?, List.toFinset_cons, Finset.mem_sdiff,
        Finset.mem_erase, Finset.mem_insert]
      tauto

theorem hasIntersections_eq_false {destination source : TransactionValidatorState} :
    hasIntersections destination source = false ↔
      Disjoint destination.spentKeyImages source.spentKeyImages := by
  simp only [hasIntersections, decide_eq_false_iff_not, not_exists, not_and,
    Finset.disjoint_left]
  exact ⟨fun h ki hd hs => h ki hs hd, fun h ki hs hd => h hd hs⟩

structure PendingTransactionInfo where
  receiveTime : UInt64
  cachedTransaction : CachedTransaction
  deriving DecidableEq

def PendingTransactionInfo.getTransactionHash (info : PendingTransactionInfo) : Crypto.Hash :=
  info.cachedTransaction.transactionHash

/-- `TransactionPriorityComparator`: `lhs` comes first when its fee per byte is higher
(compared as the exact 128-bit products), then when it is smaller, then when it is older. -/
def TransactionPriorityComparator (lhs rhs : PendingTransactionInfo) : Bool :=
  let lhsSize := lhs.cachedTransaction.transactionBinaryArray.length
  let rhsSize := rhs.cachedTransaction.transactionBinaryArray.length
  let lhsProduct := lhs.cachedTransaction.getTransactionFee.toNat * rhsSize
  let rhsProduct := rhs.cachedTransaction.getTransactionFee.toNat * lhsSize
  decide (rhsProduct < lhsProduct) ||
    (decide (lhsProduct = rhsProduct) && decide (lhsSize < rhsSize)) ||
    (decide (lhsProduct = rhsProduct) && decide (lhsSize = rhsSize) &&
      decide (lhs.receiveTime < rhs.receiveTime))

/-- The pool. `transactions` is the multi-index container in insertion order; its hash
index is unique. -/
structure TransactionPool where
  poolState : TransactionValidatorState
  transactions : List PendingTransactionInfo

namespace TransactionPool

def empty : TransactionPool := ⟨⟨∅⟩, []⟩

def checkIfTransactionPresent (pool : TransactionPool) (hash : Crypto.Hash) : Bool :=
  pool.transactions.any (·.getTransactionHash == hash)

/-- Insertion into the hash-unique index: refused when the hash is already there. -/
def insertTransaction (pool : TransactionPool) (info : PendingTransactionInfo) :
    Bool × TransactionPool :=
  if pool.checkIfTransactionPresent info.getTransactionHash then (false, pool)
  else (true, { pool with transactions := pool.transactions ++ [info] })

/-- `TransactionPool::pushTransaction`; `receiveTime` is the clock reading `time(nullptr)`. -/
def pushTransaction (pool : TransactionPool) (transaction : CachedTransaction)
    (transactionState : TransactionValidatorState) (receiveTime : UInt64) :
    Bool × TransactionPool :=
  let pendingTx : PendingTransactionInfo := ⟨receiveTime, transaction⟩
  if pool.checkIfTransactionPresent pendingTx.getTransactionHash then (false, pool)
  else if hasIntersections pool.poolState transactionState then (false, pool)
  else
    let merged := { pool with poolState := mergeStates pool.poolState transactionState }
    merged.insertTransaction pendingTx

def getTransaction? (pool : TransactionPool) (hash : Crypto.Hash) : Option CachedTransaction :=
  (pool.transactions.find? (·.getTransactionHash == hash)).map (·.cachedTransaction)

def removeTransaction (pool : TransactionPool) (hash : Crypto.Hash) : Bool × TransactionPool :=
  match pool.transactions.find? (·.getTransactionHash == hash) with
  | none => (false, pool)
  | some info =>
    (true, { poolState := excludeFromState pool.poolState info.cachedTransaction
             transactions := pool.transactions.eraseP (·.getTransactionHash == hash) })

/-- Hashes in the order of the cost index: a stable sort by the priority comparator. -/
def getTransactionHashes (pool : TransactionPool) : List Crypto.Hash :=
  (pool.transactions.mergeSort
    (fun a b => !TransactionPriorityComparator b a)).map (·.getTransactionHash)

def flush (pool : TransactionPool) : TransactionPool :=
  pool.getTransactionHashes.foldl (fun p hash => (p.removeTransaction hash).2) pool

/-- The key images a pending transaction spends, in input order. -/
def keyImagesOf (info : PendingTransactionInfo) : List Crypto.KeyImage :=
  info.cachedTransaction.transaction.keyImages

/-- The pool keeps its data twice; this is what the two copies must agree on. -/
structure Consistent (pool : TransactionPool) : Prop where
  hashes_nodup : (pool.transactions.map (·.getTransactionHash)).Nodup
  keyImages_disjoint : pool.transactions.Pairwise fun a b => (keyImagesOf a).Disjoint (keyImagesOf b)
  poolState_eq : pool.poolState.spentKeyImages = (pool.transactions.flatMap keyImagesOf).toFinset

theorem consistent_empty : empty.Consistent :=
  ⟨List.nodup_nil, List.Pairwise.nil, rfl⟩

theorem checkIfTransactionPresent_eq_false {pool : TransactionPool} {hash : Crypto.Hash} :
    pool.checkIfTransactionPresent hash = false ↔
      hash ∉ pool.transactions.map (·.getTransactionHash) := by
  simp [checkIfTransactionPresent]

/-- The two early returns of `pushTransaction`, and the insertion, which cannot fail once
the hash check has passed. -/
theorem pushTransaction_eq (pool : TransactionPool) (transaction : CachedTransaction)
    (state : TransactionValidatorState) (receiveTime : UInt64) :
    pool.pushTransaction transaction state receiveTime =
      if pool.checkIfTransactionPresent transaction.transactionHash = true ∨
          hasIntersections pool.poolState state = true then (false, pool)
      else (true, ⟨mergeStates pool.poolState state,
        pool.transactions ++ [⟨receiveTime, transaction⟩]⟩) := by
  unfold pushTransaction insertTransaction
  by_cases hp : pool.checkIfTransactionPresent transaction.transactionHash = true
  · simp [PendingTransactionInfo.getTransactionHash, hp]
  · by_cases hi : hasIntersections pool.poolState state = true
    · simp [PendingTransactionInfo.getTransactionHash, hp, hi]
    · have hfresh : ¬∃ x ∈ pool.transactions,
          x.cachedTransaction.transactionHash = transaction.transactionHash := by
        simpa [checkIfTransactionPresent, PendingTransactionInfo.getTransactionHash] using hp
      simp [PendingTransactionInfo.getTransactionHash, checkIfTransactionPresent, hfresh, hi]

theorem pushTransaction_unchanged {pool : TransactionPool} {transaction : CachedTransaction}
    {state : TransactionValidatorState} {receiveTime : UInt64}
    (h : (pool.pushTransaction transaction state receiveTime).1 = false) :
    (pool.pushTransaction transaction state receiveTime).2 = pool := by
  rw [pushTransaction_eq] at h ⊢
  -- the accepting branch answers `true`, so `h` leaves only the refusing one
  split_ifs at h ⊢
  rfl

theorem Consistent.pushTransaction {pool : TransactionPool} (hc : pool.Consistent)
    (transaction : CachedTransaction) (receiveTime : UInt64) :
    (pool.pushTransaction transaction (extractSpentOutputs transaction) receiveTime).2.Consistent := by
  rw [pushTransaction_eq]
  split_ifs with hrefused
  · exact hc
  simp only [not_or, Bool.not_eq_true, checkIfTransactionPresent_eq_false,
    hasIntersections_eq_false] at hrefused
  obtain ⟨hfresh, hdisjoint⟩ := hrefused
  refine ⟨?_, ?_, ?_⟩
  · simpa [List.nodup_append, PendingTransactionInfo.getTransactionHash] using
      ⟨hc.hashes_nodup, fun a ha heq => hfresh (heq ▸ List.mem_map_of_mem ha)⟩
  · refine ListContainer.pairwise_disjoint_append_singleton.2 ⟨hc.keyImages_disjoint, ?_⟩
    intro info hinfo ki hki hnew
    rw [hc.poolState_eq] at hdisjoint
    refine Finset.disjoint_left.1 hdisjoint ?_ (List.mem_toFinset.2 hnew)
    exact List.mem_toFinset.2 (List.mem_flatMap.2 ⟨info, hinfo, hki⟩)
  · simp [mergeStates, hc.poolState_eq, extractSpentOutputs, keyImagesOf, List.toFinset_append]

theorem Consistent.removeTransaction {pool : TransactionPool} (hc : pool.Consistent)
    (hash : Crypto.Hash) : (pool.removeTransaction hash).2.Consistent := by
  unfold TransactionPool.removeTransaction
  split
  · exact hc
  rename_i info hfind
  refine ⟨?_, ListContainer.Pairwise.eraseP _ hc.keyImages_disjoint, ?_⟩
  · exact hc.hashes_nodup.sublist (List.eraseP_sublist.map _)
  · rw [excludeFromState_eq, hc.poolState_eq,
      ListContainer.toFinset_flatMap_eraseP hc.keyImages_disjoint hfind]
    rfl

theorem Consistent.flush {pool : TransactionPool} (hc : pool.Consistent) :
    pool.flush.Consistent := by
  unfold TransactionPool.flush
  generalize pool.getTransactionHashes = hashes
  induction hashes generalizing pool with
  | nil => exact hc
  | cons hash hashes ih => exact ih (hc.removeTransaction hash)

/-- The calls a pool receives; a push comes with its own key images, as `Core` supplies them. -/
inductive Operation
  | pushTransaction (transaction : CachedTransaction) (receiveTime : UInt64)
  | removeTransaction (hash : Crypto.Hash)
  | flush

def Operation.apply (pool : TransactionPool) : Operation → TransactionPool
  | .pushTransaction transaction receiveTime =>
    (pool.pushTransaction transaction (extractSpentOutputs transaction) receiveTime).2
  | .removeTransaction hash => (pool.removeTransaction hash).2
  | .flush => pool.flush

/-- The pool after a sequence of calls, starting empty. -/
def run (operations : List Operation) : TransactionPool :=
  operations.foldl Operation.apply empty

theorem Consistent.apply {pool : TransactionPool} (hc : pool.Consistent) :
    ∀ operation : Operation, (operation.apply pool).Consistent
  | .pushTransaction transaction receiveTime => hc.pushTransaction transaction receiveTime
  | .removeTransaction hash => hc.removeTransaction hash
  | .flush => hc.flush

theorem consistent_run (operations : List Operation) : (run operations).Consistent := by
  unfold run
  suffices ∀ pool : TransactionPool, pool.Consistent →
      (operations.foldl Operation.apply pool).Consistent from this _ consistent_empty
  induction operations with
  | nil => exact fun _ hc => hc
  | cons operation operations ih => exact fun pool hc => ih _ (hc.apply operation)

/-- In every state reached by pushes, removals and flushes the pool's hashes are distinct,
its transactions spend disjoint key images whose union is `poolState`, and a refused
push changes neither the transactions nor `poolState`. -/
theorem pool_bookkeeping_invariant (operations : List Operation) :
    (run operations).Consistent ∧
      ∀ transaction receiveTime,
        ((run operations).pushTransaction transaction (extractSpentOutputs transaction)
            receiveTime).1 = false →
        ((run operations).pushTransaction transaction (extractSpentOutputs transaction)
            receiveTime).2 = run operations :=
  ⟨consistent_run operations, fun _ _ h => pushTransaction_unchanged h⟩

end TransactionPool

end CryptoNote
