import Traaitt.CryptoNoteCore.Core

/-! `TransactionPoolCleanWrapper::clean`: every pool transaction that has waited `timeout` or
more is removed, and so is every one whose mixin is outside the range for the height. The loop
does not go on to the next transaction after the first removal: it looks the removed
transaction up again for the mixin check, where `getTransaction` asserts that it is in the pool.
The model reads a failed `assert` as an error. -/

namespace CryptoNote

namespace TransactionPool

/-- The `assert(it != transactionHashIndex.end())` of the pool's lookups. -/
def assertFound : String := "assert(it != transactionHashIndex.end())"

/-- `getTransactionReceiveTime(hash)`. -/
def getTransactionReceiveTime (pool : TransactionPool) (hash : Crypto.Hash) : Except String UInt64 :=
  match pool.transactions.find? (·.getTransactionHash == hash) with
  | some info => .ok info.receiveTime
  | none => .error assertFound

/-- `getTransaction(hash)`. -/
def getTransaction (pool : TransactionPool) (hash : Crypto.Hash) : Except String CachedTransaction :=
  match pool.getTransaction? hash with
  | some transaction => .ok transaction
  | none => .error assertFound

theorem find?_removeTransaction_of_ne (pool : TransactionPool) {hash other : Crypto.Hash}
    (hne : other ≠ hash) :
    (pool.removeTransaction hash).2.transactions.find? (·.getTransactionHash == other) =
      pool.transactions.find? (·.getTransactionHash == other) := by
  unfold removeTransaction
  split
  · rfl
  · refine ListContainer.find?_eraseP_of_disjoint fun info h => ?_
    rw [beq_iff_eq] at h
    simp [h, hne]

theorem getTransactionReceiveTime_of_find? {pool : TransactionPool} {hash : Crypto.Hash}
    {info : PendingTransactionInfo}
    (h : pool.transactions.find? (·.getTransactionHash == hash) = some info) :
    pool.getTransactionReceiveTime hash = .ok info.receiveTime := by
  rw [getTransactionReceiveTime, h]

theorem throwsOnly_getTransactionReceiveTime (pool : TransactionPool) (hash : Crypto.Hash) :
    ExceptRun.ThrowsOnly (· = assertFound) (pool.getTransactionReceiveTime hash) := by
  intro e he
  unfold getTransactionReceiveTime at he
  split at he <;> cases he
  rfl

theorem throwsOnly_getTransaction (pool : TransactionPool) (hash : Crypto.Hash) :
    ExceptRun.ThrowsOnly (· = assertFound) (pool.getTransaction hash) := by
  intro e he
  unfold getTransaction at he
  split at he <;> cases he
  rfl

/-- A consistent pool holds a hash once, so removing it leaves none. -/
theorem find?_removeTransaction_self {pool : TransactionPool} (hc : pool.Consistent)
    (hash : Crypto.Hash) :
    (pool.removeTransaction hash).2.transactions.find? (·.getTransactionHash == hash) = none := by
  unfold removeTransaction
  split
  · assumption
  · exact ListContainer.find?_eraseP_eq_none hash hc.hashes_nodup

theorem getTransaction_removeTransaction_self {pool : TransactionPool} (hc : pool.Consistent)
    (hash : Crypto.Hash) :
    (pool.removeTransaction hash).2.getTransaction hash = .error assertFound := by
  rw [getTransaction, getTransaction?, find?_removeTransaction_self hc]
  rfl

end TransactionPool

/-- The cleaner around the pool: `recentlyDeletedTransactions` is the `std::unordered_map` from
hashes to deletion times, in insertion order. -/
structure TransactionPoolCleanWrapper where
  transactionPool : TransactionPool
  recentlyDeletedTransactions : List (Crypto.Hash × UInt64)
  timeout : UInt64

namespace TransactionPoolCleanWrapper

/-- `recentlyDeletedTransactions.emplace(hash, currentTime)`, which keeps an entry already
there, then `transactionPool->removeTransaction(hash)`. -/
def deleteTransaction (wrapper : TransactionPoolCleanWrapper) (hash : Crypto.Hash)
    (currentTime : UInt64) : TransactionPoolCleanWrapper :=
  { wrapper with
    recentlyDeletedTransactions :=
      if wrapper.recentlyDeletedTransactions.any (·.1 == hash) then
        wrapper.recentlyDeletedTransactions
      else wrapper.recentlyDeletedTransactions ++ [(hash, currentTime)]
    transactionPool := (wrapper.transactionPool.removeTransaction hash).2 }

/-- One transaction of `clean`'s loop, with the hashes deleted so far. -/
def cleanTransaction (height : UInt32) (currentTime : UInt64)
    (acc : TransactionPoolCleanWrapper × List Crypto.Hash) (hash : Crypto.Hash) :
    Except String (TransactionPoolCleanWrapper × List Crypto.Hash) := do
  let (wrapper, deletedTransactions) := acc
  let receiveTime ← wrapper.transactionPool.getTransactionReceiveTime hash
  let transactionAge := currentTime - receiveTime
  let (wrapper, deletedTransactions) :=
    if transactionAge ≥ wrapper.timeout then
      (wrapper.deleteTransaction hash currentTime, deletedTransactions ++ [hash])
    else (wrapper, deletedTransactions)
  let transaction ← wrapper.transactionPool.getTransaction hash
  if !Mixins.validate [transaction] height.toUInt64 then
    pure (wrapper.deleteTransaction hash currentTime, deletedTransactions ++ [hash])
  else pure (wrapper, deletedTransactions)

/-- `cleanRecentlyDeletedTransactions(currentTime)`. -/
def cleanRecentlyDeletedTransactions (wrapper : TransactionPoolCleanWrapper)
    (currentTime : UInt64) : TransactionPoolCleanWrapper :=
  { wrapper with
    recentlyDeletedTransactions := wrapper.recentlyDeletedTransactions.filter
      fun entry => !(currentTime - entry.2 ≥ wrapper.timeout) }

/-- `clean(height)` at the clock reading `currentTime`: the deleted hashes and the cleaner after. -/
def clean (wrapper : TransactionPoolCleanWrapper) (height : UInt32) (currentTime : UInt64) :
    Except String (List Crypto.Hash × TransactionPoolCleanWrapper) := do
  let (wrapper, deletedTransactions) ←
    wrapper.transactionPool.getTransactionHashes.foldlM (cleanTransaction height currentTime)
      (wrapper, [])
  pure (deletedTransactions, wrapper.cleanRecentlyDeletedTransactions currentTime)

/-! ## What one step of the loop does -/

/-- What a step for `hash` keeps of the cleaner: the timeout, a consistent pool, and every other
transaction as it was. -/
def Frame (hash : Crypto.Hash) (wrapper wrapper' : TransactionPoolCleanWrapper) : Prop :=
  wrapper'.timeout = wrapper.timeout ∧
    (wrapper.transactionPool.Consistent → wrapper'.transactionPool.Consistent) ∧
    ∀ other ≠ hash, wrapper'.transactionPool.transactions.find? (·.getTransactionHash == other) =
      wrapper.transactionPool.transactions.find? (·.getTransactionHash == other)

variable {hash : Crypto.Hash} {wrapper wrapper₁ wrapper₂ : TransactionPoolCleanWrapper}
  {height : UInt32} {currentTime : UInt64}

theorem Frame.refl (hash : Crypto.Hash) (wrapper : TransactionPoolCleanWrapper) :
    Frame hash wrapper wrapper :=
  ⟨rfl, id, fun _ _ => rfl⟩

theorem Frame.trans (h₁ : Frame hash wrapper wrapper₁) (h₂ : Frame hash wrapper₁ wrapper₂) :
    Frame hash wrapper wrapper₂ :=
  ⟨h₂.1.trans h₁.1, fun hc => h₂.2.1 (h₁.2.1 hc), fun other hne =>
    (h₂.2.2 other hne).trans (h₁.2.2 other hne)⟩

theorem frame_deleteTransaction (wrapper : TransactionPoolCleanWrapper) (hash : Crypto.Hash)
    (currentTime : UInt64) : Frame hash wrapper (wrapper.deleteTransaction hash currentTime) :=
  ⟨rfl, fun hc => hc.removeTransaction hash, fun _ hne =>
    wrapper.transactionPool.find?_removeTransaction_of_ne hne⟩

/-- The mixin check of a step deletes the transaction or leaves the cleaner as it was. -/
theorem frame_mixinCheck {deleted deleted' : List Crypto.Hash}
    {wrapper' : TransactionPoolCleanWrapper}
    (h : (do
      let transaction ← wrapper.transactionPool.getTransaction hash
      if !Mixins.validate [transaction] height.toUInt64 then
        pure (wrapper.deleteTransaction hash currentTime, deleted ++ [hash])
      else pure (wrapper, deleted) : Except String (TransactionPoolCleanWrapper × List Crypto.Hash)) =
        .ok (wrapper', deleted')) :
    Frame hash wrapper wrapper' := by
  obtain ⟨transaction, -, h⟩ := ExceptRun.bind_eq_ok.1 h
  split_ifs at h
  · obtain ⟨rfl, -⟩ := Prod.mk.inj (ExceptRun.pure_eq_ok.1 h)
    exact frame_deleteTransaction _ _ _
  · obtain ⟨rfl, -⟩ := Prod.mk.inj (ExceptRun.pure_eq_ok.1 h)
    exact Frame.refl _ _

theorem frame_cleanTransaction {deleted deleted' : List Crypto.Hash}
    {wrapper' : TransactionPoolCleanWrapper}
    (h : cleanTransaction height currentTime (wrapper, deleted) hash = .ok (wrapper', deleted')) :
    Frame hash wrapper wrapper' := by
  unfold cleanTransaction at h
  obtain ⟨receiveTime, -, h⟩ := ExceptRun.bind_eq_ok.1 h
  dsimp only at h
  -- the age check deletes the transaction or leaves the cleaner as it was
  split at h
  · exact (frame_deleteTransaction _ _ _).trans (frame_mixinCheck h)
  · exact frame_mixinCheck h

/-- A step fails only at one of the two lookups. -/
theorem throwsOnly_cleanTransaction (acc : TransactionPoolCleanWrapper × List Crypto.Hash) :
    ExceptRun.ThrowsOnly (· = TransactionPool.assertFound)
      (cleanTransaction height currentTime acc hash) := by
  obtain ⟨wrapper, deleted⟩ := acc
  unfold cleanTransaction
  refine (TransactionPool.throwsOnly_getTransactionReceiveTime _ _).bind fun receiveTime => ?_
  dsimp only
  split <;>
    exact (TransactionPool.throwsOnly_getTransaction _ _).bind fun _ =>
      ExceptRun.throwsOnly_ite (ExceptRun.throwsOnly_pure _) (ExceptRun.throwsOnly_pure _)

/-! ## A transaction that has timed out -/

/-- A step at a transaction that has timed out removes it, then looks it up for the mixin
check. -/
theorem cleanTransaction_timed_out {deleted : List Crypto.Hash} {info : PendingTransactionInfo}
    (hc : wrapper.transactionPool.Consistent)
    (hfind : wrapper.transactionPool.transactions.find? (·.getTransactionHash == hash) = some info)
    (hage : wrapper.timeout ≤ currentTime - info.receiveTime) :
    cleanTransaction height currentTime (wrapper, deleted) hash =
      .error TransactionPool.assertFound := by
  unfold cleanTransaction
  dsimp only
  rw [TransactionPool.getTransactionReceiveTime_of_find? hfind, ExceptRun.ok_bind, if_pos hage]
  have hgone : (wrapper.deleteTransaction hash currentTime).transactionPool.getTransaction hash =
      .error TransactionPool.assertFound :=
    TransactionPool.getTransaction_removeTransaction_self hc hash
  rw [hgone]
  rfl

/-- The loop from a consistent pool that holds a timed-out transaction whose hash is still to
come fails: the steps before it keep the transaction, the timeout and the pool's consistency. -/
theorem foldlM_cleanTransaction_timed_out {info : PendingTransactionInfo}
    (hashes : List Crypto.Hash) :
    ∀ (wrapper : TransactionPoolCleanWrapper) (deleted : List Crypto.Hash),
      info.getTransactionHash ∈ hashes → wrapper.transactionPool.Consistent →
      wrapper.transactionPool.transactions.find? (·.getTransactionHash == info.getTransactionHash) =
        some info →
      wrapper.timeout ≤ currentTime - info.receiveTime →
      hashes.foldlM (cleanTransaction height currentTime) (wrapper, deleted) =
        .error TransactionPool.assertFound := by
  induction hashes with
  | nil => exact fun _ _ hmem => absurd hmem List.not_mem_nil
  | cons hash hashes ih =>
    intro wrapper deleted hmem hc hfind hage
    rw [List.foldlM_cons]
    cases hstep : cleanTransaction height currentTime (wrapper, deleted) hash with
    | error e =>
      obtain rfl := throwsOnly_cleanTransaction _ e hstep
      rfl
    | ok acc =>
      obtain ⟨wrapper', deleted'⟩ := acc
      by_cases hhash : hash = info.getTransactionHash
      · subst hhash
        rw [cleanTransaction_timed_out hc hfind hage] at hstep
        cases hstep
      -- a step at another hash keeps what the timed-out transaction's step needs
      obtain ⟨htimeout, hconsistent, hother⟩ := frame_cleanTransaction hstep
      refine ih wrapper' deleted' ?_ (hconsistent hc) ?_ ?_
      · exact (List.mem_cons.1 hmem).resolve_left (Ne.symm hhash)
      · rw [hother _ (Ne.symm hhash), hfind]
      · rw [htimeout]
        exact hage

/-- Whenever the pool holds a transaction that has waited out the timeout, `clean` removes it
and then fails the assert of `getTransaction`. -/
theorem clean_asserts_on_timed_out (hc : wrapper.transactionPool.Consistent)
    {info : PendingTransactionInfo} (hinfo : info ∈ wrapper.transactionPool.transactions)
    (hage : wrapper.timeout ≤ currentTime - info.receiveTime) :
    wrapper.clean height currentTime = .error TransactionPool.assertFound := by
  have hmem : info.getTransactionHash ∈ wrapper.transactionPool.getTransactionHashes :=
    List.mem_map_of_mem (List.mem_mergeSort.2 hinfo)
  have hfind : wrapper.transactionPool.transactions.find?
      (·.getTransactionHash == info.getTransactionHash) = some info := by
    refine ListContainer.find?_eq_some_of_unique hinfo (beq_self_eq_true _) fun other hother h => ?_
    exact List.inj_on_of_nodup_map hc.hashes_nodup hother hinfo (beq_iff_eq.1 h)
  unfold clean
  rw [foldlM_cleanTransaction_timed_out _ wrapper [] hmem hc hfind hage]
  rfl

theorem clean_asserts_on_timed_out_day :
    let info : PendingTransactionInfo := ⟨0, ⟨⟨⟨1, 0, [], [], []⟩, []⟩, [], ⟨0⟩, ⟨0⟩⟩⟩
    let wrapper : TransactionPoolCleanWrapper :=
      ⟨⟨⟨∅⟩, [info]⟩, [], parameters.CRYPTONOTE_MEMPOOL_TX_LIVETIME⟩
    wrapper.transactionPool.Consistent ∧ info ∈ wrapper.transactionPool.transactions ∧
      wrapper.timeout ≤ 86400 - info.receiveTime ∧
      wrapper.clean 0 86400 = .error TransactionPool.assertFound :=
  have hc : TransactionPool.Consistent ⟨⟨∅⟩, [⟨0, ⟨⟨⟨1, 0, [], [], []⟩, []⟩, [], ⟨0⟩, ⟨0⟩⟩⟩]⟩ :=
    ⟨List.nodup_singleton _, List.pairwise_singleton _ _, rfl⟩
  ⟨hc, List.mem_singleton_self _, by decide,
    clean_asserts_on_timed_out hc (List.mem_singleton_self _) (by decide)⟩

end TransactionPoolCleanWrapper

end CryptoNote
