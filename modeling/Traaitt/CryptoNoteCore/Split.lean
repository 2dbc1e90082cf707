import Traaitt.CryptoNoteCore.Push
import Traaitt.Library.Except
import Traaitt.Library.Lists
import Mathlib.Data.List.TakeWhile

/-! What `split(k)` keeps. The lower part keeps the blocks before `k` and the upper part the
rest, so a query on the upper part that reads the chain block by block is unchanged. The
containers indexed otherwise are cut by block index, and a query for a block index from `k`
on reads the same entries through the two parts as through the whole segment. -/

namespace CryptoNote

namespace BlockchainCache

section SplitParts

variable {cache : BlockchainCache} {cacheId newCacheId k : ℕ}

@[simp] theorem split_fst_startIndex :
    (cache.split cacheId newCacheId k).1.startIndex = cache.startIndex := rfl

@[simp] theorem split_fst_blockInfos :
    (cache.split cacheId newCacheId k).1.blockInfos = cache.blockInfos.take (k - cache.startIndex) :=
  rfl

@[simp] theorem split_fst_transactions :
    (cache.split cacheId newCacheId k).1.transactions =
      cache.transactions.filter (·.blockIndex < k) := rfl

@[simp] theorem split_fst_spentKeyImages_entries :
    (cache.split cacheId newCacheId k).1.spentKeyImages.entries =
      cache.spentKeyImages.entries.filter (·.blockIndex < k) := rfl

@[simp] theorem split_fst_keyOutputsGlobalIndexes (amount : UInt64) :
    (cache.split cacheId newCacheId k).1.keyOutputsGlobalIndexes amount =
      (cache.keyOutputsGlobalIndexes amount).bind (lowerGlobalIndexes k) := rfl

@[simp] theorem split_snd_startIndex : (cache.split cacheId newCacheId k).2.startIndex = k := rfl

@[simp] theorem split_snd_blockInfos :
    (cache.split cacheId newCacheId k).2.blockInfos = cache.blockInfos.drop (k - cache.startIndex) :=
  rfl

@[simp] theorem split_snd_transactions :
    (cache.split cacheId newCacheId k).2.transactions =
      cache.transactions.filter (k ≤ ·.blockIndex) := rfl

@[simp] theorem split_snd_spentKeyImages_entries :
    (cache.split cacheId newCacheId k).2.spentKeyImages.entries =
      cache.spentKeyImages.entries.filter (k ≤ ·.blockIndex) := rfl

@[simp] theorem split_snd_keyOutputsGlobalIndexes (amount : UInt64) :
    (cache.split cacheId newCacheId k).2.keyOutputsGlobalIndexes amount =
      (cache.keyOutputsGlobalIndexes amount).bind (upperGlobalIndexes k) := rfl

@[simp] theorem split_fst_paymentIds :
    (cache.split cacheId newCacheId k).1.paymentIds = cache.paymentIds.filter fun pair =>
      !((cache.transactions.filter (k ≤ ·.blockIndex)).any (·.transactionHash == pair.transactionHash)) :=
  rfl

@[simp] theorem split_snd_paymentIds :
    (cache.split cacheId newCacheId k).2.paymentIds = cache.paymentIds.filter fun pair =>
      (cache.transactions.filter (k ≤ ·.blockIndex)).any (·.transactionHash == pair.transactionHash) :=
  rfl

theorem blockInfosOf_split (parents : List BlockchainCache) :
    blockInfosOf ((cache.split cacheId newCacheId k).2 :: (cache.split cacheId newCacheId k).1 ::
      parents) = blockInfosOf (cache :: parents) := by
  simp only [blockInfosOf_cons, split_fst_blockInfos, split_snd_blockInfos, List.append_assoc,
    List.take_append_drop]

end SplitParts

/-- `Linked` reads the head of a path only through its start. -/
theorem Linked.congr_head {cache cache' : BlockchainCache} :
    ∀ {parents : List BlockchainCache}, Linked (cache :: parents) →
      cache'.startIndex = cache.startIndex → Linked (cache' :: parents)
  | [], h, hs => hs.trans h
  | _ :: _, h, hs => ⟨h.1, h.2.1.trans hs.symm, h.2.2⟩

section Transparency

variable {cache : BlockchainCache} {parents : List BlockchainCache} {cacheId newCacheId k : ℕ}

theorem Linked.split (h : Linked (cache :: parents)) (hk : cache.startIndex < k)
    (htop : k < cache.startIndex + cache.blockInfos.length) :
    Linked ((cache.split cacheId newCacheId k).2 :: (cache.split cacheId newCacheId k).1 :: parents) := by
  refine ⟨?_, ?_, h.congr_head rfl⟩
  · simp only [split_fst_blockInfos, ne_eq, List.take_eq_nil_iff, not_or]
    exact ⟨by omega, List.ne_nil_of_length_pos (by omega)⟩
  · simp only [split_fst_startIndex, split_fst_blockInfos, List.length_take, split_snd_startIndex]
    omega

variable (h : Linked (cache :: parents)) (hk : cache.startIndex < k)
  (htop : k < cache.startIndex + cache.blockInfos.length)
include h hk htop

theorem getBlockHash_split (i : ℕ) :
    getBlockHash i ((cache.split cacheId newCacheId k).2 :: (cache.split cacheId newCacheId k).1 ::
      parents) = getBlockHash i (cache :: parents) := by
  rw [getBlockHash_eq i (h.split hk htop), getBlockHash_eq i h, blockInfosOf_split]

theorem getAlreadyGeneratedCoins_split (i : ℕ) :
    getAlreadyGeneratedCoins i ((cache.split cacheId newCacheId k).2 ::
      (cache.split cacheId newCacheId k).1 :: parents) = getAlreadyGeneratedCoins i (cache :: parents) := by
  rw [getAlreadyGeneratedCoins_eq i (h.split hk htop), getAlreadyGeneratedCoins_eq i h,
    blockInfosOf_split]

theorem getAlreadyGeneratedTransactions_split (i : ℕ) :
    getAlreadyGeneratedTransactions i ((cache.split cacheId newCacheId k).2 ::
      (cache.split cacheId newCacheId k).1 :: parents) =
      getAlreadyGeneratedTransactions i (cache :: parents) := by
  rw [getAlreadyGeneratedTransactions_eq i (h.split hk htop), getAlreadyGeneratedTransactions_eq i h,
    blockInfosOf_split]

theorem getLastUnits_split {count i : ℕ} (useGenesis : Bool) (pred : CachedBlockInfo → UInt64)
    (hi : i < (blockInfosOf (cache :: parents)).length) :
    getLastUnits count i useGenesis pred ((cache.split cacheId newCacheId k).2 ::
      (cache.split cacheId newCacheId k).1 :: parents) =
      getLastUnits count i useGenesis pred (cache :: parents) := by
  rw [getLastUnits_eq (h.split hk htop) (by rwa [blockInfosOf_split]), getLastUnits_eq h hi,
    blockInfosOf_split]

end Transparency

section FromSplitIndex

variable {cache : BlockchainCache} {parents : List BlockchainCache} {cacheId newCacheId k i : ℕ}

theorem contains_iff {c : SpentKeyImagesContainer} {keyImage : Crypto.KeyImage} :
    c.contains keyImage = true ↔ ∃ e ∈ c.entries, e.keyImage = keyImage := by
  simp [SpentKeyImagesContainer.contains]

theorem spentAtOrBefore_iff {c : SpentKeyImagesContainer} {keyImage : Crypto.KeyImage} {i : ℕ} :
    c.spentAtOrBefore keyImage i = true ↔ ∃ e ∈ c.entries, e.keyImage = keyImage ∧ e.blockIndex ≤ i := by
  simp [SpentKeyImagesContainer.spentAtOrBefore]

/-- From the split index on, `checkIfSpent` finds the same entry through the two parts: the
entry of a key image lies in exactly one of them. -/
theorem checkIfSpent_split (hk : cache.startIndex < k) (hi : k ≤ i) (keyImage : Crypto.KeyImage) :
    checkIfSpent keyImage i ((cache.split cacheId newCacheId k).2 ::
      (cache.split cacheId newCacheId k).1 :: parents) = checkIfSpent keyImage i (cache :: parents) := by
  have hunique := cache.spentKeyImages.keyImage_unique
  simp only [checkIfSpent, split_snd_startIndex, split_fst_startIndex, Nat.not_lt.2 hi,
    Nat.not_lt.2 (le_trans hk.le hi), if_false]
  by_cases hupper : (cache.split cacheId newCacheId k).2.spentKeyImages.contains keyImage = true
  · -- the entry moved up: both sides read it
    obtain ⟨e, he, hek⟩ := contains_iff.1 hupper
    simp only [split_snd_spentKeyImages_entries, Finset.mem_filter] at he
    have hcache : cache.spentKeyImages.contains keyImage = true := contains_iff.2 ⟨e, he.1, hek⟩
    rw [if_pos hupper, if_pos hcache, Bool.eq_iff_iff, spentAtOrBefore_iff, spentAtOrBefore_iff]
    constructor
    · rintro ⟨e', he', hk', hi'⟩
      exact ⟨e', (Finset.mem_filter.1 he').1, hk', hi'⟩
    · rintro ⟨e', he', hk', hi'⟩
      have : e' = e := hunique e' he' e he.1 (hk'.trans hek.symm)
      subst this
      exact ⟨e', Finset.mem_filter.2 he, hk', hi'⟩
  · rw [if_neg hupper]
    by_cases hlower : (cache.split cacheId newCacheId k).1.spentKeyImages.contains keyImage = true
    · -- the entry stayed below the split, so it is before `i`
      obtain ⟨e, he, hek⟩ := contains_iff.1 hlower
      simp only [split_fst_spentKeyImages_entries, Finset.mem_filter] at he
      have hcache : cache.spentKeyImages.contains keyImage = true := contains_iff.2 ⟨e, he.1, hek⟩
      rw [if_pos hlower, if_pos hcache]
      have hl : (cache.split cacheId newCacheId k).1.spentKeyImages.spentAtOrBefore keyImage i := by
        rw [spentAtOrBefore_iff]
        exact ⟨e, by simpa using he, hek, by omega⟩
      have hc : cache.spentKeyImages.spentAtOrBefore keyImage i := by
        rw [spentAtOrBefore_iff]
        exact ⟨e, he.1, hek, by omega⟩
      rw [hl, hc]
    · -- neither part has it, so the segment had none
      have hcache : ¬cache.spentKeyImages.contains keyImage = true := by
        rw [contains_iff]
        rintro ⟨e, he, hek⟩
        by_cases hke : k ≤ e.blockIndex
        · exact hupper (contains_iff.2 ⟨e, Finset.mem_filter.2 ⟨he, hke⟩, hek⟩)
        · exact hlower (contains_iff.2 ⟨e, Finset.mem_filter.2 ⟨he, by omega⟩, hek⟩)
      rw [if_neg hlower, if_neg hcache]

theorem takeWhile_dropWhile_split (outputs : List PackedOutIndex) :
    outputs = outputs.takeWhile (·.blockIndex < k) ++ outputs.dropWhile (·.blockIndex < k) :=
  List.takeWhile_append_dropWhile.symm

theorem blockIndex_lt_of_mem_takeWhile {outputs : List PackedOutIndex} {o : PackedOutIndex}
    (ho : o ∈ outputs.takeWhile (·.blockIndex < k)) : o.blockIndex < k := by
  simpa using List.mem_takeWhile_imp ho

section Entries

variable {entry : OutputGlobalIndexesForAmount}

theorem upperGlobalIndexes_eq_none_iff :
    upperGlobalIndexes k entry = none ↔ ∀ o ∈ entry.outputs, o.blockIndex < k := by
  dsimp only [upperGlobalIndexes]
  split_ifs with hmoved
  · simpa [List.isEmpty_iff, List.dropWhile_eq_nil_iff] using hmoved
  · simpa [List.isEmpty_iff, List.dropWhile_eq_nil_iff] using hmoved

theorem lowerGlobalIndexes_of_upperGlobalIndexes_eq_none (hne : entry.outputs ≠ [])
    (h : upperGlobalIndexes k entry = none) : lowerGlobalIndexes k entry = some entry := by
  have hkept : entry.outputs.takeWhile (·.blockIndex < k) = entry.outputs :=
    List.takeWhile_eq_self_iff.2 fun o ho => decide_eq_true (upperGlobalIndexes_eq_none_iff.1 h o ho)
  dsimp only [lowerGlobalIndexes]
  rw [hkept, if_neg (by simpa [List.isEmpty_iff] using hne)]

theorem upperGlobalIndexes_eq_some {upper : OutputGlobalIndexesForAmount}
    (h : upperGlobalIndexes k entry = some upper) :
    upper = ⟨entry.startIndex + (entry.outputs.takeWhile (·.blockIndex < k)).length,
      entry.outputs.dropWhile (·.blockIndex < k)⟩ := by
  dsimp only [upperGlobalIndexes] at h
  split_ifs at h
  have hlen : entry.outputs.length = (entry.outputs.takeWhile (·.blockIndex < k)).length +
      (entry.outputs.dropWhile (·.blockIndex < k)).length := by
    conv_lhs => rw [takeWhile_dropWhile_split (k := k) entry.outputs]
    exact List.length_append
  rw [← Option.some.inj h]
  congr 1
  omega

theorem lowerGlobalIndexes_eq_some {lower : OutputGlobalIndexesForAmount}
    (h : lowerGlobalIndexes k entry = some lower) :
    lower = ⟨entry.startIndex, entry.outputs.takeWhile (·.blockIndex < k)⟩ := by
  dsimp only [lowerGlobalIndexes] at h
  split_ifs at h
  exact (Option.some.inj h).symm

theorem takeWhile_eq_nil_of_lowerGlobalIndexes_eq_none (h : lowerGlobalIndexes k entry = none) :
    entry.outputs.takeWhile (·.blockIndex < k) = [] := by
  dsimp only [lowerGlobalIndexes] at h
  split_ifs at h with hkept
  exact List.isEmpty_iff.1 hkept

end Entries

/-- From the split index on, the count of key outputs for an amount is the same: the outputs
that stayed below all come before the block. Entries are never empty. -/
theorem getKeyOutputsCountForAmount_split (amount : UInt64)
    (hne : ∀ entry, cache.keyOutputsGlobalIndexes amount = some entry → entry.outputs ≠ [])
    (hi : k ≤ i) :
    getKeyOutputsCountForAmount amount i ((cache.split cacheId newCacheId k).2 ::
      (cache.split cacheId newCacheId k).1 :: parents) =
      getKeyOutputsCountForAmount amount i (cache :: parents) := by
  simp only [getKeyOutputsCountForAmount, split_snd_keyOutputsGlobalIndexes,
    split_fst_keyOutputsGlobalIndexes]
  cases hentry : cache.keyOutputsGlobalIndexes amount with
  | none => rfl
  | some entry =>
    simp only [Option.bind_some]
    cases hupper : upperGlobalIndexes k entry with
    | none => rw [lowerGlobalIndexes_of_upperGlobalIndexes_eq_none (hne entry hentry) hupper]
    | some upper =>
      -- the outputs that stayed are all counted, the moved ones up to the block
      have hkept : ∀ o ∈ entry.outputs.takeWhile (·.blockIndex < k),
          decide (o.blockIndex < i) = true :=
        fun o ho => decide_eq_true (lt_of_lt_of_le (blockIndex_lt_of_mem_takeWhile ho) hi)
      have hcount : (entry.outputs.takeWhile (·.blockIndex < i)).length =
          (entry.outputs.takeWhile (·.blockIndex < k)).length +
            ((entry.outputs.dropWhile (·.blockIndex < k)).takeWhile (·.blockIndex < i)).length := by
        conv_lhs => rw [takeWhile_dropWhile_split (k := k) entry.outputs]
        rw [List.takeWhile_append_of_pos hkept, List.length_append]
      rw [upperGlobalIndexes_eq_some hupper, hcount]
      exact Nat.add_assoc _ _ _

theorem getTransactionGlobalIndexes_split (hnodup : (cache.transactions.map (·.transactionHash)).Nodup)
    (transactionHash : Crypto.Hash) :
    cache.getTransactionGlobalIndexes transactionHash =
      ((cache.split cacheId newCacheId k).2.getTransactionGlobalIndexes transactionHash).or
        ((cache.split cacheId newCacheId k).1.getTransactionGlobalIndexes transactionHash) := by
  simp only [getTransactionGlobalIndexes, split_snd_transactions, split_fst_transactions,
    List.find?_filter]
  cases hfind : cache.transactions.find? (·.transactionHash == transactionHash) with
  | none =>
    rw [List.find?_eq_none] at hfind
    have hnone : ∀ (p : CachedTransactionInfo → Bool),
        cache.transactions.find? (fun t => decide (p t = true ∧ (t.transactionHash == transactionHash) = true)) = none :=
      fun p => List.find?_eq_none.2 fun t ht hpt => hfind t ht (of_decide_eq_true hpt).2
    rw [hnone, hnone]
    rfl
  | some info =>
    have hinfo : info ∈ cache.transactions := List.mem_of_find?_eq_some hfind
    have hhash : info.transactionHash = transactionHash := by simpa using List.find?_some hfind
    have huniq : ∀ (p : CachedTransactionInfo → Bool), ∀ t ∈ cache.transactions,
        decide (p t = true ∧ (t.transactionHash == transactionHash) = true) = true → t = info :=
      fun p t ht hpt => List.inj_on_of_nodup_map hnodup ht hinfo
        ((beq_iff_eq.1 (of_decide_eq_true hpt).2).trans hhash.symm)
    have hnone : ∀ (p : CachedTransactionInfo → Bool), p info = false →
        cache.transactions.find? (fun t => decide (p t = true ∧
          (t.transactionHash == transactionHash) = true)) = none :=
      fun p hp => List.find?_eq_none.2 fun t ht hpt => by
        rw [huniq p t ht hpt] at hpt
        simp [hp] at hpt
    by_cases hup : k ≤ info.blockIndex
    · rw [ListContainer.find?_eq_some_of_unique hinfo (by simp [hup, hhash]) (huniq _)]
      rfl
    · rw [hnone _ (by simpa using hup),
        ListContainer.find?_eq_some_of_unique hinfo (by simp [Nat.lt_of_not_le hup, hhash]) (huniq _)]
      rfl

section Extract

variable {ε β : Type} {invalid : ε} {pred : CachedTransactionInfo → PackedOutIndex → ℕ → Except ε β}
  {amount : UInt64}

theorem extractKeyOutputs_cons_none {globalIndexes : List ℕ}
    (h : cache.keyOutputsGlobalIndexes amount = none) :
    extractKeyOutputs invalid amount i pred globalIndexes (cache :: parents) =
      extractKeyOutputs invalid amount i pred globalIndexes parents := by
  rw [extractKeyOutputs, h]

theorem extractKeyOutputs_cons_some {globalIndexes : List ℕ} {entry : OutputGlobalIndexesForAmount}
    (h : cache.keyOutputsGlobalIndexes amount = some entry) (hi : cache.startIndex ≤ i) :
    extractKeyOutputs invalid amount i pred globalIndexes (cache :: parents) =
      (if (globalIndexes.takeWhile (· < entry.startIndex)).isEmpty then pure []
        else extractKeyOutputs invalid amount i pred (globalIndexes.takeWhile (· < entry.startIndex))
          parents) >>= fun fromParent =>
        (globalIndexes.dropWhile (· < entry.startIndex)).mapM
          (extractOwnOutput invalid pred cache entry) >>= fun mine => pure (fromParent ++ mine) := by
  rw [extractKeyOutputs, h]
  simp only [if_neg (Nat.not_lt.2 hi)]
  split <;> rfl

/-- A part that holds the transactions of an output's block finds the output's transaction as
the whole segment does. -/
theorem find?_filter_of_blockIndex {transactions : List CachedTransactionInfo}
    {keep : CachedTransactionInfo → Bool} {o : PackedOutIndex}
    (hkeep : ∀ t : CachedTransactionInfo, t.blockIndex = o.blockIndex → keep t = true) :
    (transactions.filter keep).find? (fun info => info.blockIndex == o.blockIndex &&
        info.transactionIndex == o.transactionIndex) =
      transactions.find? (fun info => info.blockIndex == o.blockIndex &&
        info.transactionIndex == o.transactionIndex) := by
  rw [List.find?_filter]
  congr 1
  funext t
  rw [Bool.eq_iff_iff]
  by_cases ht : t.blockIndex = o.blockIndex
  · simp [ht, hkeep t ht]
  · simp [ht]

/-- A part whose entry is a slice of the segment's entry, numbered from where the slice starts,
answers the indexes of the slice as the segment does, and refuses the others as it does when
the slice reaches that end of the entry. -/
theorem extractOwnOutput_slice {part : BlockchainCache} {entry slice : OutputGlobalIndexesForAmount}
    {before after : List PackedOutIndex} {globalIndex : ℕ}
    (hentry : entry.outputs = before ++ slice.outputs ++ after)
    (hstart : slice.startIndex = entry.startIndex + before.length)
    (hfind : ∀ o ∈ slice.outputs, part.transactions.find? (fun info =>
        info.blockIndex == o.blockIndex && info.transactionIndex == o.transactionIndex) =
      cache.transactions.find? (fun info => info.blockIndex == o.blockIndex &&
        info.transactionIndex == o.transactionIndex))
    (hlow : slice.startIndex ≤ globalIndex ∨ before = [])
    (hhigh : globalIndex < slice.startIndex + slice.outputs.length ∨ after = []) :
    extractOwnOutput invalid pred part slice globalIndex =
      extractOwnOutput invalid pred cache entry globalIndex := by
  have hlen : entry.outputs.length = before.length + slice.outputs.length + after.length := by
    simp [hentry, Nat.add_assoc]
  by_cases hin : slice.startIndex ≤ globalIndex ∧ globalIndex < slice.startIndex + slice.outputs.length
  · -- the index falls in the slice: both read the same output, and find its transaction
    obtain ⟨hlo, hhi⟩ := hin
    have hpos : globalIndex - slice.startIndex < slice.outputs.length := by omega
    have hget : entry.outputs[globalIndex - entry.startIndex]? =
        slice.outputs[globalIndex - slice.startIndex]? := by
      rw [hentry, List.append_assoc, List.getElem?_append_right (by omega),
        List.getElem?_append_left (by omega)]
      congr 1
      omega
    obtain ⟨o, ho⟩ : ∃ o, slice.outputs[globalIndex - slice.startIndex]? = some o :=
      ⟨_, List.getElem?_eq_getElem hpos⟩
    unfold extractOwnOutput
    rw [if_neg (by omega), if_neg (by omega), hget, ho]
    simp only
    rw [hfind o (List.mem_of_getElem? ho)]
  · -- outside the slice both refuse it
    have hpart : globalIndex < slice.startIndex ∨
        slice.outputs.length ≤ globalIndex - slice.startIndex := by omega
    have hwhole : globalIndex < entry.startIndex ∨
        entry.outputs.length ≤ globalIndex - entry.startIndex := by
      rcases hlow with hlow | hnil <;> rcases hhigh with hhigh | hnil' <;> simp_all <;> omega
    unfold extractOwnOutput
    rw [if_pos hpart, if_pos hwhole]

/-- The parent part of a lookup through the two parts: what the lower part hands on, then what
it answers, then what the upper part answers, is the lookup of the whole segment. -/
theorem extract_assemble {below middle above : List ℕ} {fromParent : Except ε (List β)}
    {lowerPart upperPart whole : ℕ → Except ε β}
    (hlower : ∀ g ∈ middle, lowerPart g = whole g) (hupper : ∀ g ∈ above, upperPart g = whole g) :
    ((if (below ++ middle).isEmpty then pure []
      else (if below.isEmpty then pure [] else fromParent) >>= fun fromParent =>
        middle.mapM lowerPart >>= fun mine => pure (fromParent ++ mine)) >>= fun fromLower =>
      above.mapM upperPart >>= fun mine => pure (fromLower ++ mine)) =
    ((if below.isEmpty then pure [] else fromParent) >>= fun fromParent =>
      (middle ++ above).mapM whole >>= fun mine => pure (fromParent ++ mine)) := by
  rw [ExceptRun.mapM_congr hlower, ExceptRun.mapM_congr hupper, List.mapM_append]
  by_cases hempty : (below ++ middle).isEmpty
  · obtain ⟨rfl, rfl⟩ : below = [] ∧ middle = [] := by simpa using hempty
    simp
  · rw [if_neg hempty]
    simp only [bind_assoc, pure_bind, List.append_assoc]

/-- From the split index on, a sorted list of global indexes is looked up through the two parts
as through the whole segment: the indexes the lower part gets are those below the moved
outputs, and it hands on to the parent those below its entry, as the segment did. -/
theorem extractKeyOutputs_split
    (hsorted : ∀ entry, cache.keyOutputsGlobalIndexes amount = some entry →
      entry.outputs.Pairwise fun o o' => o.blockIndex ≤ o'.blockIndex)
    (hne : ∀ entry, cache.keyOutputsGlobalIndexes amount = some entry → entry.outputs ≠ [])
    (hk : cache.startIndex < k) (hi : k ≤ i) {globalIndexes : List ℕ}
    (hindexes : globalIndexes.Pairwise (· ≤ ·)) :
    extractKeyOutputs invalid amount i pred globalIndexes
        ((cache.split cacheId newCacheId k).2 :: (cache.split cacheId newCacheId k).1 :: parents) =
      extractKeyOutputs invalid amount i pred globalIndexes (cache :: parents) := by
  have hupperEntry : (cache.split cacheId newCacheId k).2.keyOutputsGlobalIndexes amount =
      (cache.keyOutputsGlobalIndexes amount).bind (upperGlobalIndexes k) := rfl
  have hlowerEntry : (cache.split cacheId newCacheId k).1.keyOutputsGlobalIndexes amount =
      (cache.keyOutputsGlobalIndexes amount).bind (lowerGlobalIndexes k) := rfl
  cases hentry : cache.keyOutputsGlobalIndexes amount with
  | none =>
    rw [hentry, Option.bind_none] at hupperEntry hlowerEntry
    rw [extractKeyOutputs_cons_none hupperEntry, extractKeyOutputs_cons_none hlowerEntry,
      extractKeyOutputs_cons_none hentry]
  | some entry =>
    rw [hentry, Option.bind_some] at hupperEntry hlowerEntry
    have hstart : cache.startIndex ≤ i := by omega
    have hsplit := takeWhile_dropWhile_split (k := k) entry.outputs
    -- each part finds the transactions of the outputs it keeps
    have hfindLower : ∀ o ∈ entry.outputs.takeWhile (·.blockIndex < k),
        (cache.split cacheId newCacheId k).1.transactions.find? (fun info =>
          info.blockIndex == o.blockIndex && info.transactionIndex == o.transactionIndex) =
        cache.transactions.find? (fun info =>
          info.blockIndex == o.blockIndex && info.transactionIndex == o.transactionIndex) :=
      fun o ho => by
        rw [split_fst_transactions]
        exact find?_filter_of_blockIndex fun t ht => by
          simpa [ht] using blockIndex_lt_of_mem_takeWhile ho
    have hfindUpper : ∀ o ∈ entry.outputs.dropWhile (·.blockIndex < k),
        (cache.split cacheId newCacheId k).2.transactions.find? (fun info =>
          info.blockIndex == o.blockIndex && info.transactionIndex == o.transactionIndex) =
        cache.transactions.find? (fun info =>
          info.blockIndex == o.blockIndex && info.transactionIndex == o.transactionIndex) :=
      fun o ho => by
        rw [split_snd_transactions]
        exact find?_filter_of_blockIndex fun t ht => by
          simpa [ht] using ListContainer.le_of_mem_dropWhile (hsorted entry hentry) ho
    rw [extractKeyOutputs_cons_some hentry hstart]
    cases hupper : upperGlobalIndexes k entry with
    | none =>
      -- nothing moved: the lower part answers with the whole entry
      have hlower := lowerGlobalIndexes_of_upperGlobalIndexes_eq_none (hne entry hentry) hupper
      have hkept : entry.outputs.takeWhile (·.blockIndex < k) = entry.outputs := by
        have := congrArg OutputGlobalIndexesForAmount.outputs (lowerGlobalIndexes_eq_some hlower)
        exact this.symm
      rw [extractKeyOutputs_cons_none (hupperEntry.trans hupper),
        extractKeyOutputs_cons_some (hlowerEntry.trans hlower) hstart,
        ExceptRun.mapM_congr fun g _ => extractOwnOutput_slice
          (show entry.outputs = [] ++ entry.outputs ++ [] by simp) (by simp)
          (fun o ho => hfindLower o (hkept.symm ▸ ho)) (Or.inr rfl) (Or.inr rfl)]
    | some upper =>
      have hupper' := upperGlobalIndexes_eq_some hupper
      rw [extractKeyOutputs_cons_some (hupperEntry.trans hupper) (by simpa using hi)]
      cases hlower : lowerGlobalIndexes k entry with
      | none =>
        -- everything moved: the upper part answers with the whole entry
        have hnil := takeWhile_eq_nil_of_lowerGlobalIndexes_eq_none hlower
        have hustart : upper.startIndex = entry.startIndex := by simp [hupper', hnil]
        rw [extractKeyOutputs_cons_none (hlowerEntry.trans hlower), hustart,
          ExceptRun.mapM_congr fun g _ => extractOwnOutput_slice
            (show entry.outputs = [] ++ upper.outputs ++ [] by
              rw [hupper', List.nil_append, List.append_nil]
              conv_lhs => rw [hsplit, hnil, List.nil_append])
            (by simp [hustart])
            (fun o ho => hfindUpper o (by simpa [hupper'] using ho)) (Or.inr rfl) (Or.inr rfl)]
      | some lower =>
        -- the lower part answers the indexes between the two starts, the upper part the rest
        have hlower' := lowerGlobalIndexes_eq_some hlower
        have hle : lower.startIndex ≤ upper.startIndex := by simp [hupper', hlower']
        rw [extractKeyOutputs_cons_some (hlowerEntry.trans hlower) hstart,
          ListContainer.takeWhile_lt_takeWhile_lt _ hle]
        have hbelow : globalIndexes.takeWhile (· < upper.startIndex) =
            globalIndexes.takeWhile (· < lower.startIndex) ++
              (globalIndexes.takeWhile (· < upper.startIndex)).dropWhile (· < lower.startIndex) := by
          conv_lhs => rw [← List.takeWhile_append_dropWhile (p := (· < lower.startIndex))
            (l := globalIndexes.takeWhile (· < upper.startIndex))]
          rw [ListContainer.takeWhile_lt_takeWhile_lt _ hle]
        have hstartEq : lower.startIndex = entry.startIndex := by simp [hlower']
        rw [show (globalIndexes.takeWhile (· < upper.startIndex)).isEmpty =
            (globalIndexes.takeWhile (· < lower.startIndex) ++
              (globalIndexes.takeWhile (· < upper.startIndex)).dropWhile
                (· < lower.startIndex)).isEmpty by rw [← hbelow],
          ← hstartEq, ListContainer.dropWhile_lt_eq_append globalIndexes hle]
        refine extract_assemble (fun g hg => ?_) (fun g hg => ?_)
        · -- an index between the two starts is one of the outputs that stayed
          have hg' : g < upper.startIndex := by
            simpa using List.mem_takeWhile_imp ((List.dropWhile_suffix _).subset hg)
          refine extractOwnOutput_slice
            (show entry.outputs = [] ++ lower.outputs ++ entry.outputs.dropWhile (·.blockIndex < k) by
              rw [hlower', List.nil_append]
              exact hsplit)
            (by simp [hlower']) (fun o ho => hfindLower o ?_)
            (Or.inr rfl) (Or.inl ?_)
          · simpa [hlower'] using ho
          · simpa [hupper', hlower'] using hg'
        · -- an index from the upper start on is one of the moved outputs
          refine extractOwnOutput_slice
            (show entry.outputs = entry.outputs.takeWhile (·.blockIndex < k) ++ upper.outputs ++ [] by
              rw [hupper', List.append_nil]
              exact hsplit)
            (by simp [hupper'])
            (fun o ho => hfindUpper o (by simpa [hupper'] using ho))
            (Or.inl (ListContainer.le_of_mem_dropWhile hindexes hg)) (Or.inr rfl)

end Extract

/-- The payment ids of the segment are split between the two parts by where their transaction
went, so the two parts report the same hashes; the container is hashed, and the order of
equal keys is not fixed. -/
theorem getTransactionHashesByPaymentId_split (paymentId : Crypto.Hash) :
    (getTransactionHashesByPaymentId paymentId ((cache.split cacheId newCacheId k).2 ::
      (cache.split cacheId newCacheId k).1 :: parents)).Perm
      (getTransactionHashesByPaymentId paymentId (cache :: parents)) := by
  simp only [getTransactionHashesByPaymentId, split_fst_paymentIds, split_snd_paymentIds,
    List.append_assoc]
  refine List.Perm.append_left _ ?_
  rw [← List.map_append]
  refine List.Perm.map _ ?_
  -- the two parts are the pairs whose transaction stayed and those whose transaction moved
  let moved : PaymentIdTransactionHashPair → Bool := fun pair =>
    (cache.transactions.filter (k ≤ ·.blockIndex)).any (·.transactionHash == pair.transactionHash)
  rw [List.filter_comm (p := (·.paymentId == paymentId)) (fun pair => !moved pair),
    List.filter_comm (p := (·.paymentId == paymentId)) moved]
  exact List.perm_append_comm.trans (List.filter_append_perm moved _)

/-- Pushing the next block on the upper part starts from where pushing it on the whole segment
would: each amount's next global index is the same, and so are the transactions of the block. -/
theorem pushAgree_split {fresh : List Crypto.Hash} {blockIndex : ℕ} (hne : cache.EntriesNonempty)
    (hkb : k ≤ blockIndex) (hfresh : ∀ t ∈ cache.transactions, t.transactionHash ∉ fresh) :
    PushAgree fresh blockIndex ((cache.split cacheId newCacheId k).1 :: parents)
      (cache.split cacheId newCacheId k).2 parents cache := by
  refine ⟨fun amount => ?_, ?_, fun t ht _ => hfresh t (List.mem_filter.1 ht).1,
    fun t ht _ => hfresh t ht⟩
  · unfold nextGlobalIndex
    rw [split_snd_keyOutputsGlobalIndexes]
    cases hentry : cache.keyOutputsGlobalIndexes amount with
    | none => simp [getKeyOutputsCountForAmount, hentry]
    | some entry =>
      have hsplit := takeWhile_dropWhile_split (k := k) entry.outputs
      have hlen : entry.outputs.length = (entry.outputs.takeWhile (·.blockIndex < k)).length +
          (entry.outputs.dropWhile (·.blockIndex < k)).length := by
        conv_lhs => rw [hsplit]
        exact List.length_append
      simp only [Option.bind_some]
      cases hupper : upperGlobalIndexes k entry with
      | none =>
        -- nothing moved: the lower part counts every output of the entry
        have hall : ∀ o ∈ entry.outputs, decide (o.blockIndex < blockIndex) = true := fun o ho =>
          decide_eq_true (lt_of_lt_of_le (upperGlobalIndexes_eq_none_iff.1 hupper o ho) hkb)
        simp only [getKeyOutputsCountForAmount, split_fst_keyOutputsGlobalIndexes, hentry,
          Option.bind_some, lowerGlobalIndexes_of_upperGlobalIndexes_eq_none (hne amount entry hentry)
            hupper, List.takeWhile_eq_self_iff.2 hall]
      | some upper =>
        rw [upperGlobalIndexes_eq_some hupper]
        simp only
        omega
  · rw [split_snd_transactions, List.filter_filter]
    congr 1
    funext t
    by_cases ht : t.blockIndex = blockIndex
    · simp [ht, hkb]
    · simp [ht]

end FromSplitIndex

section Transparent

variable {primitives : Primitives} {parents : List BlockchainCache} {cache : BlockchainCache}
  {cacheId newCacheId k : ℕ}

theorem split_queries_agree (hreach : PushReachable primitives parents cache)
    (hlinked : Linked (cache :: parents)) (hk : cache.startIndex < k)
    (htop : k ≤ cache.getTopBlockIndex) :
    let lower := (cache.split cacheId newCacheId k).1
    let upper := (cache.split cacheId newCacheId k).2
    (∀ i, getBlockHash i (upper :: lower :: parents) = getBlockHash i (cache :: parents)) ∧
    (∀ i, getAlreadyGeneratedCoins i (upper :: lower :: parents) =
      getAlreadyGeneratedCoins i (cache :: parents)) ∧
    (∀ i, getAlreadyGeneratedTransactions i (upper :: lower :: parents) =
      getAlreadyGeneratedTransactions i (cache :: parents)) ∧
    (∀ count i useGenesis (pred : CachedBlockInfo → UInt64), i ≤ cache.getTopBlockIndex →
      getLastUnits count i useGenesis pred (upper :: lower :: parents) =
        getLastUnits count i useGenesis pred (cache :: parents)) ∧
    (∀ keyImage i, k ≤ i →
      checkIfSpent keyImage i (upper :: lower :: parents) = checkIfSpent keyImage i (cache :: parents)) ∧
    (∀ amount i, k ≤ i → getKeyOutputsCountForAmount amount i (upper :: lower :: parents) =
      getKeyOutputsCountForAmount amount i (cache :: parents)) ∧
    (∀ {ε β : Type} (invalid : ε) amount i
      (pred : CachedTransactionInfo → PackedOutIndex → ℕ → Except ε β) (globalIndexes : List ℕ),
      k ≤ i → globalIndexes.Pairwise (· ≤ ·) →
      extractKeyOutputs invalid amount i pred globalIndexes (upper :: lower :: parents) =
        extractKeyOutputs invalid amount i pred globalIndexes (cache :: parents)) ∧
    (∀ transactionHash, cache.getTransactionGlobalIndexes transactionHash =
      (upper.getTransactionGlobalIndexes transactionHash).or
        (lower.getTransactionGlobalIndexes transactionHash)) ∧
    (∀ paymentId, (getTransactionHashesByPaymentId paymentId (upper :: lower :: parents)).Perm
      (getTransactionHashesByPaymentId paymentId (cache :: parents))) ∧
    ∀ cachedBlock cachedTransactions validatorState blockSize generatedCoins blockDifficulty rawBlock,
      cachedBlock.getBlockIndex.toNat = cache.getTopBlockIndex + 1 →
      (∀ t ∈ primitives.toCachedTransaction cachedBlock.block.baseTransaction :: cachedTransactions,
        cache.hasTransaction t.transactionHash = false) →
      (upper.doPushBlock primitives (lower :: parents) cachedBlock cachedTransactions validatorState
          blockSize generatedCoins blockDifficulty rawBlock).transactions.filter
          (·.blockIndex = cachedBlock.getBlockIndex.toNat) =
        (cache.doPushBlock primitives parents cachedBlock cachedTransactions validatorState
          blockSize generatedCoins blockDifficulty rawBlock).transactions.filter
          (·.blockIndex = cachedBlock.getBlockIndex.toNat) := by
  intro lower upper
  have hinv := hreach.invariant
  have hlen : k < cache.startIndex + cache.blockInfos.length := by
    unfold getTopBlockIndex at htop
    omega
  refine ⟨getBlockHash_split hlinked hk hlen, getAlreadyGeneratedCoins_split hlinked hk hlen,
    getAlreadyGeneratedTransactions_split hlinked hk hlen, fun count i useGenesis pred hi => ?_,
    fun keyImage i hi => checkIfSpent_split hk hi keyImage,
    fun amount i hi => getKeyOutputsCountForAmount_split amount (hinv.entriesNonempty amount) hi,
    fun invalid amount i pred globalIndexes hi hindexes => extractKeyOutputs_split
      (fun entry hentry => (hinv.entriesSorted amount entry hentry).1) (hinv.entriesNonempty amount)
      hk hi hindexes,
    getTransactionGlobalIndexes_split hinv.hashesNodup, getTransactionHashesByPaymentId_split,
    fun cachedBlock cachedTransactions validatorState blockSize generatedCoins blockDifficulty
      rawBlock hindex hnew => ?_⟩
  · -- the window ends at a block the segment holds
    apply getLastUnits_split hlinked hk hlen
    rw [blockInfosOf_cons, List.length_append, hlinked.length_blockInfosOf]
    unfold getTopBlockIndex at hi
    omega
  · -- the block's transactions are new to the segment, so both pushes start agreeing
    have hfresh : ∀ t ∈ cache.transactions, t.transactionHash ∉
        (primitives.toCachedTransaction cachedBlock.block.baseTransaction :: cachedTransactions).map
          (·.transactionHash) := by
      intro t ht hmem
      obtain ⟨t', ht', hhash⟩ := List.mem_map.1 hmem
      have := hnew t' ht'
      simp only [hasTransaction, List.any_eq_false, beq_iff_eq] at this
      exact this t ht hhash.symm
    have hkb : k ≤ cachedBlock.getBlockIndex.toNat := by omega
    exact (PushAgree.doPushBlock rfl (fun t ht => List.mem_map_of_mem ht)
      (pushAgree_split hinv.entriesNonempty hkb hfresh)).transactions_eq

end Transparent

/-- A block at `blockIndex` whose base transaction pays one key output of amount `1`. -/
def oneOutputBlock (blockIndex : ℕ) : CachedBlock :=
  ⟨{ majorVersion := 1, minorVersion := 0, nonce := 0, timestamp := 0, previousBlockHash := ⟨0⟩,
      parentBlock := ⟨1⟩,
      baseTransaction :=
        { version := 1, unlockTime := UInt64.ofNat blockIndex,
          inputs := [.base ⟨UInt32.ofNat blockIndex⟩], outputs := [⟨1, .key ⟨⟨0⟩⟩⟩], extra := [],
          signatures := [] },
      transactionHashes := [] },
    ⟨BitVec.ofNat 256 blockIndex⟩⟩

/-- The root segment after blocks `0` and `1`, each paying one output of amount `1`. -/
def twoBlockSegment : BlockchainCache :=
  let primitives :=
    Primitives.trusting (fun tx => ⟨BitVec.ofNat 256 tx.unlockTime.toNat⟩) fun _ => none
  ((empty none 0).doPushBlock primitives [] (oneOutputBlock 0) [] ⟨∅⟩ 1 0 1 ⟨[], []⟩).doPushBlock
    primitives [] (oneOutputBlock 1) [] ⟨∅⟩ 1 0 1 ⟨[], []⟩

theorem split_queries_agree_twoBlockSegment :
    PushReachable
        (Primitives.trusting (fun tx => ⟨BitVec.ofNat 256 tx.unlockTime.toNat⟩) fun _ => none) []
        twoBlockSegment ∧
      Linked [twoBlockSegment] ∧ twoBlockSegment.startIndex < 1 ∧ 1 ≤ twoBlockSegment.getTopBlockIndex ∧
      getKeyOutputsCountForAmount 1 1 [(twoBlockSegment.split 0 1 1).2, (twoBlockSegment.split 0 1 1).1] =
        getKeyOutputsCountForAmount 1 1 [twoBlockSegment] := by
  have hreach : PushReachable
      (Primitives.trusting (fun tx => ⟨BitVec.ofNat 256 tx.unlockTime.toNat⟩) fun _ => none) []
      twoBlockSegment :=
    .push _ _ _ _ _ _ _ (.push _ _ _ _ _ _ _ (.empty none 0) rfl rfl) (by decide) (by decide)
  have hlinked : Linked [twoBlockSegment] := show twoBlockSegment.startIndex = 0 from rfl
  exact ⟨hreach, hlinked, by decide, by decide,
    (split_queries_agree hreach hlinked (by decide) (by decide)).2.2.2.2.2.1 1 1 le_rfl⟩

/-- Below the split index the upper part answers with the start of its own entry: after a split
at block `1`, the count of outputs of amount `1` before block `0` is `1` through the upper part
and `0` on the whole segment. -/
theorem split_keyOutputsCount_below_split_index :
    getKeyOutputsCountForAmount 1 0 [(twoBlockSegment.split 0 1 1).2, (twoBlockSegment.split 0 1 1).1] = 1 ∧
      getKeyOutputsCountForAmount 1 0 [twoBlockSegment] = 0 := by
  decide


end BlockchainCache

end CryptoNote
