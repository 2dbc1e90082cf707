import Traaitt.CryptoNoteCore.SegmentTree

/-! The blocks a node stores and the blocks it knows. An accepted block is stored once more than
before: a push appends it to a leaf, a fork to a new leaf, and the split before a fork only moves
blocks to a new segment, so no stored block is ever lost. The node also knows the block
afterwards, as `hasBlock` walks down from the leaves and the block sits in one. -/

namespace CryptoNote

namespace Core

open SegmentForest

open scoped List

/-- The hashes of the blocks each segment stores, by position. -/
def storedHashes (core : Core) : List (List Crypto.Hash) :=
  core.chainsStorage.map fun cache => cache.blockInfos.map (·.blockHash)

/-- The hashes of all stored blocks. -/
def blockHashes (core : Core) : List Crypto.Hash :=
  core.storedHashes.flatten

theorem getElem?_storedHashes {core : Core} {j : ℕ} {cache : BlockchainCache}
    (hcache : core.chainsStorage[j]? = some cache) :
    core.storedHashes[j]? = some (cache.blockInfos.map (·.blockHash)) := by
  rw [storedHashes, List.getElem?_map, hcache, Option.map_some]

theorem hasBlock_congr {core core' : Core} (hstorage : core'.chainsStorage = core.chainsStorage)
    (hleaves : core'.chainsLeaves = core.chainsLeaves) (blockHash : Crypto.Hash) :
    core'.hasBlock blockHash = core.hasBlock blockHash := by
  unfold hasBlock findSegmentContainingBlock findIndexInChain pathIds
  rw [hstorage, hleaves]

/-! ## The stored blocks under each store operation -/

theorem storedHashes_pushBlockOn {core : Core} {id : ℕ} {s : BlockchainCache}
    {cachedBlock : CachedBlock} {rawBlock : RawBlock} {validated : ValidatedBlock}
    (hs : core.chainsStorage[id]? = some s) (hnew : s.hasBlock cachedBlock.blockHash = false) :
    (core.pushBlockOn id cachedBlock rawBlock validated).storedHashes =
      core.storedHashes.set id (s.blockInfos.map (·.blockHash) ++ [cachedBlock.blockHash]) := by
  obtain ⟨parents, hseg⟩ := segments_eq_cons hs
  unfold pushBlockOn
  rw [hseg]
  simp only [storedHashes, setSegment, List.map_set, BlockchainCache.doPushBlock_blockHashes hnew]

/-- A split keeps the lower blocks in place and stores the upper ones at the end, whichever
segment it cuts. -/
theorem storedHashes_splitSegment {core : Core} {cacheId k : ℕ} {cache : BlockchainCache}
    (hs : core.chainsStorage[cacheId]? = some cache) :
    (core.splitSegment cacheId k).storedHashes =
      core.storedHashes.set cacheId
          ((cache.blockInfos.take (k - cache.startIndex)).map (·.blockHash)) ++
        [(cache.blockInfos.drop (k - cache.startIndex)).map (·.blockHash)] := by
  have hlower : (cache.split cacheId core.chainsStorage.length k).1.blockInfos.map (·.blockHash) =
      (cache.blockInfos.take (k - cache.startIndex)).map (·.blockHash) := rfl
  unfold splitSegment
  rw [hs]
  cases hp : cache.parent with
  | none =>
    simp only [hp, Option.isNone_none, if_true]
    dsimp only [setSegment]
    simp only [storedHashes, List.map_append, List.map_set, List.map_singleton]
    rfl
  | some p =>
    simp only [hp, Option.isNone_some, Bool.false_eq_true, if_false]
    dsimp only [setParent, setSegment]
    simp only [storedHashes, List.map_append, List.map_singleton]
    congr 1
    -- relinking the old children to the upper part keeps every segment's blocks
    refine List.ext_getElem? fun j => ?_
    rw [← hlower, ← List.map_set, List.getElem?_map, List.getElem?_mapIdx, List.getElem?_map,
      Option.map_map]
    congr 1
    funext segment
    simp only [Function.comp_apply]
    split_ifs <;> rfl

theorem blockHashes_pushBlockOn {core : Core} {id : ℕ} {s : BlockchainCache}
    {cachedBlock : CachedBlock} {rawBlock : RawBlock} {validated : ValidatedBlock}
    (hs : core.chainsStorage[id]? = some s) (hnew : s.hasBlock cachedBlock.blockHash = false) :
    (core.pushBlockOn id cachedBlock rawBlock validated).blockHashes ~
      core.blockHashes ++ [cachedBlock.blockHash] := by
  have hperm := ListContainer.perm_flatten_set (getElem?_storedHashes hs)
    (s.blockInfos.map (·.blockHash) ++ [cachedBlock.blockHash])
  rw [blockHashes, storedHashes_pushBlockOn hs hnew]
  -- the segment's old hashes stand on both sides
  refine (List.perm_append_right_iff (s.blockInfos.map (·.blockHash))).1 (hperm.trans ?_)
  rw [blockHashes, List.append_assoc]
  exact List.perm_append_comm.append_left _

theorem blockHashes_forkLeaf {core : Core} {parentId : ℕ} {ps : BlockchainCache}
    {cachedBlock : CachedBlock} {rawBlock : RawBlock} {validated : ValidatedBlock}
    (hps : core.chainsStorage[parentId]? = some ps) :
    (core.forkLeaf parentId cachedBlock rawBlock validated).blockHashes ~
      core.blockHashes ++ [cachedBlock.blockHash] := by
  obtain ⟨added, hfork, hstorage⟩ := forkLeaf_eq_pushBlockOn hps cachedBlock rawBlock validated
  rw [hfork]
  refine (blockHashes_pushBlockOn (getElem?_length_of_forkLeaf hstorage) rfl).trans
    (List.Perm.append_right _ ?_)
  -- adding a child and an empty segment stores no block
  have hstored : added.storedHashes =
      core.storedHashes.set parentId (ps.blockInfos.map (·.blockHash)) ++ [[]] := by
    rw [storedHashes, hstorage, List.map_append, List.map_set, List.map_singleton]
    rfl
  have hperm := ListContainer.perm_flatten_set (getElem?_storedHashes hps)
    (ps.blockInfos.map (·.blockHash))
  rw [blockHashes, hstored, List.flatten_append, List.flatten_singleton, List.append_nil]
  exact (List.perm_append_right_iff _).1 hperm

/-- A split only moves the blocks above the split point to the new upper segment. -/
theorem blockHashes_splitSegment {core : Core} {cacheId k : ℕ} {cache : BlockchainCache}
    (hs : core.chainsStorage[cacheId]? = some cache) :
    (core.splitSegment cacheId k).blockHashes ~ core.blockHashes := by
  have hperm := ListContainer.perm_flatten_set (getElem?_storedHashes hs)
    ((cache.blockInfos.take (k - cache.startIndex)).map (·.blockHash))
  rw [← List.take_append_drop (k - cache.startIndex) cache.blockInfos, List.map_append,
    List.take_append_drop, List.perm_iff_count] at hperm
  rw [blockHashes, blockHashes, storedHashes_splitSegment hs, List.flatten_append,
    List.flatten_singleton, List.perm_iff_count]
  -- the lower part's hashes stand on both sides
  intro a
  have hcount := hperm a
  simp only [List.count_append] at hcount ⊢
  omega

/-! ## The known blocks under each store operation -/

theorem hasBlock_pushBlockOn {core : Core} {id : ℕ} {s : BlockchainCache}
    {cachedBlock : CachedBlock} {rawBlock : RawBlock} {validated : ValidatedBlock}
    (hmem : id ∈ core.chainsLeaves) (hs : core.chainsStorage[id]? = some s)
    (hnew : s.hasBlock cachedBlock.blockHash = false) :
    (core.pushBlockOn id cachedBlock rawBlock validated).hasBlock cachedBlock.blockHash = true := by
  obtain ⟨pushed, hpushed, -, hhas⟩ := exists_getElem?_pushBlockOn hs hnew rawBlock validated
  refine hasBlock_of_mem_chainsLeaves ?_ hpushed hhas
  rw [pushBlockOn_chainsLeaves]
  exact hmem

/-- A fork makes the node know the block: the new leaf holds it. -/
theorem hasBlock_forkLeaf {core : Core} {parentId : ℕ} {ps : BlockchainCache}
    {cachedBlock : CachedBlock} {rawBlock : RawBlock} {validated : ValidatedBlock}
    (hps : core.chainsStorage[parentId]? = some ps) :
    (core.forkLeaf parentId cachedBlock rawBlock validated).hasBlock cachedBlock.blockHash =
      true := by
  have hleaves := chainsLeaves_forkLeaf core parentId cachedBlock rawBlock validated
  obtain ⟨added, hfork, hstorage⟩ := forkLeaf_eq_pushBlockOn hps cachedBlock rawBlock validated
  rw [hfork, pushBlockOn_chainsLeaves] at hleaves
  rw [hfork]
  refine hasBlock_pushBlockOn ?_ (getElem?_length_of_forkLeaf hstorage) rfl
  rw [hleaves]
  exact List.mem_append_right _ (List.mem_singleton_self _)

/-! ## Accepted blocks -/

theorem TreeInvariant.blockHashes_addBlock {core core' : Core} (h : core.TreeInvariant)
    {cachedBlock : CachedBlock} {rawBlock : RawBlock} {adjustedTime : UInt64}
    {code : AddBlockErrorCode}
    (hadd : core.addBlock cachedBlock rawBlock adjustedTime = .ok (code, core')) :
    core'.blockHashes ~ core.blockHashes ++ [cachedBlock.blockHash] := by
  obtain ⟨validated, cache, hvalid, hcache, hstep⟩ := addBlock_eq_ok hadd
  have hnew := h.hasBlock_eq_false_of_validation hvalid hcache
  cases hstep with
  | pushMain _ hleaf => exact blockHashes_pushBlockOn hcache (hnew hleaf)
  | pushAlternative _ hleaf => exact blockHashes_pushBlockOn hcache (hnew hleaf)
  | switch _ hleaf =>
    obtain ⟨pool, hpool⟩ := copyTransactionsToPool_eq _ core.mainChain adjustedTime
    rw [hpool]
    exact blockHashes_pushBlockOn hcache (hnew hleaf)
  | fork => exact blockHashes_forkLeaf hcache
  | splitFork htop =>
    -- the new leaf forks off the lower part, which stays where the segment was
    obtain ⟨-, lower, hlower, -⟩ := h.splitFork hvalid hcache htop
    obtain ⟨ps, hps, -⟩ := exists_of_getElem?_forest hlower
    exact (blockHashes_forkLeaf hps).trans ((blockHashes_splitSegment hcache).append_right _)

theorem TreeInvariant.hasBlock_addBlock {core core' : Core} (h : core.TreeInvariant)
    {cachedBlock : CachedBlock} {rawBlock : RawBlock} {adjustedTime : UInt64}
    {code : AddBlockErrorCode}
    (hadd : core.addBlock cachedBlock rawBlock adjustedTime = .ok (code, core')) :
    core'.hasBlock cachedBlock.blockHash = true := by
  obtain ⟨validated, cache, hvalid, hcache, hstep⟩ := addBlock_eq_ok hadd
  have hmem : cache.getChildCount = 0 → validated.cacheId ∈ core.chainsLeaves :=
    h.mem_chainsLeaves_of_findSegmentContainingBlock hvalid.findSegmentContainingBlock_eq hcache
  have hpushed := fun hleaf => exists_getElem?_pushBlockOn hcache
    (h.hasBlock_eq_false_of_validation hvalid hcache hleaf) rawBlock validated
  cases hstep with
  | pushMain _ hleaf =>
    obtain ⟨pushed, hpushed, -, hhas⟩ := hpushed hleaf
    refine hasBlock_of_mem_chainsLeaves ?_ hpushed hhas
    rw [checkAndRemoveInvalidPoolTransactions_chainsLeaves, updateBlockMedianSize_chainsLeaves,
      pushBlockOn_chainsLeaves]
    exact hmem hleaf
  | pushAlternative _ hleaf =>
    obtain ⟨pushed, hpushed, -, hhas⟩ := hpushed hleaf
    refine hasBlock_of_mem_chainsLeaves ?_ hpushed hhas
    rw [pushBlockOn_chainsLeaves]
    exact hmem hleaf
  | switch _ hleaf =>
    obtain ⟨pushed, hpushed, -, hhas⟩ := hpushed hleaf
    obtain ⟨pool, hpool⟩ := copyTransactionsToPool_eq _ core.mainChain adjustedTime
    rw [hpool]
    exact hasBlock_of_mem_chainsLeaves ((promote_perm (hmem hleaf)).mem_iff.2 (hmem hleaf))
      hpushed hhas
  | fork => exact (hasBlock_congr rfl rfl _).trans (hasBlock_forkLeaf hcache)
  | splitFork htop =>
    obtain ⟨-, lower, hlower, -⟩ := h.splitFork hvalid hcache htop
    obtain ⟨ps, hps, -⟩ := exists_of_getElem?_forest hlower
    exact (hasBlock_congr rfl rfl _).trans (hasBlock_forkLeaf hps)

/-- An accepted block was unknown to the node and is known to it afterwards, and it is stored
once more while every block stored before stays stored. -/
theorem addBlock_stores_new_block {core core' : Core} (h : core.Reachable)
    {cachedBlock : CachedBlock} {rawBlock : RawBlock} {adjustedTime : UInt64}
    {code : AddBlockErrorCode}
    (hadd : core.addBlock cachedBlock rawBlock adjustedTime = .ok (code, core')) :
    core.hasBlock cachedBlock.blockHash = false ∧ core'.hasBlock cachedBlock.blockHash = true ∧
      core'.blockHashes ~ core.blockHashes ++ [cachedBlock.blockHash] := by
  have hinv := reachable_treeInvariant h
  obtain ⟨validated, cache, hvalid, -, -⟩ := addBlock_eq_ok hadd
  exact ⟨hvalid.hasBlock_eq_false, hinv.hasBlock_addBlock hadd, hinv.blockHashes_addBlock hadd⟩

theorem addBlock_stores_new_block_altBlockTwo :
    ∃ core core', (init zoneCurrency fileCheckpoints zonePrimitives).addBlocks forkRun = .ok core ∧
      core.addBlock altBlockTwo ⟨[], []⟩ 10 = .ok (.ADDED_TO_ALTERNATIVE, core') ∧
      core.hasBlock altBlockTwo.blockHash = false ∧ core'.hasBlock altBlockTwo.blockHash = true ∧
      core'.blockHashes ~ core.blockHashes ++ [altBlockTwo.blockHash] := by
  obtain ⟨core, core', hrun, hadd⟩ : ∃ core core',
      (init zoneCurrency fileCheckpoints zonePrimitives).addBlocks forkRun = .ok core ∧
        core.addBlock altBlockTwo ⟨[], []⟩ 10 = .ok (.ADDED_TO_ALTERNATIVE, core') :=
    ⟨_, _, rfl, rfl⟩
  exact ⟨core, core', hrun, hadd,
    addBlock_stores_new_block ((Reachable.init _ _ _).addBlocks hrun) hadd⟩

end Core

end CryptoNote
