import Traaitt.CryptoNoteCore.AddBlock
import Traaitt.CryptoNoteCore.PoolAdmission
import Traaitt.CryptoNoteCore.Push
import Traaitt.CryptoNoteCore.Split
import Traaitt.Library.SegmentForest

/-! The segment tree of `Core` as a segment forest: each segment of `chainsStorage` gives its
parent, its children, its first block index and its number of blocks. Each branch of `addBlock`
changes that forest by one operation of `SegmentForest`: a push on a leaf grows it, a fork adds a
leaf under a segment with children, a split cuts a segment in two before a fork, and a switch
of the main chain reorders the leaves. The root is a `DatabaseBlockchainCache`, whose split
keeps its children, so a split of the root below an earlier fork leaves the upper part under no
leaf. Still, in every state reached from `init` by `addBlock` and `addTransactionToPool`, the
parent and child links agree, every segment holds blocks above its parent's, the segments of
`chainsLeaves` have no children and are listed once each, and `mainChainSet` is the main leaf
with its ancestors. -/

namespace CryptoNote

open SegmentForest

namespace BlockchainCache

/-- What the tree sees of a segment. -/
def shape (cache : BlockchainCache) : Segment :=
  ⟨cache.parent, cache.children, cache.startIndex, cache.blockInfos.length⟩

theorem shape_doPushBlock {primitives : Primitives} {parents : List BlockchainCache}
    {cache : BlockchainCache} {cachedBlock : CachedBlock}
    {cachedTransactions : List CachedTransaction} {validatorState : TransactionValidatorState}
    {blockSize : ℕ} {generatedCoins blockDifficulty : UInt64} {rawBlock : RawBlock}
    (hnew : cache.hasBlock cachedBlock.blockHash = false) :
    (cache.doPushBlock primitives parents cachedBlock cachedTransactions validatorState blockSize
      generatedCoins blockDifficulty rawBlock).shape =
      { cache.shape with count := cache.shape.count + 1 } := by
  simp only [shape, doPushBlock_parent, doPushBlock_children, doPushBlock_startIndex,
    doPushBlock_blockInfos_length hnew]

theorem hasBlock_doPushBlock {primitives : Primitives} {parents : List BlockchainCache}
    {cache : BlockchainCache} {cachedBlock : CachedBlock}
    {cachedTransactions : List CachedTransaction} {validatorState : TransactionValidatorState}
    {blockSize : ℕ} {generatedCoins blockDifficulty : UInt64} {rawBlock : RawBlock}
    (hnew : cache.hasBlock cachedBlock.blockHash = false) :
    (cache.doPushBlock primitives parents cachedBlock cachedTransactions validatorState blockSize
      generatedCoins blockDifficulty rawBlock).hasBlock cachedBlock.blockHash = true := by
  have hany : ∀ infos : List CachedBlockInfo, infos.any (·.blockHash == cachedBlock.blockHash) =
      (infos.map (·.blockHash)).any (· == cachedBlock.blockHash) := fun infos => by
    rw [List.any_map]
    rfl
  rw [hasBlock, hany, doPushBlock_blockHashes hnew, List.any_append]
  simp

theorem getBlockIndex_eq_ok {cache : BlockchainCache} {blockHash : Crypto.Hash} {blockIndex : ℕ}
    (h : cache.getBlockIndex blockHash = .ok blockIndex) :
    cache.startIndex ≤ blockIndex ∧ blockIndex < cache.startIndex + cache.blockInfos.length := by
  unfold getBlockIndex at h
  cases hfind : cache.blockInfos.findIdx? (·.blockHash == blockHash) with
  | none =>
    rw [hfind] at h
    cases h
  | some i =>
    rw [hfind] at h
    cases h
    have hi := (List.findIdx?_eq_some_iff_getElem.1 hfind).1
    omega

end BlockchainCache

namespace Core

/-- The segments' shapes, by position. -/
def forest (core : Core) : List Segment :=
  core.chainsStorage.map BlockchainCache.shape

theorem getElem?_forest (core : Core) (j : ℕ) :
    core.forest[j]? = core.chainsStorage[j]?.map BlockchainCache.shape :=
  List.getElem?_map

theorem length_forest (core : Core) : core.forest.length = core.chainsStorage.length :=
  List.length_map _

theorem getElem?_forest_of_getElem? {core : Core} {j : ℕ} {cache : BlockchainCache}
    (hcache : core.chainsStorage[j]? = some cache) : core.forest[j]? = some cache.shape := by
  rw [getElem?_forest, hcache, Option.map_some]

theorem exists_of_getElem?_forest {core : Core} {j : ℕ} {s : Segment}
    (hs : core.forest[j]? = some s) :
    ∃ cache, core.chainsStorage[j]? = some cache ∧ cache.shape = s :=
  Option.map_eq_some_iff.1 ((getElem?_forest core j).symm.trans hs)

/-- A segment's ancestry reads only the parents and first block indexes. -/
theorem pathIds_eq (core : Core) (id : ℕ) :
    core.pathIds id = ParentStore.path Segment.parent Segment.start core.forest id := by
  refine (ParentStore.path_eq_of_map_eq ?_ id).symm
  rw [forest, List.map_map]
  rfl

/-- What every reachable state keeps: a well-formed forest whose main set is the main leaf and
its ancestors. -/
structure TreeInvariant (core : Core) : Prop where
  wellFormed : WellFormed core.forest core.chainsLeaves
  mainChainSet_eq : core.mainChainSet = (core.pathIds core.mainChain).toFinset

/-- The invariant only reads the store, the leaves and the main set. -/
theorem TreeInvariant.congr {core core' : Core} (h : core.TreeInvariant)
    (hstorage : core'.chainsStorage = core.chainsStorage)
    (hleaves : core'.chainsLeaves = core.chainsLeaves)
    (hmain : core'.mainChainSet = core.mainChainSet) : core'.TreeInvariant := by
  have hforest : core'.forest = core.forest := by rw [forest, forest, hstorage]
  have hpath : core'.pathIds = core.pathIds := by
    funext id
    rw [pathIds, pathIds, hstorage]
  refine ⟨hforest ▸ hleaves ▸ h.wellFormed, ?_⟩
  rw [hmain, h.mainChainSet_eq, hpath, mainChain, mainChain, hleaves]

theorem TreeInvariant.updateMainChainSet {core : Core}
    (h : WellFormed core.forest core.chainsLeaves) : core.updateMainChainSet.TreeInvariant :=
  ⟨h, rfl⟩

/-! ## The store operations as forest operations -/

theorem segments_eq_cons {core : Core} {id : ℕ} {s : BlockchainCache}
    (hs : core.chainsStorage[id]? = some s) : ∃ parents, core.segments id = s :: parents := by
  obtain ⟨l, hl⟩ : ∃ l, core.pathIds id = id :: l := ParentStore.head_path hs
  refine ⟨l.filterMap (core.chainsStorage[·]?), ?_⟩
  rw [segments, hl, List.filterMap_cons, hs]

theorem pushBlockOn_mainChainSet (core : Core) (id : ℕ) (cachedBlock : CachedBlock)
    (rawBlock : RawBlock) (validated : ValidatedBlock) :
    (core.pushBlockOn id cachedBlock rawBlock validated).mainChainSet = core.mainChainSet := by
  unfold pushBlockOn
  split <;> rfl

theorem forest_pushBlockOn {core : Core} {id : ℕ} {s : BlockchainCache}
    {cachedBlock : CachedBlock} {rawBlock : RawBlock} {validated : ValidatedBlock}
    (hs : core.chainsStorage[id]? = some s) (hnew : s.hasBlock cachedBlock.blockHash = false) :
    (core.pushBlockOn id cachedBlock rawBlock validated).forest = extend core.forest id := by
  obtain ⟨parents, hseg⟩ := segments_eq_cons hs
  unfold pushBlockOn
  rw [hseg]
  simp only [forest, setSegment, List.map_set, extend, List.modify_eq_set_getElem?,
    List.getElem?_map, hs, Option.map_some, Option.map_eq_map, Option.getD_some,
    BlockchainCache.shape_doPushBlock hnew]

theorem forkLeaf_eq_pushBlockOn {core : Core} {parentId : ℕ} {ps : BlockchainCache}
    (hps : core.chainsStorage[parentId]? = some ps) (cachedBlock : CachedBlock)
    (rawBlock : RawBlock) (validated : ValidatedBlock) :
    ∃ added : Core, core.forkLeaf parentId cachedBlock rawBlock validated =
        added.pushBlockOn core.chainsStorage.length cachedBlock rawBlock validated ∧
      added.chainsStorage = core.chainsStorage.set parentId (ps.addChild core.chainsStorage.length) ++
        [BlockchainCache.empty (some parentId) (validated.previousBlockIndex + 1)] := by
  refine ⟨{ core.setSegment parentId (ps.addChild core.chainsStorage.length) with
    chainsStorage := core.chainsStorage.set parentId (ps.addChild core.chainsStorage.length) ++
      [BlockchainCache.empty (some parentId) (validated.previousBlockIndex + 1)]
    chainsLeaves := core.chainsLeaves ++ [core.chainsStorage.length] }, ?_, rfl⟩
  simp only [forkLeaf, hps]
  rfl

theorem getElem?_length_of_forkLeaf {core added : Core} {parentId : ℕ} {ps : BlockchainCache}
    {startIndex : ℕ} (hstorage : added.chainsStorage =
      core.chainsStorage.set parentId (ps.addChild core.chainsStorage.length) ++
        [BlockchainCache.empty (some parentId) startIndex]) :
    added.chainsStorage[core.chainsStorage.length]? =
      some (BlockchainCache.empty (some parentId) startIndex) := by
  have hlen : (core.chainsStorage.set parentId (ps.addChild core.chainsStorage.length)).length =
      core.chainsStorage.length := List.length_set
  rw [hstorage, List.getElem?_append_right hlen.le, hlen, Nat.sub_self]
  rfl

theorem forest_forkLeaf {core : Core} {parentId : ℕ} {ps : BlockchainCache}
    {cachedBlock : CachedBlock} {rawBlock : RawBlock} {validated : ValidatedBlock}
    (hps : core.chainsStorage[parentId]? = some ps) :
    (core.forkLeaf parentId cachedBlock rawBlock validated).forest =
      fork core.forest parentId (validated.previousBlockIndex + 1) := by
  obtain ⟨added, hfork, hstorage⟩ := forkLeaf_eq_pushBlockOn hps cachedBlock rawBlock validated
  have hlen : (core.chainsStorage.set parentId (ps.addChild core.chainsStorage.length)).length =
      core.chainsStorage.length := List.length_set
  have hmodify : core.forest.modify parentId
      (fun s => { s with children := s.children ++ [core.forest.length] }) =
      (core.chainsStorage.set parentId (ps.addChild core.chainsStorage.length)).map
        BlockchainCache.shape := by
    rw [List.modify_eq_set_getElem?, getElem?_forest, hps, Option.map_some, Option.map_eq_map,
      Option.map_some, Option.getD_some, List.map_set, length_forest]
    rfl
  rw [hfork, forest_pushBlockOn (getElem?_length_of_forkLeaf hstorage) rfl, fork, hmodify, forest,
    hstorage, List.map_append, List.map_singleton]
  generalize core.chainsStorage.set parentId (ps.addChild core.chainsStorage.length) = stored
    at hlen ⊢
  rw [← hlen, ← List.length_map (f := BlockchainCache.shape), extend_append_length]
  rfl

theorem chainsLeaves_forkLeaf (core : Core) (parentId : ℕ) (cachedBlock : CachedBlock)
    (rawBlock : RawBlock) (validated : ValidatedBlock) :
    (core.forkLeaf parentId cachedBlock rawBlock validated).chainsLeaves =
      core.chainsLeaves ++ [core.chainsStorage.length] := by
  unfold forkLeaf
  split <;> exact pushBlockOn_chainsLeaves _ _ _ _ _

/-- The split of a segment with a parent keeps the lower part in place, stores the upper part at
the end and points the old children at it. -/
theorem forest_splitSegment_of_parent_some {core : Core} {cacheId k p : ℕ}
    {cache : BlockchainCache} (hs : core.chainsStorage[cacheId]? = some cache)
    (hp : cache.parent = some p) :
    (core.splitSegment cacheId k).forest = splitAt core.forest cacheId k := by
  have hshape : core.forest[cacheId]? = some cache.shape :=
    getElem?_forest_of_getElem? hs
  have hlower : (cache.split cacheId core.chainsStorage.length k).1.shape =
      { cache.shape with
        children := [core.chainsStorage.length]
        count := min (k - cache.shape.start) cache.shape.count } := by
    simp only [BlockchainCache.shape, BlockchainCache.split_fst_startIndex,
      BlockchainCache.split_fst_blockInfos, List.length_take]
    rfl
  unfold splitSegment splitAt
  rw [hs, hshape]
  simp only [hp, Option.isNone_some, Bool.false_eq_true, if_false]
  dsimp only [setParent, setSegment]
  rw [forest, List.map_append, length_forest]
  congr 1
  · -- the relinking commutes with taking shapes
    refine List.ext_getElem? fun j => ?_
    rw [List.getElem?_map, List.getElem?_mapIdx, List.getElem?_mapIdx, forest, ← hlower,
      ← List.map_set, List.getElem?_map, Option.map_map, Option.map_map]
    cases (core.chainsStorage.set cacheId (cache.split cacheId core.chainsStorage.length k).1)[j]?
    · rfl
    · simp only [Option.map_some, Function.comp_apply]
      -- the upper part's children are the segment's own
      by_cases hj : j ∈ cache.children
      · rw [if_pos hj, if_pos (show j ∈ cache.shape.children from hj)]
        rfl
      · rw [if_neg hj, if_neg (show j ∉ cache.shape.children from hj)]
  · simp only [List.map_cons, List.map_nil, BlockchainCache.shape,
      BlockchainCache.split_snd_blockInfos, List.length_drop]
    rfl

/-- The split of the root, the database segment, keeps its children and adds the upper part to
them. -/
theorem forest_splitSegment_of_parent_none {core : Core} {cacheId k : ℕ}
    {cache : BlockchainCache} (hs : core.chainsStorage[cacheId]? = some cache)
    (hp : cache.parent = none) :
    (core.splitSegment cacheId k).forest = splitKeep core.forest cacheId k := by
  have hshape : core.forest[cacheId]? = some cache.shape :=
    getElem?_forest_of_getElem? hs
  unfold splitSegment splitKeep
  rw [hs, hshape]
  simp only [hp, Option.isNone_none, if_true]
  dsimp only [setSegment]
  rw [forest, List.map_append, List.map_set, length_forest]
  simp only [List.map_cons, List.map_nil, BlockchainCache.shape, BlockchainCache.splitDatabase,
    BlockchainCache.split_fst_startIndex, BlockchainCache.split_fst_blockInfos,
    BlockchainCache.split_snd_blockInfos, List.length_take, List.length_drop]
  rfl

theorem chainsLeaves_splitSegment_of_parent_some {core : Core} {cacheId k p : ℕ}
    {cache : BlockchainCache} (hs : core.chainsStorage[cacheId]? = some cache)
    (hp : cache.parent = some p) :
    (core.splitSegment cacheId k).chainsLeaves =
      splitLeaves core.forest core.chainsLeaves cacheId := by
  have hshape : core.forest[cacheId]? = some cache.shape :=
    getElem?_forest_of_getElem? hs
  unfold splitSegment splitLeaves
  rw [hs, hshape]
  simp only [hp, Option.isNone_some, Bool.false_eq_true, if_false, BlockchainCache.getChildCount,
    List.length_eq_zero_iff, length_forest]
  rfl

/-- A split of the root relabels it among the leaves, and no leaf changes when the root is not
one. -/
theorem chainsLeaves_splitSegment_of_parent_none {core : Core} {cacheId k : ℕ}
    {cache : BlockchainCache} (hs : core.chainsStorage[cacheId]? = some cache)
    (hp : cache.parent = none) :
    (core.splitSegment cacheId k).chainsLeaves =
      relabelLeaf core.chainsLeaves cacheId core.forest.length := by
  unfold splitSegment
  rw [hs]
  simp only [hp, Option.isNone_none, if_true, length_forest]
  rfl

/-- The segment a block is pushed on: one block more, the new block among them. -/
theorem exists_getElem?_pushBlockOn {core : Core} {id : ℕ} {s : BlockchainCache}
    {cachedBlock : CachedBlock} (hs : core.chainsStorage[id]? = some s)
    (hnew : s.hasBlock cachedBlock.blockHash = false) (rawBlock : RawBlock)
    (validated : ValidatedBlock) :
    ∃ pushed, (core.pushBlockOn id cachedBlock rawBlock validated).chainsStorage[id]? = some pushed ∧
      pushed.shape = { s.shape with count := s.shape.count + 1 } ∧
      pushed.hasBlock cachedBlock.blockHash = true := by
  obtain ⟨parents, hseg⟩ := segments_eq_cons hs
  refine ⟨s.doPushBlock core.primitives parents cachedBlock validated.transactions
    validated.validatorState validated.cumulativeBlockSize validated.emissionChange
    validated.currentDifficulty rawBlock, ?_, BlockchainCache.shape_doPushBlock hnew,
    BlockchainCache.hasBlock_doPushBlock hnew⟩
  unfold pushBlockOn
  rw [hseg]
  exact List.getElem?_set_self (List.getElem?_eq_some_iff.1 hs).1

/-! ## One step of the node keeps the invariant -/

theorem exists_mem_pathIds_of_findSegmentContainingBlock {core : Core} {blockHash : Crypto.Hash}
    {j : ℕ} (h : core.findSegmentContainingBlock blockHash = some j) :
    ∃ leaf ∈ core.chainsLeaves, j ∈ core.pathIds leaf := by
  obtain ⟨leaf, hleaf, hfind⟩ := List.exists_of_findSome?_eq_some h
  exact ⟨leaf, hleaf, List.mem_of_find?_eq_some hfind⟩

/-- A segment without children that the search for a block returns is a leaf: no other segment
without children lies on a leaf's walk down. -/
theorem TreeInvariant.mem_chainsLeaves_of_findSegmentContainingBlock {core : Core}
    (h : core.TreeInvariant) {blockHash : Crypto.Hash} {j : ℕ} {s : BlockchainCache}
    (hfind : core.findSegmentContainingBlock blockHash = some j)
    (hs : core.chainsStorage[j]? = some s) (hleaf : s.getChildCount = 0) :
    j ∈ core.chainsLeaves := by
  obtain ⟨leaf, hmem, hj⟩ := exists_mem_pathIds_of_findSegmentContainingBlock hfind
  rw [pathIds_eq] at hj
  obtain rfl := h.wellFormed.eq_of_mem_path (getElem?_forest_of_getElem? hs)
    (List.length_eq_zero_iff.1 hleaf) hj
  exact hmem

/-- A block held by a leaf segment is known to the core: the search from that leaf finds it in
the leaf itself. -/
theorem hasBlock_of_mem_chainsLeaves {core : Core} {leaf : ℕ} {cache : BlockchainCache}
    {blockHash : Crypto.Hash} (hleaf : leaf ∈ core.chainsLeaves)
    (hcache : core.chainsStorage[leaf]? = some cache) (hhas : cache.hasBlock blockHash = true) :
    core.hasBlock blockHash = true := by
  obtain ⟨l, hl⟩ : ∃ l, core.pathIds leaf = leaf :: l := ParentStore.head_path hcache
  have hfind : core.findIndexInChain leaf blockHash = some leaf := by
    rw [findIndexInChain, hl, List.find?_cons_of_pos]
    rw [hcache, Option.any_some]
    exact hhas
  rw [hasBlock, findSegmentContainingBlock, List.findSome?_isSome_iff]
  exact ⟨leaf, hleaf, by rw [hfind]; rfl⟩

theorem hasBlock_eq_false_of_mem_chainsLeaves {core : Core} {leaf : ℕ} {cache : BlockchainCache}
    {blockHash : Crypto.Hash} (hleaf : leaf ∈ core.chainsLeaves)
    (hcache : core.chainsStorage[leaf]? = some cache) (hnew : core.hasBlock blockHash = false) :
    cache.hasBlock blockHash = false :=
  Bool.eq_false_iff.2 fun hhas =>
    Bool.false_ne_true (hnew.symm.trans (hasBlock_of_mem_chainsLeaves hleaf hcache hhas))

theorem TreeInvariant.pushBlockOn {core : Core} (h : core.TreeInvariant) {id : ℕ}
    {s : BlockchainCache} {cachedBlock : CachedBlock} {rawBlock : RawBlock}
    {validated : ValidatedBlock} (hs : core.chainsStorage[id]? = some s)
    (hleaf : s.getChildCount = 0) (hmem : id ∈ core.chainsLeaves)
    (hnew : core.hasBlock cachedBlock.blockHash = false) :
    (core.pushBlockOn id cachedBlock rawBlock validated).TreeInvariant := by
  have hforest : (core.pushBlockOn id cachedBlock rawBlock validated).forest =
      extend core.forest id :=
    forest_pushBlockOn hs (hasBlock_eq_false_of_mem_chainsLeaves hmem hs hnew)
  constructor
  · rw [hforest, pushBlockOn_chainsLeaves]
    exact h.wellFormed.extend (getElem?_forest_of_getElem? hs) (List.length_eq_zero_iff.1 hleaf)
  · rw [pushBlockOn_mainChainSet, pushBlockOn_mainChain, h.mainChainSet_eq, pathIds_eq, pathIds_eq,
      hforest, path_extend]

/-- A split of a segment inside its heights: the forest stays well formed, and the lower part,
where the segment was, has children and ends right below the split index. -/
theorem TreeInvariant.splitSegment {core : Core} (h : core.TreeInvariant) {cacheId k : ℕ}
    {cache : BlockchainCache} (hs : core.chainsStorage[cacheId]? = some cache)
    (hk : cache.startIndex < k) (hk' : k < cache.startIndex + cache.blockInfos.length) :
    WellFormed (core.splitSegment cacheId k).forest (core.splitSegment cacheId k).chainsLeaves ∧
      ∃ lower, (core.splitSegment cacheId k).forest[cacheId]? = some lower ∧
        lower.children ≠ [] ∧ lower.start + lower.count = k := by
  have hshape : core.forest[cacheId]? = some cache.shape :=
    getElem?_forest_of_getElem? hs
  have hi : cacheId ≠ core.forest.length := Nat.ne_of_lt (List.getElem?_eq_some_iff.1 hshape).1
  have hend : cache.startIndex + min (k - cache.startIndex) cache.blockInfos.length = k := by
    omega
  cases hp : cache.parent with
  | none =>
    rw [forest_splitSegment_of_parent_none hs hp, chainsLeaves_splitSegment_of_parent_none hs hp,
      getElem?_splitKeep hshape, if_neg hi, if_pos rfl]
    exact ⟨h.wellFormed.splitKeep hshape hk hk', _, rfl, by simp, hend⟩
  | some p =>
    rw [forest_splitSegment_of_parent_some hs hp, chainsLeaves_splitSegment_of_parent_some hs hp,
      getElem?_splitAt hshape (h.wellFormed.not_mem_children_self hshape), if_neg hi, if_pos rfl]
    exact ⟨h.wellFormed.splitAt hshape hk hk', _, rfl, List.cons_ne_nil _ _, hend⟩

theorem AddedBlockValidation.previousBlockIndex_bounds {core : Core} {cachedBlock : CachedBlock}
    {rawBlock : RawBlock} {adjustedTime : UInt64} {validated : ValidatedBlock}
    {cache : BlockchainCache}
    (hvalid : AddedBlockValidation core cachedBlock rawBlock adjustedTime validated)
    (hcache : core.chainsStorage[validated.cacheId]? = some cache) :
    cache.startIndex ≤ validated.previousBlockIndex ∧
      validated.previousBlockIndex < cache.startIndex + cache.blockInfos.length := by
  obtain ⟨cache', hcache', hindex⟩ := hvalid.getBlockIndex_eq
  obtain rfl : cache = cache' := Option.some.inj (hcache.symm.trans hcache')
  exact BlockchainCache.getBlockIndex_eq_ok hindex

/-- A block pushed on a segment without children is new to it: the segment is a leaf, and the
node does not know the block. -/
theorem TreeInvariant.hasBlock_eq_false_of_validation {core : Core} (h : core.TreeInvariant)
    {cachedBlock : CachedBlock} {rawBlock : RawBlock} {adjustedTime : UInt64}
    {validated : ValidatedBlock} {cache : BlockchainCache}
    (hvalid : AddedBlockValidation core cachedBlock rawBlock adjustedTime validated)
    (hcache : core.chainsStorage[validated.cacheId]? = some cache) (hleaf : cache.getChildCount = 0) :
    cache.hasBlock cachedBlock.blockHash = false :=
  hasBlock_eq_false_of_mem_chainsLeaves (h.mem_chainsLeaves_of_findSegmentContainingBlock
    hvalid.findSegmentContainingBlock_eq hcache hleaf) hcache hvalid.hasBlock_eq_false

theorem TreeInvariant.splitFork {core : Core} (h : core.TreeInvariant) {cachedBlock : CachedBlock}
    {rawBlock : RawBlock} {adjustedTime : UInt64} {validated : ValidatedBlock}
    {cache : BlockchainCache}
    (hvalid : AddedBlockValidation core cachedBlock rawBlock adjustedTime validated)
    (hcache : core.chainsStorage[validated.cacheId]? = some cache)
    (htop : cache.getTopBlockIndex ≠ validated.previousBlockIndex) :
    WellFormed (core.splitSegment validated.cacheId (validated.previousBlockIndex + 1)).forest
        (core.splitSegment validated.cacheId (validated.previousBlockIndex + 1)).chainsLeaves ∧
      ∃ lower, (core.splitSegment validated.cacheId
          (validated.previousBlockIndex + 1)).forest[validated.cacheId]? = some lower ∧
        lower.children ≠ [] ∧ lower.start + lower.count = validated.previousBlockIndex + 1 := by
  have hbounds := hvalid.previousBlockIndex_bounds hcache
  rw [BlockchainCache.getTopBlockIndex] at htop
  exact h.splitSegment hcache (by omega) (by omega)

/-- Every accepted block keeps the invariant: each branch of `addBlock` is one forest operation,
and the pool and median updates after it leave the tree alone. -/
theorem TreeInvariant.addBlock {core core' : Core} (h : core.TreeInvariant)
    {cachedBlock : CachedBlock} {rawBlock : RawBlock} {adjustedTime : UInt64}
    {code : AddBlockErrorCode}
    (hadd : core.addBlock cachedBlock rawBlock adjustedTime = .ok (code, core')) :
    core'.TreeInvariant := by
  obtain ⟨validated, cache, hvalid, hcache, hstep⟩ := addBlock_eq_ok hadd
  have hshape : core.forest[validated.cacheId]? = some cache.shape :=
    getElem?_forest_of_getElem? hcache
  -- a segment without children that holds the previous block is a leaf
  have hmem : cache.getChildCount = 0 → validated.cacheId ∈ core.chainsLeaves :=
    h.mem_chainsLeaves_of_findSegmentContainingBlock hvalid.findSegmentContainingBlock_eq hcache
  have hpush : cache.getChildCount = 0 →
      (core.pushBlockOn validated.cacheId cachedBlock rawBlock validated).TreeInvariant :=
    fun hleaf => h.pushBlockOn hcache hleaf (hmem hleaf) hvalid.hasBlock_eq_false
  cases hstep with
  | pushMain htop hleaf hmain => exact (hpush hleaf).congr rfl rfl rfl
  | pushAlternative htop hleaf hmain hlighter => exact hpush hleaf
  | switch htop hleaf hmain hheavier =>
    -- the switch moves the leaf to the front, which only reorders the leaves
    have hswitched : WellFormed (core.pushBlockOn validated.cacheId cachedBlock rawBlock
        validated).forest (promote core.chainsLeaves validated.cacheId) := by
      have hwf := (hpush hleaf).wellFormed
      rw [pushBlockOn_chainsLeaves] at hwf
      exact hwf.perm (promote_perm (hmem hleaf))
    obtain ⟨pool, hpool⟩ := copyTransactionsToPool_eq _ core.mainChain adjustedTime
    rw [hpool]
    exact (TreeInvariant.updateMainChainSet hswitched).congr rfl rfl rfl
  | fork htop hchildren =>
    have hwf : WellFormed (core.forkLeaf validated.cacheId cachedBlock rawBlock validated).forest
        (core.forkLeaf validated.cacheId cachedBlock rawBlock validated).chainsLeaves := by
      rw [forest_forkLeaf hcache, chainsLeaves_forkLeaf, ← length_forest]
      refine h.wellFormed.fork hshape (fun hnil => hchildren (List.length_eq_zero_iff.2 hnil)) ?_
      rw [BlockchainCache.getTopBlockIndex] at htop
      show cache.startIndex + cache.blockInfos.length = validated.previousBlockIndex + 1
      have hbounds := hvalid.previousBlockIndex_bounds hcache
      omega
    exact (TreeInvariant.updateMainChainSet hwf).congr rfl rfl rfl
  | splitFork htop =>
    obtain ⟨hsplit, lower, hlower, hchildren, hend⟩ := h.splitFork hvalid hcache htop
    obtain ⟨ps, hps, -⟩ := exists_of_getElem?_forest hlower
    have hwf : WellFormed
        ((core.splitSegment validated.cacheId (validated.previousBlockIndex + 1)).forkLeaf
          validated.cacheId cachedBlock rawBlock validated).forest
        ((core.splitSegment validated.cacheId (validated.previousBlockIndex + 1)).forkLeaf
          validated.cacheId cachedBlock rawBlock validated).chainsLeaves := by
      rw [forest_forkLeaf hps, chainsLeaves_forkLeaf, ← length_forest]
      exact hsplit.fork hlower hchildren hend
    exact TreeInvariant.updateMainChainSet hwf

theorem TreeInvariant.addTransactionToPool {core : Core} (h : core.TreeInvariant)
    (cachedTransaction : CachedTransaction) (receiveTime : UInt64) :
    (core.addTransactionToPool cachedTransaction receiveTime).2.TreeInvariant := by
  obtain ⟨pool, hpool⟩ := core.addTransactionToPool_eq cachedTransaction receiveTime
  rw [hpool]
  exact h.congr rfl rfl rfl

theorem forest_init (currency : Currency) (checkpoints : Checkpoints) (primitives : Primitives) :
    (init currency checkpoints primitives).forest = [⟨none, [], 0, 1⟩] := by
  have hroot : (BlockchainCache.root currency primitives).shape = ⟨none, [], 0, 1⟩ :=
    BlockchainCache.shape_doPushBlock rfl
  rw [forest, init, updateBlockMedianSize_chainsStorage, List.map_singleton, hroot]

/-- The root segment is the only leaf and the main chain. -/
theorem treeInvariant_init (currency : Currency) (checkpoints : Checkpoints)
    (primitives : Primitives) : (init currency checkpoints primitives).TreeInvariant := by
  have hforest := forest_init currency checkpoints primitives
  constructor
  · rw [hforest]
    exact wellFormed_root Nat.one_pos
  · have hmain : (init currency checkpoints primitives).mainChain = 0 := rfl
    have hpath : ParentStore.path Segment.parent Segment.start
        [(⟨none, [], 0, 1⟩ : Segment)] 0 = [0] :=
      ParentStore.path_of_parentOf_none List.getElem?_cons_zero rfl
    rw [pathIds_eq, hforest, hmain, hpath]
    rfl

/-! ## Every reachable state -/

/-- The states of a node: the state `init` builds, and what accepted blocks and pool additions
make of a reachable state. -/
inductive Reachable : Core → Prop
  | init (currency : Currency) (checkpoints : Checkpoints) (primitives : Primitives) :
      Reachable (init currency checkpoints primitives)
  | addBlock {core core' : Core} {cachedBlock : CachedBlock} {rawBlock : RawBlock}
      {adjustedTime : UInt64} {code : AddBlockErrorCode} :
      Reachable core → core.addBlock cachedBlock rawBlock adjustedTime = .ok (code, core') →
      Reachable core'
  | addTransactionToPool {core : Core} (cachedTransaction : CachedTransaction)
      (receiveTime : UInt64) :
      Reachable core → Reachable (core.addTransactionToPool cachedTransaction receiveTime).2

theorem reachable_treeInvariant {core : Core} (h : core.Reachable) : core.TreeInvariant := by
  induction h with
  | init currency checkpoints primitives => exact treeInvariant_init currency checkpoints primitives
  | addBlock _ hadd ih => exact ih.addBlock hadd
  | addTransactionToPool cachedTransaction receiveTime _ ih =>
    exact ih.addTransactionToPool cachedTransaction receiveTime

/-- Blocks added one after another, each to the state the one before left; the first refused
block ends the run with its error. -/
def addBlocks (core : Core) : List (CachedBlock × RawBlock × UInt64) → Except ErrorCode Core
  | [] => .ok core
  | (cachedBlock, rawBlock, adjustedTime) :: blocks => do
    let (_, core) ← core.addBlock cachedBlock rawBlock adjustedTime
    core.addBlocks blocks

theorem Reachable.addBlocks {core core' : Core} (h : core.Reachable)
    {blocks : List (CachedBlock × RawBlock × UInt64)} (hrun : core.addBlocks blocks = .ok core') :
    core'.Reachable := by
  induction blocks generalizing core with
  | nil =>
    cases hrun
    exact h
  | cons block blocks ih =>
    obtain ⟨cachedBlock, rawBlock, adjustedTime⟩ := block
    obtain ⟨⟨code, added⟩, hadd, hrest⟩ := ExceptRun.bind_eq_ok.1 hrun
    exact ih (h.addBlock hadd) hrest

/-- The invariant read on the store itself: in every state of the node each segment's parent
lists it as a child and ends below the segment's first block, each listed child points back,
every segment holds a block, the segments `chainsLeaves` lists have no children and are listed
once each, and `mainChainSet` is the main leaf with its ancestors. -/
theorem segment_tree_of_reachable {core : Core} (h : core.Reachable) :
    (∀ {j p : ℕ} {s : BlockchainCache}, core.chainsStorage[j]? = some s → s.parent = some p →
      ∃ ps, core.chainsStorage[p]? = some ps ∧ j ∈ ps.children ∧
        ps.getTopBlockIndex < s.startIndex) ∧
    (∀ {p j : ℕ} {ps : BlockchainCache}, core.chainsStorage[p]? = some ps → j ∈ ps.children →
      ∃ s, core.chainsStorage[j]? = some s ∧ s.parent = some p) ∧
    (∀ {j : ℕ} {s : BlockchainCache}, core.chainsStorage[j]? = some s → s.blockInfos ≠ []) ∧
    (∀ j ∈ core.chainsLeaves, ∃ s, core.chainsStorage[j]? = some s ∧ s.getChildCount = 0) ∧
    core.chainsLeaves.Nodup ∧ core.chainsLeaves ≠ [] ∧
    core.mainChainSet = (core.pathIds core.mainChain).toFinset := by
  have hinv := reachable_treeInvariant h
  have hwf := hinv.wellFormed
  refine ⟨?_, ?_, ?_, ?_, hwf.leaves_nodup, hwf.leaves_ne_nil, hinv.mainChainSet_eq⟩
  · intro j p s hs hp
    obtain ⟨pt, hpt, hj, hstart⟩ := hwf.parent_link (getElem?_forest_of_getElem? hs) hp
    obtain ⟨ps, hps, rfl⟩ := exists_of_getElem?_forest hpt
    have hcount : 0 < ps.blockInfos.length := hwf.count_pos hpt
    refine ⟨ps, hps, hj, ?_⟩
    change ps.startIndex + ps.blockInfos.length ≤ s.startIndex at hstart
    rw [BlockchainCache.getTopBlockIndex]
    omega
  · intro p j ps hps hj
    obtain ⟨t, ht, hparent⟩ := hwf.child_link (getElem?_forest_of_getElem? hps) hj
    obtain ⟨s, hs, rfl⟩ := exists_of_getElem?_forest ht
    exact ⟨s, hs, hparent⟩
  · intro j s hs
    exact List.ne_nil_of_length_pos (hwf.count_pos (getElem?_forest_of_getElem? hs))
  · intro j hj
    obtain ⟨t, ht, hnil⟩ := hwf.leaf_childless hj
    obtain ⟨s, hs, rfl⟩ := exists_of_getElem?_forest ht
    exact ⟨s, hs, List.length_eq_zero_iff.2 hnil⟩

/-! ## A node that forks off the root twice

Blocks 1 to 3 go on the main chain, which the root holds. A block on block 2 then splits the
root after block 2, and a block on block 1 splits it again after block 1, while it has children:
the part cut off holds block 2 and lies below no leaf. -/

/-- A block at `blockIndex` of major version `majorVersion` holding only its coinbase
transaction, which pays `reward` to the key `5`. -/
def coinbaseBlock (majorVersion : UInt8) (blockIndex : ℕ) (previousBlockHash blockHash : Crypto.Hash)
    (reward : UInt64) : CachedBlock :=
  ⟨{ majorVersion, minorVersion := 0, nonce := 0, timestamp := .ofNat blockIndex,
      previousBlockHash, parentBlock := ⟨0⟩,
      baseTransaction :=
        { version := 1, unlockTime := .ofNat (blockIndex + 40), inputs := [.base ⟨.ofNat blockIndex⟩],
          outputs := [⟨reward, .key ⟨⟨5⟩⟩⟩], extra := [], signatures := [] },
      transactionHashes := [] }, blockHash⟩

def forkBlockOne : CachedBlock := coinbaseBlock 1 1 genesisBlock.blockHash ⟨1⟩ 14305114

def forkBlockTwo : CachedBlock := coinbaseBlock 2 2 ⟨1⟩ ⟨2⟩ 14305114

def forkBlockThree : CachedBlock := coinbaseBlock 3 3 ⟨2⟩ ⟨3⟩ 14305113

/-- A block on block 2, beside block 3. -/
def altBlockThree : CachedBlock := coinbaseBlock 3 3 ⟨2⟩ ⟨13⟩ 14305113

/-- A block on block 1, beside block 2. -/
def altBlockTwo : CachedBlock := coinbaseBlock 2 2 ⟨1⟩ ⟨12⟩ 14305114

/-- The blocks of the main chain and the first fork, each without transactions, at time 10. -/
def forkRun : List (CachedBlock × RawBlock × UInt64) :=
  [forkBlockOne, forkBlockTwo, forkBlockThree, altBlockThree].map fun cachedBlock =>
    (cachedBlock, ⟨[], []⟩, 10)

theorem segment_tree_of_reachable_forked :
    ∃ core, (init zoneCurrency fileCheckpoints zonePrimitives).addBlocks
        (forkRun ++ [(altBlockTwo, ⟨[], []⟩, 10)]) = .ok core ∧
      core.Reachable ∧
      ((∀ {j p : ℕ} {s : BlockchainCache}, core.chainsStorage[j]? = some s → s.parent = some p →
        ∃ ps, core.chainsStorage[p]? = some ps ∧ j ∈ ps.children ∧
          ps.getTopBlockIndex < s.startIndex) ∧
      (∀ {p j : ℕ} {ps : BlockchainCache}, core.chainsStorage[p]? = some ps → j ∈ ps.children →
        ∃ s, core.chainsStorage[j]? = some s ∧ s.parent = some p) ∧
      (∀ {j : ℕ} {s : BlockchainCache}, core.chainsStorage[j]? = some s → s.blockInfos ≠ []) ∧
      (∀ j ∈ core.chainsLeaves, ∃ s, core.chainsStorage[j]? = some s ∧ s.getChildCount = 0) ∧
      core.chainsLeaves.Nodup ∧ core.chainsLeaves ≠ [] ∧
      core.mainChainSet = (core.pathIds core.mainChain).toFinset) := by
  obtain ⟨core, hrun⟩ : ∃ core, (init zoneCurrency fileCheckpoints zonePrimitives).addBlocks
      (forkRun ++ [(altBlockTwo, ⟨[], []⟩, 10)]) = .ok core := ⟨_, rfl⟩
  have hreach := (Reachable.init _ _ _).addBlocks hrun
  exact ⟨core, hrun, hreach, segment_tree_of_reachable hreach⟩

end Core

end CryptoNote
