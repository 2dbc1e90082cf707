import Traaitt.CryptoNoteCore.KnownBlocks

/-! The heights of the main chain. A block added to the main chain goes on its main leaf and
raises its top block index by one. A fork off the root below an earlier fork, though, cuts the
blocks above the fork point off every leaf: the main chain then skips their heights while its top
block index stays, the node no longer knows those blocks, and takes one of them again. -/

namespace CryptoNote

namespace Core

open SegmentForest

/-- A block added to the main chain becomes its top block: the main chain's top block index grows
by one, and the main chain's top segment holds the block. -/
theorem addBlock_added_to_main {core core' : Core} (h : core.Reachable)
    {cachedBlock : CachedBlock} {rawBlock : RawBlock} {adjustedTime : UInt64}
    (hadd : core.addBlock cachedBlock rawBlock adjustedTime = .ok (.ADDED_TO_MAIN, core')) :
    core'.getTopBlockIndex = core.getTopBlockIndex + 1 ∧
      (core'.chainsStorage[core'.mainChain]?).map (·.hasBlock cachedBlock.blockHash) =
        some true := by
  have hinv := reachable_treeInvariant h
  obtain ⟨validated, cache, hvalid, hcache, hstep⟩ := addBlock_eq_ok hadd
  -- only a push on the main leaf answers ADDED_TO_MAIN
  cases hstep with
  | pushMain htop hleaf hmain =>
    obtain ⟨pushed, hpushed, hshape, hhas⟩ := exists_getElem?_pushBlockOn hcache
      (hinv.hasBlock_eq_false_of_validation hvalid hcache hleaf) rawBlock validated
    have hstart : pushed.startIndex = cache.startIndex := congrArg Segment.start hshape
    have hcount : pushed.blockInfos.length = cache.blockInfos.length + 1 :=
      congrArg Segment.count hshape
    have hpos : 0 < cache.blockInfos.length :=
      hinv.wellFormed.count_pos (getElem?_forest_of_getElem? hcache)
    have hmain' : ((core.pushBlockOn validated.cacheId cachedBlock rawBlock
        validated).updateBlockMedianSize.checkAndRemoveInvalidPoolTransactions
          validated.validatorState).mainChain = validated.cacheId := by
      exact (pushBlockOn_mainChain core validated.cacheId cachedBlock rawBlock validated).trans
        hmain.symm
    refine ⟨?_, ?_⟩
    · rw [getTopBlockIndex, getTopBlockIndex, hmain', ← hmain,
        checkAndRemoveInvalidPoolTransactions_chainsStorage, updateBlockMedianSize_chainsStorage,
        hpushed, hcache, Option.map_some, Option.map_some, Option.getD_some, Option.getD_some,
        BlockchainCache.getTopBlockIndex, BlockchainCache.getTopBlockIndex, hstart, hcount]
      omega
    · rw [hmain', checkAndRemoveInvalidPoolTransactions_chainsStorage,
        updateBlockMedianSize_chainsStorage, hpushed, Option.map_some, hhas]

theorem addBlock_added_to_main_forkBlockThree :
    ∃ core core', (init zoneCurrency fileCheckpoints zonePrimitives).addBlocks
        (forkRun.take 2) = .ok core ∧
      core.addBlock forkBlockThree ⟨[], []⟩ 10 = .ok (.ADDED_TO_MAIN, core') ∧
      core'.getTopBlockIndex = core.getTopBlockIndex + 1 ∧
      (core'.chainsStorage[core'.mainChain]?).map (·.hasBlock forkBlockThree.blockHash) =
        some true := by
  obtain ⟨core, core', hrun, hadd⟩ : ∃ core core',
      (init zoneCurrency fileCheckpoints zonePrimitives).addBlocks (forkRun.take 2) = .ok core ∧
        core.addBlock forkBlockThree ⟨[], []⟩ 10 = .ok (.ADDED_TO_MAIN, core') :=
    ⟨_, _, rfl, rfl⟩
  exact ⟨core, core', hrun, hadd,
    addBlock_added_to_main ((Reachable.init _ _ _).addBlocks hrun) hadd⟩

/-- After the main chain's blocks 1 to 3 and a block beside block 3, the node knows block 2 and
its main chain holds four blocks. A block beside block 2 splits the root again, below the first
fork: block 2 goes to a segment under no leaf, so the node no longer knows it, and the main chain
holds three blocks while its top block index stays 3. Block 2 sent again is then accepted, and
stored twice. -/
theorem second_root_fork_loses_block :
    ∃ core, (init zoneCurrency fileCheckpoints zonePrimitives).addBlocks forkRun = .ok core ∧
      core.hasBlock forkBlockTwo.blockHash = true ∧
      ((core.segments core.mainChain).map BlockchainCache.getBlockCount).sum = 4 ∧
      ∃ core', core.addBlock altBlockTwo ⟨[], []⟩ 10 = .ok (.ADDED_TO_ALTERNATIVE, core') ∧
        core'.hasBlock forkBlockTwo.blockHash = false ∧
        core'.getTopBlockIndex = 3 ∧
        ((core'.segments core'.mainChain).map BlockchainCache.getBlockCount).sum = 3 ∧
        ∃ core'', core'.addBlock forkBlockTwo ⟨[], []⟩ 10 =
            .ok (.ADDED_TO_ALTERNATIVE, core'') ∧
          core''.blockHashes.count forkBlockTwo.blockHash = 2 := by
  refine ⟨_, rfl, ?_, ?_, _, rfl, ?_, ?_, ?_, _, rfl, ?_⟩ <;> decide +kernel

end Core

end CryptoNote
