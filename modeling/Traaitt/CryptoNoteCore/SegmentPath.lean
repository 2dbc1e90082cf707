import Traaitt.CryptoNoteCore.BlockchainCache

/-! The chain a path of segments stands for. When every parent holds blocks and ends right
before its child starts, and the root starts at block `0`, the block infos of the path, root
first, list the chain by block index, and the queries that walk parent pointers read that
list: a block's hash or totals are its entry, and `getLastUnits` is a window ending at the
block. -/

namespace CryptoNote

namespace BlockchainCache

/-- The block infos along a path, root first. -/
def blockInfosOf : List BlockchainCache → List CachedBlockInfo
  | [] => []
  | cache :: parents => blockInfosOf parents ++ cache.blockInfos

/-- Every parent holds blocks and ends right before its child starts; the root starts at `0`. -/
def Linked : List BlockchainCache → Prop
  | [] => True
  | [cache] => cache.startIndex = 0
  | cache :: parent :: parents =>
    parent.blockInfos ≠ [] ∧ parent.startIndex + parent.blockInfos.length = cache.startIndex ∧
      Linked (parent :: parents)

@[simp] theorem blockInfosOf_nil : blockInfosOf [] = [] := rfl

@[simp] theorem blockInfosOf_cons (cache : BlockchainCache) (parents : List BlockchainCache) :
    blockInfosOf (cache :: parents) = blockInfosOf parents ++ cache.blockInfos := rfl

theorem Linked.tail {cache : BlockchainCache} {parents : List BlockchainCache}
    (h : Linked (cache :: parents)) : Linked parents := by
  match parents, h with
  | [], _ => trivial
  | _ :: _, h => exact h.2.2

theorem Linked.length_blockInfosOf {cache : BlockchainCache} :
    ∀ {parents : List BlockchainCache}, Linked (cache :: parents) →
      (blockInfosOf parents).length = cache.startIndex
  | [], h => h.symm
  | parent :: parents, h => by
    rw [blockInfosOf_cons, List.length_append, h.2.2.length_blockInfosOf]
    exact h.2.1

theorem Linked.getElem?_blockInfosOf {cache : BlockchainCache} {parents : List BlockchainCache}
    (h : Linked (cache :: parents)) (i : ℕ) :
    (blockInfosOf (cache :: parents))[i]? =
      if i < cache.startIndex then (blockInfosOf parents)[i]?
      else cache.blockInfos[i - cache.startIndex]? := by
  have hlen := h.length_blockInfosOf
  rw [blockInfosOf_cons]
  split_ifs with hi
  · exact List.getElem?_append_left (by omega)
  · rw [List.getElem?_append_right (by omega), hlen]

theorem getBlockHash_eq (i : ℕ) :
    ∀ {path : List BlockchainCache}, Linked path →
      getBlockHash i path = ((blockInfosOf path)[i]?).map (·.blockHash)
  | [], _ => rfl
  | cache :: parents, h => by
    rw [h.getElem?_blockInfosOf, getBlockHash]
    split_ifs
    · exact getBlockHash_eq i h.tail
    · rfl

theorem getAlreadyGeneratedCoins_eq (i : ℕ) :
    ∀ {path : List BlockchainCache}, Linked path →
      getAlreadyGeneratedCoins i path = (((blockInfosOf path)[i]?).map (·.alreadyGeneratedCoins)).getD 0
  | [], _ => rfl
  | cache :: parents, h => by
    rw [h.getElem?_blockInfosOf, getAlreadyGeneratedCoins]
    split_ifs
    · exact getAlreadyGeneratedCoins_eq i h.tail
    · rfl

theorem getAlreadyGeneratedTransactions_eq (i : ℕ) :
    ∀ {path : List BlockchainCache}, Linked path →
      getAlreadyGeneratedTransactions i path =
        (((blockInfosOf path)[i]?).map (·.alreadyGeneratedTransactions)).getD 0
  | [], _ => rfl
  | cache :: parents, h => by
    rw [h.getElem?_blockInfosOf, getAlreadyGeneratedTransactions]
    split_ifs
    · exact getAlreadyGeneratedTransactions_eq i h.tail
    · rfl

/-- The first block `getLastUnits` reads: `count` blocks back from `blockIndex`, and never the
genesis block unless `useGenesis`. -/
def lastUnitsStart (count blockIndex : ℕ) (useGenesis : Bool) : ℕ :=
  max (blockIndex + 1 - count) (if useGenesis then 0 else 1)

theorem getLastUnits_root {cache : BlockchainCache} (h : cache.startIndex = 0)
    (count blockIndex : ℕ) (useGenesis : Bool) (pred : CachedBlockInfo → UInt64) :
    getLastUnits count blockIndex useGenesis pred [cache] =
      ((cache.blockInfos.take (blockIndex + 1)).drop
        (lastUnitsStart count blockIndex useGenesis)).map pred := by
  have hstart : ∀ f, f = lastUnitsStart count blockIndex useGenesis →
      ((cache.blockInfos.drop f).take (blockIndex + 1 - f)).map pred =
        ((cache.blockInfos.take (blockIndex + 1)).drop
          (lastUnitsStart count blockIndex useGenesis)).map pred := by
    rintro f rfl
    rw [List.drop_take]
  simp only [getLastUnits, h, Nat.not_lt_zero, if_false, Nat.sub_zero, List.isEmpty_nil,
    Bool.and_true, List.nil_append]
  apply hstart
  unfold lastUnitsStart
  cases useGenesis <;> simp <;> (try split_ifs) <;> omega

/-- One segment of `getLastUnits` below a parent: the parent gives what the segment lacks. -/
theorem getLastUnits_cons_cons {count blockIndex toIndex : ℕ} {useGenesis : Bool}
    {pred : CachedBlockInfo → UInt64} {cache parent : BlockchainCache}
    {parents : List BlockchainCache}
    (hto : toIndex = if blockIndex < cache.startIndex then 0 else blockIndex - cache.startIndex + 1) :
    getLastUnits count blockIndex useGenesis pred (cache :: parent :: parents) =
      (if min count toIndex < count then
        getLastUnits (count - min count toIndex) (min blockIndex parent.getTopBlockIndex)
          useGenesis pred (parent :: parents)
      else []) ++
        ((cache.blockInfos.drop (toIndex - min count toIndex)).take (min count toIndex)).map pred := by
  subst hto
  rw [getLastUnits]
  simp only [List.isEmpty_cons, Bool.and_false, Bool.false_eq_true, if_false]
  congr 4
  omega

theorem getLastUnits_eq {useGenesis : Bool} {pred : CachedBlockInfo → UInt64} :
    ∀ {path : List BlockchainCache} {count blockIndex : ℕ}, Linked path →
      blockIndex < (blockInfosOf path).length →
      getLastUnits count blockIndex useGenesis pred path =
        (((blockInfosOf path).take (blockIndex + 1)).drop
          (lastUnitsStart count blockIndex useGenesis)).map pred
  | [], _, _, _, hi => by simp at hi
  | [cache], count, blockIndex, h, _ => by
    rw [getLastUnits_root h, blockInfosOf_cons, blockInfosOf_nil, List.nil_append]
  | cache :: parent :: parents, count, blockIndex, h, hi => by
    obtain ⟨hne, hlink, htail⟩ := h
    have hlen : (blockInfosOf (parent :: parents)).length = cache.startIndex := by
      rw [blockInfosOf_cons, List.length_append, htail.length_blockInfosOf]
      exact hlink
    have hpos : 0 < parent.blockInfos.length := List.length_pos_of_ne_nil hne
    have htop : parent.getTopBlockIndex = cache.startIndex - 1 := by
      unfold getTopBlockIndex
      omega
    rw [blockInfosOf_cons, List.length_append, hlen] at hi
    rw [blockInfosOf_cons]
    by_cases hlow : blockIndex < cache.startIndex
    · -- the block is below this segment: all of the window comes from the parent
      have hmin : min blockIndex parent.getTopBlockIndex = blockIndex := by omega
      rw [getLastUnits_cons_cons (if_pos hlow).symm, List.take_append_of_le_length (by omega),
        Nat.min_zero, Nat.sub_zero, List.take_zero, List.map_nil, List.append_nil, hmin]
      by_cases hcount : 0 < count
      · rw [if_pos hcount]
        exact getLastUnits_eq htail (by omega)
      · rw [if_neg hcount, eq_comm, List.map_eq_nil_iff]
        apply List.drop_eq_nil_of_le
        simp only [List.length_take, lastUnitsStart]
        omega
    · -- the window ends in this segment, and reaches into the parent when it is longer
      have hto : blockIndex + 1 - cache.startIndex = blockIndex - cache.startIndex + 1 := by omega
      rw [getLastUnits_cons_cons (if_neg hlow).symm, List.take_append, hlen, hto,
        List.take_of_length_le (l := blockInfosOf (parent :: parents)) (by omega)]
      by_cases hfit : count ≤ blockIndex - cache.startIndex + 1
      · have hstart : lastUnitsStart count blockIndex useGenesis = blockIndex + 1 - count := by
          unfold lastUnitsStart
          split <;> omega
        have hnil : (blockInfosOf (parent :: parents)).drop (blockIndex + 1 - count) = [] :=
          List.drop_eq_nil_of_le (by omega)
        rw [Nat.min_eq_left hfit, if_neg (Nat.lt_irrefl count), List.nil_append, hstart,
          List.drop_append, hnil, List.nil_append, hlen, List.drop_take]
        congr 3 <;> omega
      · have hlt : blockIndex - cache.startIndex + 1 < count := Nat.lt_of_not_le hfit
        have hmin : min blockIndex parent.getTopBlockIndex = cache.startIndex - 1 := by omega
        have hparent := @getLastUnits_eq useGenesis pred (parent :: parents)
          (count - (blockIndex - cache.startIndex + 1)) (cache.startIndex - 1) htail (by omega)
        have hstart : lastUnitsStart (count - (blockIndex - cache.startIndex + 1))
            (cache.startIndex - 1) useGenesis = lastUnitsStart count blockIndex useGenesis := by
          unfold lastUnitsStart
          congr 1
          omega
        have hwhole : (blockInfosOf (parent :: parents)).take (cache.startIndex - 1 + 1) =
            blockInfosOf (parent :: parents) :=
          List.take_of_length_le (by omega)
        have hle : lastUnitsStart count blockIndex useGenesis ≤
            (blockInfosOf (parent :: parents)).length := by
          unfold lastUnitsStart
          split <;> omega
        rw [Nat.min_eq_right (Nat.le_of_lt hlt), if_pos hlt, Nat.sub_self, List.drop_zero, hmin,
          hparent, hstart, hwhole, List.drop_append_of_le_length hle, List.map_append]

end BlockchainCache

end CryptoNote
