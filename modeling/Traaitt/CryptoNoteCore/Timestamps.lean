import Traaitt.CryptoNoteCore.SegmentPath

/-! The two timestamp lookups of `BlockchainCache`. On a chain whose timestamps do not decrease,
`getTimestampLowerBoundBlockIndex` finds the first block whose timestamp is at least the one
asked: it searches the segment when its first block is earlier, and asks the parent otherwise.
`getBlockHeightForTimestamp` makes the opposite choice: it answers with the segment's start
when its first block is not earlier, and asks the parent when the timestamp falls inside the
segment, where the parent, all of whose blocks are earlier, answers that there is no block. -/

namespace CryptoNote

namespace BlockchainCache

/-- `std::lower_bound` of `timestamp` over a segment's blocks by `blockInfo.timestamp < value`:
on blocks whose timestamps do not decrease, the binary search returns the number of blocks
before the first one whose timestamp is not below `timestamp`. -/
def timestampLowerBound (blockInfos : List CachedBlockInfo) (timestamp : UInt64) : ℕ :=
  (blockInfos.takeWhile fun blockInfo => decide (blockInfo.timestamp < timestamp)).length

/-- `index.back().timestamp`; the model reads `0` for a segment without blocks. -/
def backTimestamp (cache : BlockchainCache) : UInt64 :=
  (cache.blockInfos.getLast?.map (·.timestamp)).getD 0

/-- `index.front().timestamp`; the model reads `0` for a segment without blocks. -/
def frontTimestamp (cache : BlockchainCache) : UInt64 :=
  (cache.blockInfos.head?.map (·.timestamp)).getD 0

/-- `getBlockHeightForTimestamp(timestamp)` on the path from the segment to the root. -/
def getBlockHeightForTimestamp (timestamp : UInt64) : List BlockchainCache → Bool × ℕ
  | [] => (false, 0)
  | cache :: parents =>
    -- the timestamp is too great for this segment
    if cache.backTimestamp < timestamp then (false, 0)
    else if cache.frontTimestamp ≥ timestamp then
      (true, cache.startIndex + timestampLowerBound cache.blockInfos timestamp)
    else
      match parents with
      -- no parent: the start of the chain
      | [] => (false, 0)
      | _ => getBlockHeightForTimestamp timestamp parents

/-- `INVALID_BLOCK_INDEX`, the largest `uint32_t`. -/
def INVALID_BLOCK_INDEX : ℕ := 2 ^ 32 - 1

/-- `getTimestampLowerBoundBlockIndex(timestamp)` on the path from the segment to the root; the
error is the `std::runtime_error` it throws, which the segment above catches. -/
def getTimestampLowerBoundBlockIndex (timestamp : UInt64) :
    List BlockchainCache → Except String ℕ
  | [] => .ok 0
  | cache :: parents =>
    if cache.backTimestamp < timestamp then .error "no blocks for this timestamp, too large"
    -- the timestamp is in this segment for sure
    else if cache.frontTimestamp < timestamp then
      .ok (cache.startIndex + timestampLowerBound cache.blockInfos timestamp)
    else
      match parents with
      -- at or before the genesis block's timestamp
      | [] => .ok 0
      | _ =>
        match getTimestampLowerBoundBlockIndex timestamp parents with
        | .ok blockIndex => .ok (if blockIndex ≠ INVALID_BLOCK_INDEX then blockIndex else cache.startIndex)
        | .error _ => .ok cache.startIndex

/-- One segment of `getTimestampLowerBoundBlockIndex`, whatever its parents. -/
theorem getTimestampLowerBoundBlockIndex_cons (timestamp : UInt64) (cache : BlockchainCache)
    (parents : List BlockchainCache) :
    getTimestampLowerBoundBlockIndex timestamp (cache :: parents) =
      if cache.backTimestamp < timestamp then .error "no blocks for this timestamp, too large"
      else if cache.frontTimestamp < timestamp then
        .ok (cache.startIndex + timestampLowerBound cache.blockInfos timestamp)
      else if parents = [] then .ok 0
      else
        match getTimestampLowerBoundBlockIndex timestamp parents with
        | .ok blockIndex =>
          .ok (if blockIndex ≠ INVALID_BLOCK_INDEX then blockIndex else cache.startIndex)
        | .error _ => .ok cache.startIndex := by
  cases parents <;> rfl

/-- Blocks whose timestamps do not decrease. -/
def TimestampsSorted (blockInfos : List CachedBlockInfo) : Prop :=
  blockInfos.Pairwise fun a b => a.timestamp ≤ b.timestamp

/-! ## The lower bound -/

section LowerBound

variable {l l₁ l₂ : List CachedBlockInfo} {timestamp : UInt64} {b : CachedBlockInfo}

@[simp] theorem timestampLowerBound_cons_of_lt (h : b.timestamp < timestamp) :
    timestampLowerBound (b :: l) timestamp = timestampLowerBound l timestamp + 1 := by
  rw [timestampLowerBound, List.takeWhile_cons_of_pos
    (p := fun blockInfo : CachedBlockInfo => decide (blockInfo.timestamp < timestamp))
    (decide_eq_true h), List.length_cons]
  rfl

@[simp] theorem timestampLowerBound_cons_of_not_lt (h : ¬b.timestamp < timestamp) :
    timestampLowerBound (b :: l) timestamp = 0 := by
  rw [timestampLowerBound, List.takeWhile_cons_of_neg
    (p := fun blockInfo : CachedBlockInfo => decide (blockInfo.timestamp < timestamp))
    (by simpa using h), List.length_nil]

/-- The lower bound is the first block at or after the timestamp: every block before it is
earlier, and the block at it, if any, is not. -/
theorem timestampLowerBound_spec (l : List CachedBlockInfo) (timestamp : UInt64) :
    (∀ i < timestampLowerBound l timestamp, ∃ b, l[i]? = some b ∧ b.timestamp < timestamp) ∧
      ∀ b, l[timestampLowerBound l timestamp]? = some b → ¬b.timestamp < timestamp := by
  induction l with
  | nil => simp [timestampLowerBound]
  | cons x l ih =>
    by_cases hx : x.timestamp < timestamp
    · rw [timestampLowerBound_cons_of_lt hx]
      refine ⟨fun i hi => ?_, fun b hb => ih.2 b (by simpa using hb)⟩
      cases i with
      | zero => exact ⟨x, rfl, hx⟩
      | succ i => simpa using ih.1 i (by omega)
    · rw [timestampLowerBound_cons_of_not_lt hx]
      refine ⟨fun i hi => absurd hi (Nat.not_lt_zero i), fun b hb => ?_⟩
      rw [List.getElem?_cons_zero, Option.some.injEq] at hb
      exact hb ▸ hx

theorem timestampLowerBound_lt_length (hb : b ∈ l) (hge : ¬b.timestamp < timestamp) :
    timestampLowerBound l timestamp < l.length := by
  have htaken := List.takeWhile_prefix (l := l) fun blockInfo : CachedBlockInfo =>
    decide (blockInfo.timestamp < timestamp)
  refine lt_of_le_of_ne htaken.length_le fun heq => hge ?_
  have hall := List.takeWhile_eq_self_iff.1 (htaken.eq_of_length heq)
  simpa using hall b hb

theorem timestampLowerBound_append_of_lt (h : ∀ b ∈ l₁, b.timestamp < timestamp) :
    timestampLowerBound (l₁ ++ l₂) timestamp = l₁.length + timestampLowerBound l₂ timestamp := by
  rw [timestampLowerBound, List.takeWhile_append_of_pos fun b hb => decide_eq_true (h b hb),
    List.length_append]
  rfl

theorem timestampLowerBound_append_of_not_lt (hb : b ∈ l₁) (hge : ¬b.timestamp < timestamp) :
    timestampLowerBound (l₁ ++ l₂) timestamp = timestampLowerBound l₁ timestamp := by
  have hlt := timestampLowerBound_lt_length hb hge
  unfold timestampLowerBound at hlt ⊢
  rw [List.takeWhile_append, if_neg (by omega)]

end LowerBound

/-! ## Segments of a chain whose timestamps do not decrease -/

section Segments

variable {l : List CachedBlockInfo} {cache : BlockchainCache} {parents : List BlockchainCache}
  {timestamp : UInt64}

theorem le_getLast_of_sorted (hsorted : TimestampsSorted l) (hne : l ≠ []) :
    ∀ b ∈ l, b.timestamp ≤ (l.getLast hne).timestamp := by
  induction l with
  | nil => exact absurd rfl hne
  | cons x l ih =>
    intro b hb
    by_cases hl : l = []
    · subst hl
      rw [List.mem_singleton.1 hb]
      exact UInt64.le_refl _
    · have hlast : (l.getLast hl) ∈ l := List.getLast_mem hl
      rw [List.getLast_cons hl]
      rcases List.mem_cons.1 hb with rfl | hb
      · exact List.rel_of_pairwise_cons hsorted hlast
      · exact ih (List.Pairwise.of_cons hsorted) hl b hb

theorem frontTimestamp_eq (hne : cache.blockInfos ≠ []) :
    cache.frontTimestamp = (cache.blockInfos.head hne).timestamp := by
  rw [frontTimestamp, List.head?_eq_some_head hne]
  rfl

theorem backTimestamp_eq (hne : cache.blockInfos ≠ []) :
    cache.backTimestamp = (cache.blockInfos.getLast hne).timestamp := by
  rw [backTimestamp, List.getLast?_eq_some_getLast hne]
  rfl

theorem le_backTimestamp (hne : cache.blockInfos ≠ [])
    (hsorted : TimestampsSorted (blockInfosOf (cache :: parents))) :
    ∀ b ∈ blockInfosOf (cache :: parents), b.timestamp ≤ cache.backTimestamp := by
  rw [blockInfosOf_cons, TimestampsSorted, List.pairwise_append] at hsorted
  obtain ⟨-, hown, hcross⟩ := hsorted
  intro b hb
  rw [backTimestamp_eq hne]
  rcases List.mem_append.1 hb with hb | hb
  · exact hcross b hb _ (List.getLast_mem hne)
  · exact le_getLast_of_sorted hown hne b hb

theorem le_frontTimestamp (hne : cache.blockInfos ≠ [])
    (hsorted : TimestampsSorted (blockInfosOf (cache :: parents))) :
    ∀ b ∈ blockInfosOf parents, b.timestamp ≤ cache.frontTimestamp := by
  rw [blockInfosOf_cons, TimestampsSorted, List.pairwise_append] at hsorted
  intro b hb
  rw [frontTimestamp_eq hne]
  exact hsorted.2.2 b hb _ (List.head_mem hne)

theorem timestampLowerBound_eq_zero (hne : cache.blockInfos ≠ [])
    (hfront : ¬cache.frontTimestamp < timestamp) :
    timestampLowerBound cache.blockInfos timestamp = 0 := by
  rw [frontTimestamp_eq hne] at hfront
  obtain ⟨x, xs, hx⟩ := List.exists_cons_of_ne_nil hne
  simp only [hx, List.head_cons] at hfront
  rw [hx, timestampLowerBound_cons_of_not_lt hfront]

end Segments

/-! ## `getTimestampLowerBoundBlockIndex` finds the first block at or after the timestamp -/

/-- On a linked chain of fewer than `2 ^ 32` blocks whose timestamps do not decrease, and a
timestamp no later than the top block's, `getTimestampLowerBoundBlockIndex` returns the index
of the first block of the chain whose timestamp is not below it. -/
theorem getTimestampLowerBoundBlockIndex_eq {timestamp : UInt64} :
    ∀ {cache : BlockchainCache} {parents : List BlockchainCache}, Linked (cache :: parents) →
      cache.blockInfos ≠ [] → TimestampsSorted (blockInfosOf (cache :: parents)) →
      (blockInfosOf (cache :: parents)).length < 2 ^ 32 → timestamp ≤ cache.backTimestamp →
      getTimestampLowerBoundBlockIndex timestamp (cache :: parents) =
        .ok (timestampLowerBound (blockInfosOf (cache :: parents)) timestamp)
  | cache, parents, hlinked, hne, hsorted, hshort, htop => by
    have hstart := hlinked.length_blockInfosOf
    have hback : ¬cache.backTimestamp < timestamp := UInt64.not_lt.2 htop
    rw [getTimestampLowerBoundBlockIndex_cons, if_neg hback, blockInfosOf_cons]
    by_cases hfront : cache.frontTimestamp < timestamp
    · -- the timestamp is inside the segment: every block before it is earlier
      rw [if_pos hfront, timestampLowerBound_append_of_lt
        (fun b hb => UInt64.lt_of_le_of_lt (le_frontTimestamp hne hsorted b hb) hfront), hstart]
    rw [if_neg hfront]
    match parents, hlinked, hsorted, hshort with
    | [], hlinked, _, _ =>
      -- the genesis segment starts at block 0
      rw [if_pos rfl, blockInfosOf_nil, List.nil_append, timestampLowerBound_eq_zero hne hfront]
    | parent :: grandparents, hlinked, hsorted, hshort =>
      rw [if_neg (List.cons_ne_nil parent grandparents)]
      have hsorted' : TimestampsSorted (blockInfosOf (parent :: grandparents)) := by
        rw [blockInfosOf_cons, TimestampsSorted, List.pairwise_append] at hsorted
        exact hsorted.1
      have hshort' : (blockInfosOf (parent :: grandparents)).length < 2 ^ 32 - 1 := by
        have := List.length_pos_of_ne_nil hne
        rw [blockInfosOf_cons, List.length_append] at hshort
        omega
      by_cases hparentBack : parent.backTimestamp < timestamp
      · -- the parent has no block this late: the segment's first block is the one
        rw [getTimestampLowerBoundBlockIndex_cons, if_pos hparentBack,
          timestampLowerBound_append_of_lt (fun b hb => UInt64.lt_of_le_of_lt
            (le_backTimestamp hlinked.1 hsorted' b hb) hparentBack), hstart,
          timestampLowerBound_eq_zero hne hfront, Nat.add_zero]
      · -- the parent has it, at an index below the segment's start
        have hlastIn : parent.blockInfos.getLast hlinked.1 ∈
            blockInfosOf (parent :: grandparents) :=
          List.mem_append_right _ (List.getLast_mem hlinked.1)
        have hlastLate : ¬(parent.blockInfos.getLast hlinked.1).timestamp < timestamp := by
          rwa [← backTimestamp_eq hlinked.1]
        have hlt := timestampLowerBound_lt_length hlastIn hlastLate
        rw [getTimestampLowerBoundBlockIndex_eq hlinked.2.2 hlinked.1 hsorted' (by omega)
          (UInt64.not_lt.1 hparentBack)]
        dsimp only
        rw [if_pos (by rw [INVALID_BLOCK_INDEX]; omega),
          timestampLowerBound_append_of_not_lt hlastIn hlastLate]

/-- A genesis segment with blocks at timestamps 10, 20 and 30, asked for 15: the first block at
or after it is block 1, which `getTimestampLowerBoundBlockIndex` finds, while
`getBlockHeightForTimestamp` asks the missing parent and answers that there is no such block. -/
theorem getBlockHeightForTimestamp_inside_segment :
    let blockInfo : UInt64 → CachedBlockInfo := fun timestamp => ⟨⟨0⟩, timestamp, 0, 0, 0, 0⟩
    let cache : BlockchainCache :=
      { empty none 0 with blockInfos := [blockInfo 10, blockInfo 20, blockInfo 30] }
    Linked [cache] ∧ TimestampsSorted (blockInfosOf [cache]) ∧
      timestampLowerBound (blockInfosOf [cache]) 15 = 1 ∧
      getTimestampLowerBoundBlockIndex 15 [cache] = .ok 1 ∧
      getBlockHeightForTimestamp 15 [cache] = (false, 0) := by
  refine ⟨rfl, ?_, rfl, rfl, rfl⟩
  unfold TimestampsSorted
  decide

end BlockchainCache

end CryptoNote
