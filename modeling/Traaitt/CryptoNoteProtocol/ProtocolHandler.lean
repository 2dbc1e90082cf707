import Traaitt.CryptoNoteCore.Core
import Traaitt.Library.Except

/-! `CryptoNoteProtocolHandler`: the two responses a peer sends while we synchronise from it.
A handler is modelled as a run over the core's state and the connection's context that records
what the handler does, in order: the states it sets, the objects it adds to those needed or
requested, the notifications it posts and the blocks it passes to the core. The core is any
implementation of the calls of `ICore` the handlers make.

`handleResponseGetObjects` returns at once whenever it drops the connection. The check of
`m_last_response_height` in `handleResponseChainEntry` sets `state_shutdown` and goes on: the
handler still adds the unknown ids to the objects needed, requests them from the peer, and so
records them as requested. -/

namespace CryptoNote

inductive ConnectionState
  | beforHandshake
  | synchronizing
  | idle
  | normal
  | syncRequired
  | poolSyncRequired
  | shutdown
  deriving DecidableEq, Repr

/-- The fields of `CryptoNoteConnectionContext` the handlers read and write. -/
structure CryptoNoteConnectionContext where
  version : UInt8
  state : ConnectionState
  neededObjects : List Crypto.Hash
  requestedObjects : Finset Crypto.Hash
  remoteBlockchainHeight : UInt32
  lastResponseHeight : UInt32

/-- The notifications the handlers post to the peer. -/
inductive Notify
  | requestGetObjects (blocks : List Crypto.Hash)
  | requestChain (blockIds : List Crypto.Hash)
  | requestTxPool (txs : List Crypto.Hash)
  deriving DecidableEq, Repr

/-- What a handler does, in the order it does it. -/
inductive Event
  | setState (state : ConnectionState)
  | pushNeeded (blockHash : Crypto.Hash)
  | insertRequested (blockHash : Crypto.Hash)
  | post (notify : Notify)
  | addBlock (blockHash : Crypto.Hash)
  deriving DecidableEq, Repr

/-- The events that carry the synchronisation with the peer on: a request for objects or for
the chain, an object added to those needed or requested, a block passed to the core. -/
def Event.continuesSync : Event → Bool
  | .pushNeeded _ | .insertRequested _ | .addBlock _ => true
  | .post (.requestGetObjects _) | .post (.requestChain _) => true
  | _ => false

/-- After the call drops the connection, none of its events carries the synchronisation on. -/
def ShutdownFinal (events : List Event) : Prop :=
  ∀ pre post, events = pre ++ .setState .shutdown :: post → ∀ e ∈ post, e.continuesSync = false

inductive AddBlockErrorCondition
  | BLOCK_ADDED
  | BLOCK_REJECTED
  | BLOCK_VALIDATION_FAILED
  | TRANSACTION_VALIDATION_FAILED
  | DESERIALIZATION_FAILED
  deriving DecidableEq, Repr

/-- `AddBlockErrorConditionCategory::equivalent`: which codes `addBlock` returns fall under a
condition. -/
def ErrorCode.equivalent : ErrorCode → AddBlockErrorCondition → Bool
  | .addBlock code, .BLOCK_ADDED =>
    code = .ADDED_TO_MAIN || code = .ADDED_TO_ALTERNATIVE ||
      code = .ADDED_TO_ALTERNATIVE_AND_SWITCHED || code = .ALREADY_EXISTS
  | .addBlock code, .DESERIALIZATION_FAILED => code = .DESERIALIZATION_FAILED
  | .addBlock code, .BLOCK_REJECTED => code = .REJECTED_AS_ORPHANED
  | .blockValidation _, .BLOCK_VALIDATION_FAILED => true
  | .transactionValidation _, .TRANSACTION_VALIDATION_FAILED => true
  | _, _ => false

/-- The calls of `ICore` the handlers make, on the core's state `σ`. -/
structure ICore (σ : Type) where
  hasBlock : σ → Crypto.Hash → Bool
  addBlock : σ → CachedBlock → RawBlock → ErrorCode × σ
  buildSparseChain : σ → List Crypto.Hash
  getPoolTransactionHashes : σ → List Crypto.Hash

/-- A core that holds the one block `known` and takes every block it is given. -/
def ICore.knowing (known : Crypto.Hash) : ICore Unit where
  hasBlock _ blockHash := blockHash == known
  addBlock state _ _ := (.addBlock .ADDED_TO_MAIN, state)
  buildSparseChain _ := [known]
  getPoolTransactionHashes _ := []

structure NotifyResponseChainEntryRequest where
  startHeight : UInt32
  totalHeight : UInt32
  blockIds : List Crypto.Hash

/-- `RawBlockLegacy`: a block blob and its transactions' blobs, as the peer sends them. -/
structure RawBlockLegacy where
  blockTemplate : BinaryArray
  transactions : List BinaryArray

def convertRawBlocksLegacyToRawBlocks (legacy : List RawBlockLegacy) : List RawBlock :=
  legacy.map fun legacyBlock => ⟨legacyBlock.blockTemplate, legacyBlock.transactions⟩

/-- The fields of `NOTIFY_RESPONSE_GET_OBJECTS::request` the handler reads. -/
structure NotifyResponseGetObjectsRequest where
  blocks : List RawBlockLegacy
  currentBlockchainHeight : UInt32

/-- A handler's run: the core's state, the connection's context, and the events so far. -/
structure Run (σ : Type) where
  core : σ
  context : CryptoNoteConnectionContext
  events : List Event

namespace Run

variable {σ : Type}

def setState (r : Run σ) (state : ConnectionState) : Run σ :=
  { r with context := { r.context with state := state }, events := r.events ++ [.setState state] }

/-- `m_needed_objects.push_back(blockHash)`. -/
def pushNeeded (r : Run σ) (blockHash : Crypto.Hash) : Run σ :=
  { r with
    context := { r.context with neededObjects := r.context.neededObjects ++ [blockHash] }
    events := r.events ++ [.pushNeeded blockHash] }

/-- `m_requested_objects.insert(blockHash)`. -/
def insertRequested (r : Run σ) (blockHash : Crypto.Hash) : Run σ :=
  { r with
    context := { r.context with requestedObjects := insert blockHash r.context.requestedObjects }
    events := r.events ++ [.insertRequested blockHash] }

def post (r : Run σ) (notify : Notify) : Run σ :=
  { r with events := r.events ++ [.post notify] }

/-- `state_idle`, with both object lists cleared. -/
def setIdle (r : Run σ) : Run σ :=
  let r := r.setState .idle
  { r with context := { r.context with neededObjects := [], requestedObjects := ∅ } }

/-- `m_core.addBlock(cachedBlock, rawBlock)`: its result, and the run with the core's new
state. -/
def addBlock (r : Run σ) (core : ICore σ) (cachedBlock : CachedBlock) (rawBlock : RawBlock) :
    ErrorCode × Run σ :=
  let (addResult, state) := core.addBlock r.core cachedBlock rawBlock
  (addResult, { r with core := state, events := r.events ++ [.addBlock cachedBlock.blockHash] })

/-- A handler's return value: where it returned, early or at its end. -/
def ofExit : Except (Run σ) (Run σ) → Run σ
  | .ok r => r
  | .error r => r

end Run

section

variable {σ : Type} (core : ICore σ)

/-! ## `request_missing_objects` -/

/-- The loop of `request_missing_objects` over `m_needed_objects`: up to
`BLOCKS_SYNCHRONIZING_DEFAULT_COUNT` ids are taken from the front, each requested and recorded as
requested unless `checkHavingBlocks` is set and the core has it. The blocks of the request, and
the run with the ids not reached left as needed. -/
def requestMissingObjectsLoop (checkHavingBlocks : Bool) :
    List Crypto.Hash → ℕ → List Crypto.Hash → Run σ → List Crypto.Hash × Run σ
  | [], _, blocks, r => (blocks, { r with context := { r.context with neededObjects := [] } })
  | it :: rest, count, blocks, r =>
    if count < BLOCKS_SYNCHRONIZING_DEFAULT_COUNT.toNat then
      if !(checkHavingBlocks && core.hasBlock r.core it) then
        requestMissingObjectsLoop checkHavingBlocks rest (count + 1) (blocks ++ [it])
          (r.insertRequested it)
      else requestMissingObjectsLoop checkHavingBlocks rest count blocks r
    else (blocks, { r with context := { r.context with neededObjects := it :: rest } })

/-- `requestMissingPoolTransactions(context)`. -/
def requestMissingPoolTransactions (r : Run σ) : Run σ :=
  if r.context.version < 1 then r
  else r.post (.requestTxPool (core.getPoolTransactionHashes r.core))

/-- `request_missing_objects(context, checkHavingBlocks)`: the objects still needed, else the
next chain entry, else the end of the synchronisation; `false` when the final condition fails.
`on_connection_synchronized` only notifies observers. -/
def requestMissingObjects (checkHavingBlocks : Bool) (r : Run σ) : Bool × Run σ :=
  if r.context.neededObjects ≠ [] then
    let (blocks, r) :=
      requestMissingObjectsLoop core checkHavingBlocks r.context.neededObjects 0 [] r
    (true, r.post (.requestGetObjects blocks))
  else if r.context.lastResponseHeight < r.context.remoteBlockchainHeight - 1 then
    (true, r.post (.requestChain (core.buildSparseChain r.core)))
  else if ¬(r.context.lastResponseHeight = r.context.remoteBlockchainHeight - 1 ∧
      r.context.neededObjects = [] ∧ r.context.requestedObjects = ∅) then (false, r)
  else (true, (requestMissingPoolTransactions core r).setState .normal)

/-! ## `handle_response_chain_entry` -/

/-- The loop of `handle_response_chain_entry` over the ids received: every id from the first
one the core does not have on is needed. -/
def pushNeededObjects (allBlocksKnown : Bool) : List Crypto.Hash → Run σ → Run σ
  | [], r => r
  | blockId :: blockIds, r =>
    if allBlocksKnown then
      if !core.hasBlock r.core blockId then pushNeededObjects false blockIds (r.pushNeeded blockId)
      else pushNeededObjects true blockIds r
    else pushNeededObjects false blockIds (r.pushNeeded blockId)

/-- `handle_response_chain_entry(command, arg, context)` on the core's state `s`. -/
def handleResponseChainEntry (arg : NotifyResponseChainEntryRequest) (s : σ)
    (context : CryptoNoteConnectionContext) : Run σ :=
  let r : Run σ := ⟨s, context, []⟩
  match arg.blockIds with
  | [] => r.setState .shutdown
  | front :: _ =>
    if !core.hasBlock r.core front then r.setState .shutdown
    else
      let r := { r with context := { r.context with
        remoteBlockchainHeight := arg.totalHeight
        lastResponseHeight := arg.startHeight + arg.blockIds.length.toUInt32 - 1 } }
      -- the connection is dropped, and the handler goes on
      let r := if r.context.lastResponseHeight > r.context.remoteBlockchainHeight then
          r.setState .shutdown
        else r
      let r := pushNeededObjects core true arg.blockIds r
      (requestMissingObjects core false r).2

/-! ## `handle_response_get_objects` -/

/-- The loop of `handle_response_get_objects` over the blocks received, from `index`: each must
parse, must have been requested and must come with as many transactions as its hashes; the
second one the core already has sends the connection to idle. `fromBinaryArray` parses a block
and builds its `CachedBlock`. The blocks parsed, or `.error` with the run where the handler
returns. -/
def checkReceivedBlocks (fromBinaryArray : BinaryArray → Option CachedBlock) :
    List RawBlock → ℕ → List CachedBlock → Run σ →
      Except (Run σ) (List CachedBlock × Run σ)
  | [], _, cachedBlocks, r => .ok (cachedBlocks, r)
  | rawBlock :: rawBlocks, index, cachedBlocks, r =>
    match fromBinaryArray rawBlock.block with
    | none => .error (r.setState .shutdown)
    | some cachedBlock =>
      if index = 1 ∧ core.hasBlock r.core cachedBlock.blockHash then .error r.setIdle
      else if cachedBlock.blockHash ∉ r.context.requestedObjects then .error (r.setState .shutdown)
      else if cachedBlock.block.transactionHashes.length ≠ rawBlock.transactions.length then
        .error (r.setState .shutdown)
      else
        checkReceivedBlocks fromBinaryArray rawBlocks (index + 1) (cachedBlocks ++ [cachedBlock])
          { r with context := { r.context with
            requestedObjects := r.context.requestedObjects.erase cachedBlock.blockHash } }

/-- `processObjects(context, rawBlocks, cachedBlocks)`: each block is passed to the core until
`m_stop` is set; a block the core refuses drops the connection, one it already has sends it to
idle. `.ok` for `0`, `.error` for a return of `1`. -/
def processObjects (stop : Bool) : List (CachedBlock × RawBlock) → Run σ → Except (Run σ) (Run σ)
  | [], r => .ok r
  | (cachedBlock, rawBlock) :: blocks, r =>
    if stop then .ok r
    else
      let (addResult, r) := r.addBlock core cachedBlock rawBlock
      if addResult.equivalent .BLOCK_VALIDATION_FAILED ||
          addResult.equivalent .TRANSACTION_VALIDATION_FAILED ||
          addResult.equivalent .DESERIALIZATION_FAILED then .error (r.setState .shutdown)
      else if addResult.equivalent .BLOCK_REJECTED then .error (r.setState .shutdown)
      else if addResult = .addBlock .ALREADY_EXISTS then .error r.setIdle
      else processObjects stop blocks r

/-- `handle_response_get_objects(command, arg, context)` on the core's state `s`, with the
handler's `m_stop` flag. `updateObservedHeight` only notifies observers. -/
def handleResponseGetObjects (fromBinaryArray : BinaryArray → Option CachedBlock) (stop : Bool)
    (arg : NotifyResponseGetObjectsRequest) (s : σ) (context : CryptoNoteConnectionContext) :
    Run σ :=
  Run.ofExit do
    let r : Run σ := ⟨s, context, []⟩
    if r.context.lastResponseHeight > arg.currentBlockchainHeight then
      throw (r.setState .shutdown)
    let r := { r with context := { r.context with
      remoteBlockchainHeight := arg.currentBlockchainHeight } }
    let rawBlocks := convertRawBlocksLegacyToRawBlocks arg.blocks
    let (cachedBlocks, r) ← checkReceivedBlocks core fromBinaryArray rawBlocks 0 [] r
    if r.context.requestedObjects ≠ ∅ then throw (r.setState .shutdown)
    let r ← processObjects core stop (cachedBlocks.zip rawBlocks) r
    if !stop && r.context.state = .synchronizing then
      pure (requestMissingObjects core true r).2
    else pure r

end

/-! ## Events after a shutdown -/

/-- A shutdown only as the last event is final. -/
theorem shutdownFinal_of_not_mem_dropLast {events : List Event}
    (h : Event.setState .shutdown ∉ events.dropLast) : ShutdownFinal events := by
  intro pre post heq e he
  have hpost : post ≠ [] := List.ne_nil_of_mem he
  refine absurd ?_ h
  rw [heq, List.dropLast_append_of_ne_nil (List.cons_ne_nil _ _), List.dropLast_cons_of_ne_nil hpost]
  simp

namespace Run

variable {σ : Type} {r r₁ r₂ : Run σ}

@[simp] theorem setState_events (r : Run σ) (state : ConnectionState) :
    (r.setState state).events = r.events ++ [.setState state] := rfl

@[simp] theorem setState_core (r : Run σ) (state : ConnectionState) :
    (r.setState state).core = r.core := rfl

@[simp] theorem setIdle_events (r : Run σ) : r.setIdle.events = r.events ++ [.setState .idle] :=
  rfl

@[simp] theorem pushNeeded_events (r : Run σ) (blockHash : Crypto.Hash) :
    (r.pushNeeded blockHash).events = r.events ++ [.pushNeeded blockHash] := rfl

@[simp] theorem pushNeeded_core (r : Run σ) (blockHash : Crypto.Hash) :
    (r.pushNeeded blockHash).core = r.core := rfl

@[simp] theorem pushNeeded_neededObjects (r : Run σ) (blockHash : Crypto.Hash) :
    (r.pushNeeded blockHash).context.neededObjects = r.context.neededObjects ++ [blockHash] := rfl

@[simp] theorem insertRequested_events (r : Run σ) (blockHash : Crypto.Hash) :
    (r.insertRequested blockHash).events = r.events ++ [.insertRequested blockHash] := rfl

@[simp] theorem insertRequested_core (r : Run σ) (blockHash : Crypto.Hash) :
    (r.insertRequested blockHash).core = r.core := rfl

@[simp] theorem post_events (r : Run σ) (notify : Notify) :
    (r.post notify).events = r.events ++ [.post notify] := rfl

/-- `r'` goes on from `r` with events that do not drop the connection. -/
def Quiet (r r' : Run σ) : Prop :=
  ∃ events, r'.events = r.events ++ events ∧ Event.setState .shutdown ∉ events

theorem Quiet.refl (r : Run σ) : Quiet r r :=
  ⟨[], by simp, by simp⟩

theorem Quiet.trans (h₁ : Quiet r r₁) (h₂ : Quiet r₁ r₂) : Quiet r r₂ := by
  obtain ⟨events₁, heq₁, hnot₁⟩ := h₁
  obtain ⟨events₂, heq₂, hnot₂⟩ := h₂
  exact ⟨events₁ ++ events₂, by rw [heq₂, heq₁, List.append_assoc], by simp [hnot₁, hnot₂]⟩

theorem quiet_of_events_eq (h : r₁.events = r.events) : Quiet r r₁ :=
  ⟨[], by simp [h], by simp⟩

theorem quiet_of_events_eq_append {e : Event} (h : r₁.events = r.events ++ [e])
    (he : e ≠ .setState .shutdown) : Quiet r r₁ :=
  ⟨[e], h, by simpa using he.symm⟩

theorem shutdownFinal_of_quiet (h : Quiet r₁ r) (hstart : r₁.events = []) :
    ShutdownFinal r.events := by
  obtain ⟨events, heq, hnot⟩ := h
  refine shutdownFinal_of_not_mem_dropLast fun hmem => hnot ?_
  rw [heq, hstart, List.nil_append] at hmem
  exact List.mem_of_mem_dropLast hmem

theorem shutdownFinal_of_quiet_append (h : Quiet r₁ r₂) {state : ConnectionState}
    (hevents : r.events = r₂.events ++ [.setState state]) (hstart : r₁.events = []) :
    ShutdownFinal r.events := by
  obtain ⟨events, heq, hnot⟩ := h
  refine shutdownFinal_of_not_mem_dropLast ?_
  rw [hevents, heq, hstart, List.nil_append, List.dropLast_concat]
  exact hnot

theorem quiet_foldl_pushNeeded (blockIds : List Crypto.Hash) (r : Run σ) :
    Quiet r (blockIds.foldl Run.pushNeeded r) := by
  induction blockIds generalizing r with
  | nil => exact Quiet.refl r
  | cons blockId blockIds ih =>
    exact (quiet_of_events_eq_append (pushNeeded_events r blockId) (by simp)).trans (ih _)

@[simp] theorem ofExit_ok (r : Run σ) : ofExit (.ok r) = r := rfl

@[simp] theorem ofExit_error (r : Run σ) : ofExit (.error r) = r := rfl

end Run

section

variable {σ : Type} (core : ICore σ)

open Run

/-! ## What each part of a handler records -/

theorem quiet_requestMissingObjectsLoop (checkHavingBlocks : Bool) (ids : List Crypto.Hash) :
    ∀ (count : ℕ) (blocks : List Crypto.Hash) (r : Run σ),
      Quiet r (requestMissingObjectsLoop core checkHavingBlocks ids count blocks r).2 := by
  induction ids with
  | nil => exact fun _ _ r => quiet_of_events_eq rfl
  | cons it rest ih =>
    intro count blocks r
    unfold requestMissingObjectsLoop
    split_ifs
    · exact (quiet_of_events_eq_append (insertRequested_events r it) (by simp)).trans (ih _ _ _)
    · exact ih _ _ _
    · exact quiet_of_events_eq rfl

theorem quiet_requestMissingObjects (checkHavingBlocks : Bool) (r : Run σ) :
    Quiet r (requestMissingObjects core checkHavingBlocks r).2 := by
  have hpool : Quiet r (requestMissingPoolTransactions core r) := by
    unfold requestMissingPoolTransactions
    split_ifs
    · exact Quiet.refl r
    · exact quiet_of_events_eq_append (post_events _ _) (by simp)
  unfold requestMissingObjects
  split_ifs
  · exact (quiet_requestMissingObjectsLoop core _ _ _ _ r).trans
      (quiet_of_events_eq_append (post_events _ _) (by simp))
  · exact quiet_of_events_eq_append (post_events _ _) (by simp)
  · exact hpool.trans (quiet_of_events_eq_append (setState_events _ _) (by simp))
  · exact Quiet.refl r

variable {fromBinaryArray : BinaryArray → Option CachedBlock} {r r' : Run σ}

theorem events_of_checkReceivedBlocks_ok {rawBlocks : List RawBlock} {index : ℕ}
    {cachedBlocks cachedBlocks' : List CachedBlock}
    (h : checkReceivedBlocks core fromBinaryArray rawBlocks index cachedBlocks r =
      .ok (cachedBlocks', r')) : r'.events = r.events := by
  induction rawBlocks generalizing index cachedBlocks r with
  | nil =>
    cases h
    rfl
  | cons rawBlock rawBlocks ih =>
    unfold checkReceivedBlocks at h
    split at h
    · cases h
    · split_ifs at h
      have hrest := ih h
      exact hrest

theorem events_of_checkReceivedBlocks_error {rawBlocks : List RawBlock} {index : ℕ}
    {cachedBlocks : List CachedBlock}
    (h : checkReceivedBlocks core fromBinaryArray rawBlocks index cachedBlocks r = .error r') :
    ∃ state, r'.events = r.events ++ [.setState state] := by
  induction rawBlocks generalizing index cachedBlocks r with
  | nil => cases h
  | cons rawBlock rawBlocks ih =>
    unfold checkReceivedBlocks at h
    split at h
    · cases h
      exact ⟨_, setState_events _ _⟩
    · -- `split_ifs` puts the recursive call before the check of an unrequested block
      split_ifs at h
      · cases h
        exact ⟨_, setIdle_events _⟩
      · cases h
        exact ⟨_, setState_events _ _⟩
      · obtain ⟨state, hstate⟩ := ih h
        exact ⟨state, hstate⟩
      · cases h
        exact ⟨_, setState_events _ _⟩

theorem addBlock_events (cachedBlock : CachedBlock) (rawBlock : RawBlock) :
    (r.addBlock core cachedBlock rawBlock).2.events = r.events ++ [.addBlock cachedBlock.blockHash] :=
  rfl

theorem quiet_of_processObjects_ok {stop : Bool} {blocks : List (CachedBlock × RawBlock)}
    (h : processObjects core stop blocks r = .ok r') : Quiet r r' := by
  induction blocks generalizing r with
  | nil =>
    cases h
    exact Quiet.refl _
  | cons block blocks ih =>
    obtain ⟨cachedBlock, rawBlock⟩ := block
    unfold processObjects at h
    split_ifs at h with hstop
    · cases h
      exact Quiet.refl _
    generalize hadd : r.addBlock core cachedBlock rawBlock = added at h
    obtain ⟨addResult, r₁⟩ := added
    have hquiet : Quiet r r₁ := by
      have hevents := addBlock_events core (r := r) cachedBlock rawBlock
      rw [hadd] at hevents
      exact quiet_of_events_eq_append hevents (by simp)
    dsimp only at h
    split_ifs at h
    exact hquiet.trans (ih h)

/-- Where passing blocks to the core makes the handler return, the state it sets is the last
event. -/
theorem events_of_processObjects_error {stop : Bool} {blocks : List (CachedBlock × RawBlock)}
    (h : processObjects core stop blocks r = .error r') :
    ∃ r₁ state, Quiet r r₁ ∧ r'.events = r₁.events ++ [.setState state] := by
  induction blocks generalizing r with
  | nil => cases h
  | cons block blocks ih =>
    obtain ⟨cachedBlock, rawBlock⟩ := block
    unfold processObjects at h
    split_ifs at h with hstop
    generalize hadd : r.addBlock core cachedBlock rawBlock = added at h
    obtain ⟨addResult, r₁⟩ := added
    have hquiet : Quiet r r₁ := by
      have hevents := addBlock_events core (r := r) cachedBlock rawBlock
      rw [hadd] at hevents
      exact quiet_of_events_eq_append hevents (by simp)
    dsimp only at h
    split_ifs at h
    · cases h
      exact ⟨r₁, _, hquiet, setState_events _ _⟩
    · cases h
      exact ⟨r₁, _, hquiet, setState_events _ _⟩
    · cases h
      exact ⟨r₁, _, hquiet, setIdle_events _⟩
    · obtain ⟨r₂, state, hquiet₂, hevents⟩ := ih h
      exact ⟨r₂, state, hquiet.trans hquiet₂, hevents⟩

theorem requestMissingObjects_of_ne_nil (checkHavingBlocks : Bool)
    (h : r.context.neededObjects ≠ []) :
    ∃ events blocks, (requestMissingObjects core checkHavingBlocks r).2.events =
      r.events ++ events ++ [.post (.requestGetObjects blocks)] := by
  obtain ⟨events, heq, -⟩ :=
    quiet_requestMissingObjectsLoop core checkHavingBlocks r.context.neededObjects 0 [] r
  refine ⟨events, (requestMissingObjectsLoop core checkHavingBlocks r.context.neededObjects 0 [] r).1,
    ?_⟩
  unfold requestMissingObjects
  rw [if_pos h]
  exact heq ▸ post_events _ _

theorem foldl_pushNeeded_events (blockIds : List Crypto.Hash) :
    ∀ r : Run σ, (blockIds.foldl Run.pushNeeded r).events = r.events ++ blockIds.map .pushNeeded := by
  induction blockIds with
  | nil => simp
  | cons blockId blockIds ih =>
    intro r
    rw [List.foldl_cons, ih, pushNeeded_events, List.map_cons, List.append_assoc,
      List.singleton_append]

theorem foldl_pushNeeded_neededObjects (blockIds : List Crypto.Hash) :
    ∀ r : Run σ, (blockIds.foldl Run.pushNeeded r).context.neededObjects =
      r.context.neededObjects ++ blockIds := by
  induction blockIds with
  | nil => simp
  | cons blockId blockIds ih =>
    intro r
    rw [List.foldl_cons, ih, pushNeeded_neededObjects, List.append_assoc, List.singleton_append]

/-- The ids `handle_response_chain_entry` adds as needed: every id from the first one the core
does not have on. -/
theorem pushNeededObjects_eq (allBlocksKnown : Bool) (blockIds : List Crypto.Hash) (r : Run σ) :
    pushNeededObjects core allBlocksKnown blockIds r =
      (if allBlocksKnown then blockIds.dropWhile (core.hasBlock r.core ·) else blockIds).foldl
        Run.pushNeeded r := by
  induction blockIds generalizing allBlocksKnown r with
  | nil => cases allBlocksKnown <;> rfl
  | cons blockId blockIds ih =>
    cases allBlocksKnown with
    | false => rw [pushNeededObjects, if_neg Bool.false_ne_true, ih, if_neg Bool.false_ne_true]; rfl
    | true =>
      by_cases hknown : core.hasBlock r.core blockId = true
      · rw [pushNeededObjects, if_pos rfl, if_neg (by simp [hknown]), ih, if_pos rfl, if_pos rfl,
          List.dropWhile_cons_of_pos hknown]
      · rw [pushNeededObjects, if_pos rfl, if_pos (by simpa using hknown), ih, if_neg Bool.false_ne_true,
          if_pos rfl, List.dropWhile_cons_of_neg hknown]
        rfl

/-! ## After a shutdown -/

/-- `handle_response_get_objects` returns as soon as it drops the connection: after the
shutdown it records nothing. -/
theorem handleResponseGetObjects_shutdownFinal (fromBinaryArray : BinaryArray → Option CachedBlock)
    (stop : Bool) (arg : NotifyResponseGetObjectsRequest) (s : σ)
    (context : CryptoNoteConnectionContext) :
    ShutdownFinal (handleResponseGetObjects core fromBinaryArray stop arg s context).events := by
  unfold handleResponseGetObjects
  simp only [bind, Except.bind]
  split_ifs with hheight
  · exact shutdownFinal_of_quiet_append (Quiet.refl _) (setState_events _ _) rfl
  split
  · -- a block fails its checks
    rename_i r₁ hcheck
    obtain ⟨state, hevents⟩ := events_of_checkReceivedBlocks_error core hcheck
    exact shutdownFinal_of_quiet_append (Quiet.refl _) hevents rfl
  rename_i cachedBlocks r₁ hcheck
  have hquiet₁ := quiet_of_events_eq (events_of_checkReceivedBlocks_ok core hcheck)
  split_ifs with hrequested
  · exact shutdownFinal_of_quiet_append hquiet₁ (setState_events _ _) rfl
  split
  · -- the core refuses a block, or already has it
    rename_i r₂ hprocess
    obtain ⟨r₃, state, hquiet₃, hevents⟩ := events_of_processObjects_error core hprocess
    exact shutdownFinal_of_quiet_append (hquiet₁.trans hquiet₃) hevents rfl
  rename_i r₂ hprocess
  have hquiet₂ := hquiet₁.trans (quiet_of_processObjects_ok core hprocess)
  split_ifs
  · exact shutdownFinal_of_quiet (hquiet₂.trans (quiet_requestMissingObjects core true r₂)) rfl
  · exact shutdownFinal_of_quiet hquiet₂ rfl

/-- When the peer's chain entry ends above the height it reports, `handle_response_chain_entry`
drops the connection and goes on: it adds the ids the core does not have to the objects needed
and requests them from the peer. -/
theorem handleResponseChainEntry_requests_after_shutdown {arg : NotifyResponseChainEntryRequest}
    {s : σ} (context : CryptoNoteConnectionContext) {front : Crypto.Hash}
    {rest : List Crypto.Hash} (hblockIds : arg.blockIds = front :: rest)
    (hfront : core.hasBlock s front = true)
    (hheight : arg.totalHeight < arg.startHeight + arg.blockIds.length.toUInt32 - 1)
    (hunknown : ∃ blockId ∈ arg.blockIds, core.hasBlock s blockId = false) :
    ∃ pre post, (handleResponseChainEntry core arg s context).events =
        pre ++ .setState .shutdown :: post ∧
      (∃ blockId, .pushNeeded blockId ∈ post) ∧ ∃ blocks, .post (.requestGetObjects blocks) ∈ post := by
  -- an id is unknown, so some ids are pushed
  obtain ⟨unknown, hmem, hnot⟩ := hunknown
  have hneeded : (arg.blockIds.dropWhile (core.hasBlock s ·)) ≠ [] := by
    rw [Ne, List.dropWhile_eq_nil_iff]
    exact fun hall => absurd (hall unknown hmem) (by simp [hnot])
  obtain ⟨needed, neededIds, hcons⟩ := List.exists_cons_of_ne_nil hneeded
  unfold handleResponseChainEntry
  rw [hblockIds] at hheight hcons ⊢
  dsimp only
  rw [if_neg (by simp [hfront]), if_pos hheight, pushNeededObjects_eq, if_pos rfl, setState_core,
    hcons]
  set r₁ := (needed :: neededIds).foldl Run.pushNeeded
    (Run.setState ⟨s, { context with
      remoteBlockchainHeight := arg.totalHeight
      lastResponseHeight := arg.startHeight + (front :: rest).length.toUInt32 - 1 }, []⟩ .shutdown)
  have hr₁ : r₁.context.neededObjects ≠ [] := by
    simp [r₁, foldl_pushNeeded_neededObjects]
  obtain ⟨events, blocks, hrequest⟩ := requestMissingObjects_of_ne_nil core false hr₁
  refine ⟨[], (needed :: neededIds).map .pushNeeded ++ events ++ [.post (.requestGetObjects blocks)],
    ?_, ⟨needed, by simp⟩, ⟨blocks, by simp⟩⟩
  rw [hrequest, foldl_pushNeeded_events, setState_events]
  simp

theorem handleResponseChainEntry_requests_after_shutdown_ahead :
    (⟨10, 5, [⟨0⟩, ⟨1⟩]⟩ : NotifyResponseChainEntryRequest).blockIds = ⟨0⟩ :: [⟨1⟩] ∧
      (ICore.knowing ⟨0⟩).hasBlock () ⟨0⟩ = true ∧
      (⟨10, 5, [⟨0⟩, ⟨1⟩]⟩ : NotifyResponseChainEntryRequest).totalHeight <
        (⟨10, 5, [⟨0⟩, ⟨1⟩]⟩ : NotifyResponseChainEntryRequest).startHeight +
          (⟨10, 5, [⟨0⟩, ⟨1⟩]⟩ : NotifyResponseChainEntryRequest).blockIds.length.toUInt32 - 1 ∧
      (∃ blockId ∈ (⟨10, 5, [⟨0⟩, ⟨1⟩]⟩ : NotifyResponseChainEntryRequest).blockIds,
        (ICore.knowing ⟨0⟩).hasBlock () blockId = false) ∧
      ∃ pre post, (handleResponseChainEntry (ICore.knowing ⟨0⟩) ⟨10, 5, [⟨0⟩, ⟨1⟩]⟩ ()
          ⟨1, .synchronizing, [], ∅, 0, 0⟩).events = pre ++ .setState .shutdown :: post ∧
        (∃ blockId, .pushNeeded blockId ∈ post) ∧ ∃ blocks, .post (.requestGetObjects blocks) ∈ post :=
  have hfront : (ICore.knowing ⟨0⟩).hasBlock () ⟨0⟩ = true := by decide
  have hheight : (5 : UInt32) < 10 + ([⟨0⟩, ⟨1⟩] : List Crypto.Hash).length.toUInt32 - 1 := by
    decide
  have hunknown : ∃ blockId ∈ ([⟨0⟩, ⟨1⟩] : List Crypto.Hash),
      (ICore.knowing ⟨0⟩).hasBlock () blockId = false := ⟨⟨1⟩, by simp, by decide⟩
  ⟨rfl, hfront, hheight, hunknown,
    handleResponseChainEntry_requests_after_shutdown _ _ rfl hfront hheight hunknown⟩

/-- The other paths of `handle_response_chain_entry` keep to it: an empty or unknown start drops
the connection and returns, and a chain entry within the height the peer reports does not drop
it. -/
theorem handleResponseChainEntry_shutdownFinal {arg : NotifyResponseChainEntryRequest} {s : σ}
    (context : CryptoNoteConnectionContext)
    (hheight : arg.startHeight + arg.blockIds.length.toUInt32 - 1 ≤ arg.totalHeight) :
    ShutdownFinal (handleResponseChainEntry core arg s context).events := by
  unfold handleResponseChainEntry
  split
  · exact shutdownFinal_of_quiet_append (Quiet.refl _) (setState_events _ _) rfl
  dsimp only
  split_ifs with hfront hlast
  · exact shutdownFinal_of_quiet_append (Quiet.refl _) (setState_events _ _) rfl
  · exact absurd hlast (UInt32.not_lt.2 hheight)
  · -- only the ids pushed and the requests follow
    rw [pushNeededObjects_eq]
    exact shutdownFinal_of_quiet
      ((quiet_foldl_pushNeeded _ _).trans (quiet_requestMissingObjects core false _)) rfl

end

end CryptoNote
