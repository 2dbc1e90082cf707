import Traaitt.CryptoNote.Types
import Traaitt.Config.CryptoNoteConfig
import Traaitt.Library.Lists

/-! `SubWallet`: the inputs one spend key owns, in three lists (unspent, locked by an
outgoing transaction, spent) next to the amounts of our own change that are still
unconfirmed. Inputs move between the lists as transactions are sent, confirmed, forked
away or cancelled; every move keeps the multiset of key images or shrinks it. -/

namespace WalletTypes

/-- The fields of `WalletTypes::TransactionInput` that the modelled functions read. -/
structure TransactionInput where
  keyImage : Crypto.KeyImage
  amount : UInt64
  blockHeight : UInt64
  transactionPublicKey : Crypto.PublicKey
  transactionIndex : UInt64
  globalOutputIndex : Option UInt64
  key : Crypto.PublicKey
  spendHeight : UInt64
  unlockTime : UInt64
  parentTransactionHash : Crypto.Hash
  deriving DecidableEq, Repr

structure UnconfirmedInput where
  amount : UInt64
  key : Crypto.PublicKey
  parentTransactionHash : Crypto.Hash
  deriving DecidableEq, Repr

/-- The fields of `WalletTypes::Transaction` that the modelled functions read. -/
structure Transaction where
  hash : Crypto.Hash
  blockHeight : UInt64
  deriving DecidableEq, Repr

end WalletTypes

namespace Utilities

open CryptoNote.parameters in
/-- `Utilities::isInputUnlocked`; `currentTime` is the clock reading `std::time(nullptr)`. -/
def isInputUnlocked (unlockTime currentHeight currentTime : UInt64) : Bool :=
  if unlockTime = 0 then true
  else if unlockTime ≥ CRYPTONOTE_MAX_BLOCK_NUMBER.toUInt64 then
    currentTime + CRYPTONOTE_LOCKED_TX_ALLOWED_DELTA_SECONDS ≥ unlockTime
  else currentHeight + CRYPTONOTE_LOCKED_TX_ALLOWED_DELTA_BLOCKS ≥ unlockTime

end Utilities

/-- The fields of `SubWallet` that the modelled functions read. -/
structure SubWallet where
  m_unspentInputs : List WalletTypes.TransactionInput
  m_lockedInputs : List WalletTypes.TransactionInput
  m_spentInputs : List WalletTypes.TransactionInput
  m_unconfirmedIncomingAmounts : List WalletTypes.UnconfirmedInput
  deriving DecidableEq, Repr

namespace SubWallet

/-- A subwallet that holds nothing yet. -/
def empty : SubWallet := ⟨[], [], [], []⟩

/-- A view wallet cannot derive key images, so it leaves the unconfirmed change alone. -/
def storeTransactionInput (w : SubWallet) (input : WalletTypes.TransactionInput)
    (isViewWallet : Bool) : SubWallet :=
  let unconfirmed :=
    if isViewWallet then w.m_unconfirmedIncomingAmounts
    else w.m_unconfirmedIncomingAmounts.filter (fun stored => stored.key != input.key)
  { w with m_unconfirmedIncomingAmounts := unconfirmed
           m_unspentInputs := w.m_unspentInputs ++ [input] }

def storeUnconfirmedIncomingInput (w : SubWallet) (input : WalletTypes.UnconfirmedInput) :
    SubWallet :=
  { w with m_unconfirmedIncomingAmounts := w.m_unconfirmedIncomingAmounts ++ [input] }

/-- `(unlocked, locked)`: unspent inputs by their unlock time, plus the unconfirmed change
as locked, summed in `uint64_t`. -/
def getBalance (w : SubWallet) (currentHeight currentTime : UInt64) : UInt64 × UInt64 :=
  let balances := w.m_unspentInputs.foldl
    (fun (b : UInt64 × UInt64) input =>
      if Utilities.isInputUnlocked input.unlockTime currentHeight currentTime then
        (b.1 + input.amount, b.2)
      else (b.1, b.2 + input.amount)) (0, 0)
  (balances.1, w.m_unconfirmedIncomingAmounts.foldl (fun locked u => locked + u.amount) balances.2)

/-- Looks in the unspent inputs, then in the locked ones; a key image found in neither is
only logged. -/
def markInputAsSpent (w : SubWallet) (keyImage : Crypto.KeyImage) (spendHeight : UInt64) :
    SubWallet :=
  match w.m_unspentInputs.find? (·.keyImage == keyImage) with
  | some input =>
    { w with m_spentInputs := w.m_spentInputs ++ [{ input with spendHeight }]
             m_unspentInputs := w.m_unspentInputs.eraseP (·.keyImage == keyImage) }
  | none =>
    match w.m_lockedInputs.find? (·.keyImage == keyImage) with
    | some input =>
      { w with m_spentInputs := w.m_spentInputs ++ [{ input with spendHeight }]
               m_lockedInputs := w.m_lockedInputs.eraseP (·.keyImage == keyImage) }
    | none => w

def markInputAsLocked (w : SubWallet) (keyImage : Crypto.KeyImage) : SubWallet :=
  match w.m_unspentInputs.find? (·.keyImage == keyImage) with
  | none => w
  | some input =>
    { w with m_lockedInputs := w.m_lockedInputs ++ [input]
             m_unspentInputs := w.m_unspentInputs.eraseP (·.keyImage == keyImage) }

/-- The four passes of `removeForkedInputs`: inputs received at or after the fork height
leave the locked, unspent and spent lists (their key images are collected in that order),
then the remaining inputs spent at or after it go back to the unspent list. -/
def removeForkedInputs (w : SubWallet) (forkHeight : UInt64) (isViewWallet : Bool) :
    SubWallet × List Crypto.KeyImage :=
  let isForked := fun (input : WalletTypes.TransactionInput) => decide (input.blockHeight ≥ forkHeight)
  let keyImagesToRemove :=
    (w.m_lockedInputs.filter isForked ++ w.m_unspentInputs.filter isForked ++
      w.m_spentInputs.filter isForked).map (·.keyImage)
  let spent := w.m_spentInputs.filter (!isForked ·)
  let spentAfterFork :=
    fun (input : WalletTypes.TransactionInput) => decide (input.spendHeight ≥ forkHeight)
  ({ m_unconfirmedIncomingAmounts := []
     m_lockedInputs := w.m_lockedInputs.filter (!isForked ·)
     m_unspentInputs := w.m_unspentInputs.filter (!isForked ·) ++
       (spent.filter spentAfterFork).map (fun input => { input with spendHeight := 0 })
     m_spentInputs := spent.filter (!spentAfterFork ·) },
   if isViewWallet then [] else keyImagesToRemove)

/-- Locked inputs whose `parentTransactionHash` is a cancelled hash go back to the unspent
list, and unconfirmed change from a cancelled transaction is dropped. -/
def removeCancelledTransactions (w : SubWallet) (cancelledTransactions : Finset Crypto.Hash) :
    SubWallet :=
  let isCancelled := fun (input : WalletTypes.TransactionInput) =>
    decide (input.parentTransactionHash ∈ cancelledTransactions)
  { w with
    m_unspentInputs := w.m_unspentInputs ++
      (w.m_lockedInputs.filter isCancelled).map (fun input => { input with spendHeight := 0 })
    m_lockedInputs := w.m_lockedInputs.filter (!isCancelled ·)
    m_unconfirmedIncomingAmounts := w.m_unconfirmedIncomingAmounts.filter
      (fun input => !decide (input.parentTransactionHash ∈ cancelledTransactions)) }

def pruneSpentInputs (w : SubWallet) (pruneHeight : UInt64) : SubWallet :=
  { w with m_spentInputs := w.m_spentInputs.filter (fun input => !decide (input.spendHeight ≤ pruneHeight)) }

/-- The key images of the unspent, locked and spent inputs, in that order. -/
def getKeyImages (w : SubWallet) : List Crypto.KeyImage :=
  w.m_unspentInputs.map (·.keyImage) ++ w.m_lockedInputs.map (·.keyImage) ++
    w.m_spentInputs.map (·.keyImage)

end SubWallet

namespace SubWallet

open scoped List

/-! ### Where the key images go -/

theorem getKeyImages_storeTransactionInput (w : SubWallet) (input : WalletTypes.TransactionInput)
    (isViewWallet : Bool) :
    (w.storeTransactionInput input isViewWallet).getKeyImages ~ input.keyImage :: w.getKeyImages := by
  rw [List.perm_iff_count]
  intro x
  simp only [storeTransactionInput, getKeyImages, List.map_append, List.map_cons, List.map_nil,
    List.count_append, List.count_cons, List.count_nil]
  omega

theorem getKeyImages_markInputAsLocked (w : SubWallet) (keyImage : Crypto.KeyImage) :
    (w.markInputAsLocked keyImage).getKeyImages ~ w.getKeyImages := by
  unfold markInputAsLocked
  split
  · rfl
  · rename_i input hfind
    -- the input leaves the unspent list and is appended to the locked one
    have hmove := (ListContainer.perm_cons_eraseP_of_find? hfind).map (·.keyImage)
    rw [List.perm_iff_count] at hmove ⊢
    intro x
    have hx := hmove x
    simp only [getKeyImages, List.map_append, List.map_cons, List.map_nil, List.count_append,
      List.count_cons, List.count_nil] at hx ⊢
    omega

theorem getKeyImages_markInputAsSpent (w : SubWallet) (keyImage : Crypto.KeyImage)
    (spendHeight : UInt64) :
    (w.markInputAsSpent keyImage spendHeight).getKeyImages ~ w.getKeyImages := by
  unfold markInputAsSpent
  split
  · rename_i input hfind
    have hmove := (ListContainer.perm_cons_eraseP_of_find? hfind).map (·.keyImage)
    rw [List.perm_iff_count] at hmove ⊢
    intro x
    have hx := hmove x
    simp only [getKeyImages, List.map_append, List.map_cons, List.map_nil, List.count_append,
      List.count_cons, List.count_nil] at hx ⊢
    omega
  · split
    · rename_i input hfind
      have hmove := (ListContainer.perm_cons_eraseP_of_find? hfind).map (·.keyImage)
      rw [List.perm_iff_count] at hmove ⊢
      intro x
      have hx := hmove x
      simp only [getKeyImages, List.map_append, List.map_cons, List.map_nil, List.count_append,
        List.count_cons, List.count_nil] at hx ⊢
      omega
    · rfl

theorem getKeyImages_removeCancelledTransactions (w : SubWallet)
    (cancelledTransactions : Finset Crypto.Hash) :
    (w.removeCancelledTransactions cancelledTransactions).getKeyImages ~ w.getKeyImages := by
  rw [List.perm_iff_count]
  intro x
  have hsplit := ListContainer.count_map_filter_add (·.keyImage)
    (fun input : WalletTypes.TransactionInput =>
      decide (input.parentTransactionHash ∈ cancelledTransactions)) w.m_lockedInputs x
  simp only [removeCancelledTransactions, getKeyImages, List.map_append, List.map_map,
    List.count_append] at hsplit ⊢
  simp only [Function.comp_def] at hsplit ⊢
  omega

theorem getKeyImages_pruneSpentInputs (w : SubWallet) (pruneHeight : UInt64) :
    (w.pruneSpentInputs pruneHeight).getKeyImages <+ w.getKeyImages := by
  simp only [pruneSpentInputs, getKeyImages]
  exact (List.filter_sublist.map _).append_left _

/-- The key images a non-view subwallet reports from `removeForkedInputs` are exactly the
ones its lists lose. -/
theorem getKeyImages_removeForkedInputs (w : SubWallet) (forkHeight : UInt64) :
    w.getKeyImages ~
      (w.removeForkedInputs forkHeight false).1.getKeyImages ++
        (w.removeForkedInputs forkHeight false).2 := by
  rw [List.perm_iff_count]
  intro x
  have hlocked := ListContainer.count_map_filter_add (·.keyImage)
    (fun input : WalletTypes.TransactionInput => decide (input.blockHeight ≥ forkHeight))
    w.m_lockedInputs x
  have hunspent := ListContainer.count_map_filter_add (·.keyImage)
    (fun input : WalletTypes.TransactionInput => decide (input.blockHeight ≥ forkHeight))
    w.m_unspentInputs x
  have hspent := ListContainer.count_map_filter_add (·.keyImage)
    (fun input : WalletTypes.TransactionInput => decide (input.blockHeight ≥ forkHeight))
    w.m_spentInputs x
  -- the kept spent inputs split again by their spend height
  have hback := ListContainer.count_map_filter_add (·.keyImage)
    (fun input : WalletTypes.TransactionInput => decide (input.spendHeight ≥ forkHeight))
    (w.m_spentInputs.filter (fun input => !decide (input.blockHeight ≥ forkHeight))) x
  simp only [removeForkedInputs, getKeyImages, Bool.false_eq_true, if_false, List.map_append,
    List.map_map, List.count_append] at hlocked hunspent hspent hback ⊢
  simp only [Function.comp_def] at hlocked hunspent hspent hback ⊢
  omega

/-! ### Where one input goes -/

theorem mem_lockedInputs_markInputAsLocked (w : SubWallet) (keyImage : Crypto.KeyImage)
    {input : WalletTypes.TransactionInput} (h : input ∈ w.m_lockedInputs) :
    input ∈ (w.markInputAsLocked keyImage).m_lockedInputs := by
  unfold markInputAsLocked
  split
  · exact h
  · exact List.mem_append_left _ h

theorem mem_unspentInputs_markInputAsLocked (w : SubWallet) {keyImage : Crypto.KeyImage}
    {input : WalletTypes.TransactionInput} (h : input ∈ w.m_unspentInputs)
    (hne : input.keyImage ≠ keyImage) :
    input ∈ (w.markInputAsLocked keyImage).m_unspentInputs := by
  unfold markInputAsLocked
  split
  · exact h
  · exact (List.mem_eraseP_of_neg (by simpa using hne)).2 h

/-- With distinct key images among the unspent inputs, locking an unspent input's key image
locks that very input. -/
theorem markInputAsLocked_locks (w : SubWallet) {input : WalletTypes.TransactionInput}
    (hnd : (w.m_unspentInputs.map (·.keyImage)).Nodup) (h : input ∈ w.m_unspentInputs) :
    input ∈ (w.markInputAsLocked input.keyImage).m_lockedInputs := by
  unfold markInputAsLocked
  split
  · rename_i hfind
    exact absurd (by simp) (List.find?_eq_none.1 hfind input h)
  · rename_i found hfind
    have hkey : found.keyImage = input.keyImage := by simpa using List.find?_some hfind
    have hfound : found = input :=
      List.inj_on_of_nodup_map hnd (List.mem_of_find?_eq_some hfind) h hkey
    simp [hfound]

theorem mem_lockedInputs_removeCancelledTransactions {w : SubWallet}
    {cancelledTransactions : Finset Crypto.Hash} {input : WalletTypes.TransactionInput} :
    input ∈ (w.removeCancelledTransactions cancelledTransactions).m_lockedInputs ↔
      input ∈ w.m_lockedInputs ∧ input.parentTransactionHash ∉ cancelledTransactions := by
  simp [removeCancelledTransactions]

/-! ### After a fork -/

/-- Nothing received at or after `forkHeight` is held, and nothing is recorded as spent at
or after it. -/
def ForkFree (w : SubWallet) (forkHeight : UInt64) : Prop :=
  (∀ input ∈ w.m_unspentInputs ++ w.m_lockedInputs ++ w.m_spentInputs,
      input.blockHeight < forkHeight) ∧
    ∀ input ∈ w.m_spentInputs, input.spendHeight < forkHeight

theorem forkFree_removeForkedInputs (w : SubWallet) (forkHeight : UInt64) (isViewWallet : Bool) :
    (w.removeForkedInputs forkHeight isViewWallet).1.ForkFree forkHeight := by
  constructor
  · intro input hinput
    simp only [removeForkedInputs, List.mem_append, List.mem_filter, List.mem_map,
      Bool.not_eq_true', decide_eq_false_iff_not, UInt64.not_le] at hinput
    -- the inputs moved back from the spent list keep their block height
    rcases hinput with ((⟨-, h⟩ | ⟨moved, ⟨⟨-, h⟩, -⟩, rfl⟩) | ⟨-, h⟩) | ⟨⟨-, h⟩, -⟩
    all_goals simpa using h
  · intro input hinput
    simp only [removeForkedInputs, List.mem_filter, Bool.not_eq_true', decide_eq_false_iff_not,
      UInt64.not_le] at hinput
    exact hinput.2

end SubWallet
