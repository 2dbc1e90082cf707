import Traaitt.SubWallets.SubWallet
import Traaitt.Library.Except
import Mathlib.Logic.Relation

/-! `SubWallets`: the subwallets of one wallet by public spend key, the owner of every key
image they hold, and the transactions sent but not yet seen in a block. In a non-view
wallet every key image is held once, by one subwallet, and the owners map names it. -/

/-- The fields of `SubWallets` that the modelled functions read. `m_subWallets` is an
`std::unordered_map`, so its keys are distinct. -/
structure SubWallets where
  m_subWallets : List (Crypto.PublicKey × SubWallet)
  m_subWallets_nodup : (m_subWallets.map Prod.fst).Nodup
  m_publicSpendKeys : List Crypto.PublicKey
  m_keyImageOwners : Crypto.KeyImage → Option Crypto.PublicKey
  m_lockedTransactions : List WalletTypes.Transaction
  m_transactions : List WalletTypes.Transaction
  m_isViewWallet : Bool

namespace SubWallets

/-- The constructor for a private spend key: one empty subwallet under the public spend key
`secret_key_to_public_key` derives from it. -/
def create (publicSpendKey : Crypto.PublicKey) : SubWallets where
  m_subWallets := [(publicSpendKey, SubWallet.empty)]
  m_subWallets_nodup := List.nodup_singleton _
  m_publicSpendKeys := [publicSpendKey]
  m_keyImageOwners := fun _ => none
  m_lockedTransactions := []
  m_transactions := []
  m_isViewWallet := false

/-- `m_subWallets.find(publicSpendKey)`. -/
def findSubWallet (ws : SubWallets) (publicSpendKey : Crypto.PublicKey) : Option SubWallet :=
  (ws.m_subWallets.find? (·.1 == publicSpendKey)).map Prod.snd

/-- `m_subWallets.at(publicSpendKey)`, which throws `std::out_of_range`. -/
def subWalletAt (ws : SubWallets) (publicSpendKey : Crypto.PublicKey) :
    Except String SubWallet :=
  match ws.findSubWallet publicSpendKey with
  | some w => .ok w
  | none => .error "_Map_base::at"

/-- The loops `for (auto &[pubKey, subWallet] : m_subWallets)`. -/
def mapSubWallets (ws : SubWallets) (f : Crypto.PublicKey → SubWallet → SubWallet) :
    SubWallets :=
  { ws with
    m_subWallets := ws.m_subWallets.map fun e => (e.1, f e.1 e.2)
    m_subWallets_nodup := by simpa [Function.comp_def] using ws.m_subWallets_nodup }

/-- A call on the subwallet of `publicSpendKey`, when there is one. -/
def updateSubWallet (ws : SubWallets) (publicSpendKey : Crypto.PublicKey)
    (f : SubWallet → SubWallet) : SubWallets :=
  ws.mapSubWallets fun pk w => if pk = publicSpendKey then f w else w

def throwIfViewWallet (ws : SubWallets) : Except String Unit :=
  if ws.m_isViewWallet then
    .error "Wallet is a view wallet, but this function cannot be called in a view wallet"
  else .ok ()

/-- A non-view wallet records the owner of the new key image before storing the input. -/
def storeTransactionInput (ws : SubWallets) (publicSpendKey : Crypto.PublicKey)
    (input : WalletTypes.TransactionInput) : Except String SubWallets :=
  match ws.findSubWallet publicSpendKey with
  | none => .error "Subwallet not found!"
  | some _ =>
    let owners :=
      if !ws.m_isViewWallet then
        Function.update ws.m_keyImageOwners input.keyImage (some publicSpendKey)
      else ws.m_keyImageOwners
    .ok ({ ws with m_keyImageOwners := owners }.updateSubWallet publicSpendKey
      (·.storeTransactionInput input ws.m_isViewWallet))

def storeUnconfirmedIncomingInput (ws : SubWallets) (input : WalletTypes.UnconfirmedInput)
    (publicSpendKey : Crypto.PublicKey) : SubWallets :=
  ws.updateSubWallet publicSpendKey (·.storeUnconfirmedIncomingInput input)

def markInputAsSpent (ws : SubWallets) (keyImage : Crypto.KeyImage)
    (publicKey : Crypto.PublicKey) (spendHeight : UInt64) : Except String SubWallets := do
  ws.throwIfViewWallet
  let _ ← ws.subWalletAt publicKey
  pure (ws.updateSubWallet publicKey (·.markInputAsSpent keyImage spendHeight))

def markInputAsLocked (ws : SubWallets) (keyImage : Crypto.KeyImage)
    (publicKey : Crypto.PublicKey) : Except String SubWallets := do
  ws.throwIfViewWallet
  let _ ← ws.subWalletAt publicKey
  pure (ws.updateSubWallet publicKey (·.markInputAsLocked keyImage))

/-- Drops the transactions at or above the fork, then the forked inputs of every subwallet,
then the owners of the key images the subwallets report. -/
def removeForkedTransactions (ws : SubWallets) (forkHeight : UInt64) : SubWallets :=
  let keyImagesToRemove := ws.m_subWallets.flatMap fun e =>
    (e.2.removeForkedInputs forkHeight ws.m_isViewWallet).2
  { ws.mapSubWallets (fun _ w => (w.removeForkedInputs forkHeight ws.m_isViewWallet).1) with
    m_transactions := ws.m_transactions.filter fun tx => !decide (tx.blockHeight ≥ forkHeight)
    m_keyImageOwners := keyImagesToRemove.foldl
      (fun owners keyImage => Function.update owners keyImage none) ws.m_keyImageOwners }

def removeCancelledTransactions (ws : SubWallets) (cancelledTransactions : Finset Crypto.Hash) :
    Except String SubWallets := do
  ws.throwIfViewWallet
  pure { ws.mapSubWallets (fun _ w => w.removeCancelledTransactions cancelledTransactions) with
    m_lockedTransactions := ws.m_lockedTransactions.filter
      fun tx => !decide (tx.hash ∈ cancelledTransactions) }

def pruneSpentInputs (ws : SubWallets) (pruneHeight : UInt64) : SubWallets :=
  ws.mapSubWallets fun _ w => w.pruneSpentInputs pruneHeight

/-- A transaction already among the locked ones is only logged. -/
def addUnconfirmedTransaction (ws : SubWallets) (tx : WalletTypes.Transaction) : SubWallets :=
  if ws.m_lockedTransactions.any (·.hash == tx.hash) then ws
  else { ws with m_lockedTransactions := ws.m_lockedTransactions ++ [tx] }

/-- `(unlocked, locked)` summed over the given subwallets, or over all of them; a key that
is not a subwallet makes `at` throw. -/
def getBalance (ws : SubWallets) (subWalletsToTakeFrom : List Crypto.PublicKey)
    (takeFromAll : Bool) (currentHeight currentTime : UInt64) :
    Except String (UInt64 × UInt64) :=
  let keys := if takeFromAll then ws.m_publicSpendKeys else subWalletsToTakeFrom
  keys.foldlM (fun (balance : UInt64 × UInt64) pubKey => do
    let w ← ws.subWalletAt pubKey
    let (unlocked, locked) := w.getBalance currentHeight currentTime
    pure (balance.1 + unlocked, balance.2 + locked)) (0, 0)

end SubWallets

namespace SubWallets

open scoped List

variable {ws ws' : SubWallets}

/-! ### Subwallets by key -/

theorem mem_mapSubWallets {f : Crypto.PublicKey → SubWallet → SubWallet}
    {e : Crypto.PublicKey × SubWallet} :
    e ∈ (ws.mapSubWallets f).m_subWallets ↔ ∃ e₀ ∈ ws.m_subWallets, (e₀.1, f e₀.1 e₀.2) = e :=
  List.mem_map

theorem eq_of_mem_of_mem {pk : Crypto.PublicKey} {w₁ w₂ : SubWallet}
    (h₁ : (pk, w₁) ∈ ws.m_subWallets) (h₂ : (pk, w₂) ∈ ws.m_subWallets) : w₁ = w₂ := by
  have h := List.inj_on_of_nodup_map ws.m_subWallets_nodup h₁ h₂ rfl
  exact (Prod.mk.inj h).2

theorem markInputAsSpent_eq_ok {keyImage : Crypto.KeyImage} {publicKey : Crypto.PublicKey}
    {spendHeight : UInt64} (h : ws.markInputAsSpent keyImage publicKey spendHeight = .ok ws') :
    ws' = ws.updateSubWallet publicKey (·.markInputAsSpent keyImage spendHeight) := by
  simp only [markInputAsSpent, ExceptRun.bind_eq_ok, ExceptRun.pure_eq_ok] at h
  obtain ⟨-, -, -, -, rfl⟩ := h
  rfl

theorem markInputAsLocked_eq_ok {keyImage : Crypto.KeyImage} {publicKey : Crypto.PublicKey}
    (h : ws.markInputAsLocked keyImage publicKey = .ok ws') :
    ws' = ws.updateSubWallet publicKey (·.markInputAsLocked keyImage) := by
  simp only [markInputAsLocked, ExceptRun.bind_eq_ok, ExceptRun.pure_eq_ok] at h
  obtain ⟨-, -, -, -, rfl⟩ := h
  rfl

theorem removeCancelledTransactions_eq_ok {cancelledTransactions : Finset Crypto.Hash}
    (h : ws.removeCancelledTransactions cancelledTransactions = .ok ws') :
    ws'.m_subWallets =
      (ws.mapSubWallets fun _ w => w.removeCancelledTransactions cancelledTransactions).m_subWallets ∧
    ws'.m_keyImageOwners = ws.m_keyImageOwners ∧ ws'.m_isViewWallet = ws.m_isViewWallet := by
  simp only [removeCancelledTransactions, ExceptRun.bind_eq_ok, ExceptRun.pure_eq_ok] at h
  obtain ⟨-, -, rfl⟩ := h
  exact ⟨rfl, rfl, rfl⟩

/-! ### The key-image bookkeeping -/

/-- The bookkeeping of a non-view wallet: each subwallet holds a key image at most once,
and the owners map names the subwallet of every key image held. -/
structure Consistent (ws : SubWallets) : Prop where
  not_view : ws.m_isViewWallet = false
  keyImages_nodup : ∀ e ∈ ws.m_subWallets, e.2.getKeyImages.Nodup
  owners : ∀ e ∈ ws.m_subWallets, ∀ keyImage ∈ e.2.getKeyImages,
    ws.m_keyImageOwners keyImage = some e.1

/-- Some subwallet holds `keyImage` in one of its lists. -/
def Holds (ws : SubWallets) (keyImage : Crypto.KeyImage) : Prop :=
  ∃ e ∈ ws.m_subWallets, keyImage ∈ e.2.getKeyImages

theorem Consistent.eq_of_mem (hc : ws.Consistent) {e₁ e₂ : Crypto.PublicKey × SubWallet}
    (he₁ : e₁ ∈ ws.m_subWallets) (he₂ : e₂ ∈ ws.m_subWallets) {keyImage : Crypto.KeyImage}
    (hk₁ : keyImage ∈ e₁.2.getKeyImages) (hk₂ : keyImage ∈ e₂.2.getKeyImages) : e₁ = e₂ := by
  have hkey : e₁.1 = e₂.1 := by
    have h := (hc.owners e₁ he₁ keyImage hk₁).symm.trans (hc.owners e₂ he₂ keyImage hk₂)
    exact Option.some_injective _ h
  exact List.inj_on_of_nodup_map ws.m_subWallets_nodup he₁ he₂ hkey

/-- A call on every subwallet that only moves or drops inputs keeps the bookkeeping. -/
theorem Consistent.mapSubWallets (hc : ws.Consistent)
    {f : Crypto.PublicKey → SubWallet → SubWallet}
    (hf : ∀ pk w, (f pk w).getKeyImages <+~ w.getKeyImages) : (ws.mapSubWallets f).Consistent where
  not_view := hc.not_view
  keyImages_nodup := by
    intro e he
    obtain ⟨e₀, he₀, rfl⟩ := mem_mapSubWallets.1 he
    exact ListContainer.Subperm.nodup (hf e₀.1 e₀.2) (hc.keyImages_nodup e₀ he₀)
  owners := by
    intro e he keyImage hk
    obtain ⟨e₀, he₀, rfl⟩ := mem_mapSubWallets.1 he
    exact hc.owners e₀ he₀ keyImage ((hf e₀.1 e₀.2).subset hk)

theorem Consistent.updateSubWallet (hc : ws.Consistent) {publicSpendKey : Crypto.PublicKey}
    {f : SubWallet → SubWallet} (hf : ∀ w, (f w).getKeyImages <+~ w.getKeyImages) :
    (ws.updateSubWallet publicSpendKey f).Consistent := by
  refine hc.mapSubWallets fun pk w => ?_
  split
  · exact hf w
  · exact List.Subperm.refl _

theorem Consistent.markInputAsLocked (hc : ws.Consistent) {keyImage : Crypto.KeyImage}
    {publicKey : Crypto.PublicKey} (h : ws.markInputAsLocked keyImage publicKey = .ok ws') :
    ws'.Consistent := by
  rw [markInputAsLocked_eq_ok h]
  exact hc.updateSubWallet fun w => (w.getKeyImages_markInputAsLocked keyImage).subperm

theorem Consistent.markInputAsSpent (hc : ws.Consistent) {keyImage : Crypto.KeyImage}
    {publicKey : Crypto.PublicKey} {spendHeight : UInt64}
    (h : ws.markInputAsSpent keyImage publicKey spendHeight = .ok ws') : ws'.Consistent := by
  rw [markInputAsSpent_eq_ok h]
  exact hc.updateSubWallet fun w => (w.getKeyImages_markInputAsSpent keyImage spendHeight).subperm

theorem Consistent.removeCancelledTransactions (hc : ws.Consistent)
    {cancelledTransactions : Finset Crypto.Hash}
    (h : ws.removeCancelledTransactions cancelledTransactions = .ok ws') : ws'.Consistent := by
  obtain ⟨hsub, howners, hview⟩ := removeCancelledTransactions_eq_ok h
  have hmap := hc.mapSubWallets fun _ w =>
    (w.getKeyImages_removeCancelledTransactions cancelledTransactions).subperm
  refine ⟨hview.trans hmap.not_view, ?_, ?_⟩
  · rw [hsub]
    exact hmap.keyImages_nodup
  · rw [hsub, howners]
    exact hmap.owners

theorem Consistent.pruneSpentInputs (hc : ws.Consistent) (pruneHeight : UInt64) :
    (ws.pruneSpentInputs pruneHeight).Consistent :=
  hc.mapSubWallets fun _ w => (w.getKeyImages_pruneSpentInputs pruneHeight).subperm

theorem Consistent.storeUnconfirmedIncomingInput (hc : ws.Consistent)
    (input : WalletTypes.UnconfirmedInput) (publicSpendKey : Crypto.PublicKey) :
    (ws.storeUnconfirmedIncomingInput input publicSpendKey).Consistent :=
  hc.updateSubWallet fun _ => List.Subperm.refl _

theorem addUnconfirmedTransaction_subWallets (ws : SubWallets) (tx : WalletTypes.Transaction) :
    (ws.addUnconfirmedTransaction tx).m_subWallets = ws.m_subWallets := by
  unfold SubWallets.addUnconfirmedTransaction
  split <;> rfl

theorem Consistent.addUnconfirmedTransaction (hc : ws.Consistent) (tx : WalletTypes.Transaction) :
    (ws.addUnconfirmedTransaction tx).Consistent := by
  unfold SubWallets.addUnconfirmedTransaction
  split
  · exact hc
  · exact ⟨hc.not_view, hc.keyImages_nodup, hc.owners⟩

theorem storeTransactionInput_eq_ok {publicSpendKey : Crypto.PublicKey}
    {input : WalletTypes.TransactionInput} (hview : ws.m_isViewWallet = false)
    (h : ws.storeTransactionInput publicSpendKey input = .ok ws') :
    ws' = { ws with m_keyImageOwners :=
      Function.update ws.m_keyImageOwners input.keyImage (some publicSpendKey) }.updateSubWallet
        publicSpendKey (·.storeTransactionInput input false) := by
  unfold SubWallets.storeTransactionInput at h
  split at h
  · cases h
  · simp only [hview, Bool.not_false, if_true, Except.ok.injEq] at h
    rw [← h]
    simp only [hview]

theorem Consistent.storeTransactionInput (hc : ws.Consistent) {publicSpendKey : Crypto.PublicKey}
    {input : WalletTypes.TransactionInput} (hfresh : ¬ws.Holds input.keyImage)
    (h : ws.storeTransactionInput publicSpendKey input = .ok ws') : ws'.Consistent := by
  rw [storeTransactionInput_eq_ok hc.not_view h]
  have hne : ∀ e ∈ ws.m_subWallets, ∀ keyImage ∈ e.2.getKeyImages, keyImage ≠ input.keyImage := by
    rintro e he keyImage hk rfl
    exact hfresh ⟨e, he, hk⟩
  refine ⟨hc.not_view, ?_, ?_⟩
  · intro e he
    obtain ⟨e₀, he₀, rfl⟩ := mem_mapSubWallets.1 he
    dsimp only
    split
    · rw [(e₀.2.getKeyImages_storeTransactionInput input false).nodup_iff, List.nodup_cons]
      exact ⟨fun hk => hne e₀ he₀ _ hk rfl, hc.keyImages_nodup e₀ he₀⟩
    · exact hc.keyImages_nodup e₀ he₀
  · intro e he keyImage hk
    obtain ⟨e₀, he₀, rfl⟩ := mem_mapSubWallets.1 he
    simp only [SubWallets.updateSubWallet, SubWallets.mapSubWallets] at hk ⊢
    split at hk
    · rename_i hpk
      rcases List.mem_cons.1 ((e₀.2.getKeyImages_storeTransactionInput input false).subset hk)
        with rfl | hold
      · simp [hpk]
      · rw [Function.update_of_ne (hne e₀ he₀ keyImage hold)]
        exact hc.owners e₀ he₀ keyImage hold
    · rw [Function.update_of_ne (hne e₀ he₀ keyImage hk)]
      exact hc.owners e₀ he₀ keyImage hk

theorem removeForkedTransactions_subWallets (ws : SubWallets) (forkHeight : UInt64) :
    (ws.removeForkedTransactions forkHeight).m_subWallets =
      (ws.mapSubWallets fun _ w => (w.removeForkedInputs forkHeight ws.m_isViewWallet).1).m_subWallets :=
  rfl

/-- Every key image a non-view subwallet gives up on a fork loses its owner, and the key
images it keeps were its own, so no other subwallet reports them. -/
theorem Consistent.removeForkedTransactions (hc : ws.Consistent) (forkHeight : UInt64) :
    (ws.removeForkedTransactions forkHeight).Consistent := by
  have hsplit : ∀ e ∈ ws.m_subWallets,
      ((e.2.removeForkedInputs forkHeight false).1.getKeyImages ++
        (e.2.removeForkedInputs forkHeight false).2).Nodup := fun e he =>
    (e.2.getKeyImages_removeForkedInputs forkHeight).nodup_iff.1 (hc.keyImages_nodup e he)
  have hold : ∀ (w : SubWallet) keyImage,
      keyImage ∈ (w.removeForkedInputs forkHeight false).1.getKeyImages ++
        (w.removeForkedInputs forkHeight false).2 → keyImage ∈ w.getKeyImages := fun w _ hk =>
    (w.getKeyImages_removeForkedInputs forkHeight).symm.subset hk
  refine ⟨hc.not_view, ?_, ?_⟩
  · intro e he
    rw [removeForkedTransactions_subWallets] at he
    obtain ⟨e₀, he₀, rfl⟩ := mem_mapSubWallets.1 he
    simp only [hc.not_view]
    exact (hsplit e₀ he₀).of_append_left
  · intro e he keyImage hk
    rw [removeForkedTransactions_subWallets] at he
    obtain ⟨e₀, he₀, rfl⟩ := mem_mapSubWallets.1 he
    simp only [SubWallets.removeForkedTransactions, hc.not_view,
      ListContainer.foldl_update_none_apply]
      at hk ⊢
    rw [if_neg]
    · exact hc.owners e₀ he₀ keyImage (hold e₀.2 keyImage (List.mem_append_left _ hk))
    · intro hremoved
      obtain ⟨e₁, he₁, hk₁⟩ := List.mem_flatMap.1 hremoved
      have hsame : e₀ = e₁ := hc.eq_of_mem he₀ he₁
        (hold e₀.2 keyImage (List.mem_append_left _ hk))
        (hold e₁.2 keyImage (List.mem_append_right _ hk₁))
      subst hsame
      exact List.disjoint_of_nodup_append (hsplit e₀ he₀) hk hk₁

/-- After `removeForkedTransactions` no subwallet holds an input from at or above the fork,
nor one spent at or above it. -/
theorem forkFree_removeForkedTransactions (ws : SubWallets) (forkHeight : UInt64) :
    ∀ e ∈ (ws.removeForkedTransactions forkHeight).m_subWallets, e.2.ForkFree forkHeight := by
  intro e he
  rw [removeForkedTransactions_subWallets] at he
  obtain ⟨e₀, -, rfl⟩ := mem_mapSubWallets.1 he
  exact e₀.2.forkFree_removeForkedInputs forkHeight ws.m_isViewWallet

theorem consistent_create (publicSpendKey : Crypto.PublicKey) :
    (create publicSpendKey).Consistent where
  not_view := rfl
  keyImages_nodup := by simp [create, SubWallet.empty, SubWallet.getKeyImages]
  owners := by simp [create, SubWallet.empty, SubWallet.getKeyImages]

/-! ### Where one input is -/

/-- `input` is in the list `inputs` picks out of the subwallet of `publicSpendKey`. -/
def HeldIn (inputs : SubWallet → List WalletTypes.TransactionInput) (ws : SubWallets)
    (publicSpendKey : Crypto.PublicKey) (input : WalletTypes.TransactionInput) : Prop :=
  ∃ w, (publicSpendKey, w) ∈ ws.m_subWallets ∧ input ∈ inputs w

section HeldIn

variable {inputs : SubWallet → List WalletTypes.TransactionInput} {pk : Crypto.PublicKey}
  {input : WalletTypes.TransactionInput}

theorem HeldIn.mapSubWallets (h : HeldIn inputs ws pk input)
    {f : Crypto.PublicKey → SubWallet → SubWallet}
    (hf : ∀ w, input ∈ inputs w → input ∈ inputs (f pk w)) :
    HeldIn inputs (ws.mapSubWallets f) pk input := by
  obtain ⟨w, he, hi⟩ := h
  exact ⟨f pk w, mem_mapSubWallets.2 ⟨(pk, w), he, rfl⟩, hf w hi⟩

theorem HeldIn.updateSubWallet (h : HeldIn inputs ws pk input) {publicSpendKey : Crypto.PublicKey}
    {f : SubWallet → SubWallet} (hf : ∀ w, input ∈ inputs w → input ∈ inputs (f w)) :
    HeldIn inputs (ws.updateSubWallet publicSpendKey f) pk input := by
  refine h.mapSubWallets fun w hi => ?_
  split
  · exact hf w hi
  · exact hi

theorem HeldIn.of_subWallets_eq (h : HeldIn inputs ws pk input)
    (hsub : ws'.m_subWallets = ws.m_subWallets) : HeldIn inputs ws' pk input := by
  unfold HeldIn
  rw [hsub]
  exact h

theorem HeldIn.markInputAsLocked (h : HeldIn inputs ws pk input) {keyImage : Crypto.KeyImage}
    {publicKey : Crypto.PublicKey}
    (hf : ∀ w, input ∈ inputs w → input ∈ inputs (w.markInputAsLocked keyImage))
    (hlock : ws.markInputAsLocked keyImage publicKey = .ok ws') : HeldIn inputs ws' pk input := by
  rw [markInputAsLocked_eq_ok hlock]
  exact h.updateSubWallet hf

theorem Consistent.lockedIn_markInputAsLocked (hc : ws.Consistent)
    (hu : HeldIn (·.m_unspentInputs) ws pk input)
    (h : ws.markInputAsLocked input.keyImage pk = .ok ws') :
    HeldIn (·.m_lockedInputs) ws' pk input := by
  obtain ⟨w, he, hi⟩ := hu
  have hnd : (w.m_unspentInputs.map (·.keyImage)).Nodup :=
    (hc.keyImages_nodup _ he).of_append_left.of_append_left
  rw [markInputAsLocked_eq_ok h]
  exact ⟨w.markInputAsLocked input.keyImage, mem_mapSubWallets.2 ⟨(pk, w), he, by simp⟩,
    w.markInputAsLocked_locks hnd hi⟩

theorem HeldIn.removeCancelledTransactions (h : HeldIn (·.m_lockedInputs) ws pk input)
    {cancelledTransactions : Finset Crypto.Hash}
    (hparent : input.parentTransactionHash ∉ cancelledTransactions)
    (hcancel : ws.removeCancelledTransactions cancelledTransactions = .ok ws') :
    HeldIn (·.m_lockedInputs) ws' pk input := by
  obtain ⟨hsub, -, -⟩ := removeCancelledTransactions_eq_ok hcancel
  obtain ⟨w, he, hi⟩ := h.mapSubWallets (f := fun _ w => w.removeCancelledTransactions
    cancelledTransactions) fun w hi =>
      SubWallet.mem_lockedInputs_removeCancelledTransactions.2 ⟨hi, hparent⟩
  exact ⟨w, hsub ▸ he, hi⟩

theorem Consistent.keyImage_not_unspent (hc : ws.Consistent) {w : SubWallet}
    (he : (pk, w) ∈ ws.m_subWallets) (hi : input ∈ w.m_lockedInputs) :
    input.keyImage ∉ w.m_unspentInputs.map (·.keyImage) := fun hu =>
  List.disjoint_of_nodup_append (hc.keyImages_nodup _ he).of_append_left hu
    (List.mem_map_of_mem hi)

end HeldIn

/-! ### Runs -/

/-- One call of the wallet on its subwallets that did not throw. Inputs are stored with a
key image no subwallet holds yet, as the synchronizer finds each output once. -/
inductive Step : SubWallets → SubWallets → Prop
  | storeTransactionInput {ws ws' : SubWallets} {publicSpendKey : Crypto.PublicKey}
      {input : WalletTypes.TransactionInput} (hfresh : ¬ws.Holds input.keyImage)
      (h : ws.storeTransactionInput publicSpendKey input = .ok ws') : Step ws ws'
  | markInputAsLocked {ws ws' : SubWallets} {keyImage : Crypto.KeyImage}
      {publicKey : Crypto.PublicKey} (h : ws.markInputAsLocked keyImage publicKey = .ok ws') :
      Step ws ws'
  | markInputAsSpent {ws ws' : SubWallets} {keyImage : Crypto.KeyImage}
      {publicKey : Crypto.PublicKey} {spendHeight : UInt64}
      (h : ws.markInputAsSpent keyImage publicKey spendHeight = .ok ws') : Step ws ws'
  | removeForkedTransactions (ws : SubWallets) (forkHeight : UInt64) :
      Step ws (ws.removeForkedTransactions forkHeight)
  | removeCancelledTransactions {ws ws' : SubWallets} {cancelledTransactions : Finset Crypto.Hash}
      (h : ws.removeCancelledTransactions cancelledTransactions = .ok ws') : Step ws ws'
  | pruneSpentInputs (ws : SubWallets) (pruneHeight : UInt64) :
      Step ws (ws.pruneSpentInputs pruneHeight)
  | addUnconfirmedTransaction (ws : SubWallets) (tx : WalletTypes.Transaction) :
      Step ws (ws.addUnconfirmedTransaction tx)
  | storeUnconfirmedIncomingInput (ws : SubWallets) (input : WalletTypes.UnconfirmedInput)
      (publicSpendKey : Crypto.PublicKey) :
      Step ws (ws.storeUnconfirmedIncomingInput input publicSpendKey)

theorem Consistent.step (hc : ws.Consistent) (h : Step ws ws') : ws'.Consistent := by
  cases h with
  | storeTransactionInput hfresh h => exact hc.storeTransactionInput hfresh h
  | markInputAsLocked h => exact hc.markInputAsLocked h
  | markInputAsSpent h => exact hc.markInputAsSpent h
  | removeForkedTransactions forkHeight => exact hc.removeForkedTransactions forkHeight
  | removeCancelledTransactions h => exact hc.removeCancelledTransactions h
  | pruneSpentInputs pruneHeight => exact hc.pruneSpentInputs pruneHeight
  | addUnconfirmedTransaction tx => exact hc.addUnconfirmedTransaction tx
  | storeUnconfirmedIncomingInput input publicSpendKey =>
    exact hc.storeUnconfirmedIncomingInput input publicSpendKey

theorem Consistent.run (hc : ws.Consistent) (h : Relation.ReflTransGen Step ws ws') :
    ws'.Consistent := by
  induction h with
  | refl => exact hc
  | tail _ hstep ih => exact ih.step hstep

/-- The input bookkeeping of a non-view wallet over every run of its calls: each subwallet
holds a key image in one of its lists, once; removing a fork leaves nothing received or
spent at or above it; and the owners map names the subwallet of every key image held. -/
theorem subwallet_input_bookkeeping {ws₀ ws : SubWallets} (h₀ : ws₀.Consistent)
    (hrun : Relation.ReflTransGen Step ws₀ ws) :
    (∀ e ∈ ws.m_subWallets, e.2.getKeyImages.Nodup) ∧
    (∀ forkHeight, ∀ e ∈ (ws.removeForkedTransactions forkHeight).m_subWallets,
      e.2.ForkFree forkHeight) ∧
    ∀ e ∈ ws.m_subWallets, ∀ keyImage ∈ e.2.getKeyImages,
      ws.m_keyImageOwners keyImage = some e.1 := by
  have hc := h₀.run hrun
  exact ⟨hc.keyImages_nodup, forkFree_removeForkedTransactions ws, hc.owners⟩

/-- An input of 100 received at `blockHeight` under the spend key `5`. -/
def receivedInput (keyImage : Crypto.KeyImage) (blockHeight : UInt64) :
    WalletTypes.TransactionInput :=
  ⟨keyImage, 100, blockHeight, ⟨5⟩, 0, some 0, ⟨5⟩, 0, 0, ⟨0⟩⟩

/-- Two inputs received at heights 10 and 20, the first locked by a send, then a fork at 15. -/
def forkRun : Except String SubWallets := do
  let ws ← (create ⟨5⟩).storeTransactionInput ⟨5⟩
    (receivedInput ⟨.ofNat 256 (2 ^ 248)⟩ 10)
  let ws ← ws.storeTransactionInput ⟨5⟩ (receivedInput ⟨.ofNat 256 (2 ^ 248 + 1)⟩ 20)
  let ws ← ws.markInputAsLocked ⟨.ofNat 256 (2 ^ 248)⟩ ⟨5⟩
  pure (ws.removeForkedTransactions 15)

theorem subwallet_input_bookkeeping_forkRun :
    ∃ ws, forkRun = .ok ws ∧
      (∀ e ∈ ws.m_subWallets, e.2.getKeyImages.Nodup) ∧
      (∀ forkHeight, ∀ e ∈ (ws.removeForkedTransactions forkHeight).m_subWallets,
        e.2.ForkFree forkHeight) ∧
      ∀ e ∈ ws.m_subWallets, ∀ keyImage ∈ e.2.getKeyImages,
        ws.m_keyImageOwners keyImage = some e.1 := by
  refine ⟨_, rfl, subwallet_input_bookkeeping (consistent_create ⟨5⟩) ?_⟩
  refine .head (@Step.storeTransactionInput _ _ ⟨5⟩
      (receivedInput ⟨.ofNat 256 (2 ^ 248)⟩ 10) ?_ rfl)
    (.head (@Step.storeTransactionInput _ _ ⟨5⟩
      (receivedInput ⟨.ofNat 256 (2 ^ 248 + 1)⟩ 20) ?_ rfl)
    (.head (@Step.markInputAsLocked _ _ ⟨.ofNat 256 (2 ^ 248)⟩ ⟨5⟩ rfl)
    (.single (.removeForkedTransactions _ 15))))
  · unfold Holds
    decide
  · unfold Holds
    decide

end SubWallets
