import Traaitt.SubWallets.SubWallets

/-! The bookkeeping `SendTransaction` does once the daemon has taken a transaction: the
sent transaction is recorded, our change is stored as unconfirmed, and every input we spent
is locked. Cancelling the transaction afterwards returns locked inputs by the hash of the
transaction that paid them to us, so none of the inputs it locked comes back. -/

namespace WalletTypes

/-- The fields of `WalletTypes::KeyOutput` that `storeUnconfirmedIncomingInputs` reads. -/
structure KeyOutput where
  key : Crypto.PublicKey
  amount : UInt64
  deriving DecidableEq, Repr

/-- The fields of `WalletTypes::TxInputAndOwner` that the send bookkeeping reads. -/
structure TxInputAndOwner where
  input : TransactionInput
  publicSpendKey : Crypto.PublicKey
  deriving DecidableEq, Repr

end WalletTypes

namespace SendTransaction

/-- `underivePublicKey outputIndex key` is the spend key `Crypto::underive_public_key`
recovers from an output key with the transaction's key derivation. -/
def storeUnconfirmedIncomingInputs (subWallets : SubWallets)
    (underivePublicKey : ℕ → Crypto.PublicKey → Crypto.PublicKey)
    (keyOutputs : List WalletTypes.KeyOutput) (txHash : Crypto.Hash) : SubWallets :=
  keyOutputs.zipIdx.foldl (fun ws (output, outputIndex) =>
    match ws.m_publicSpendKeys.find? (· == underivePublicKey outputIndex output.key) with
    | some ourSpendKey =>
      ws.storeUnconfirmedIncomingInput ⟨output.amount, output.key, txHash⟩ ourSpendKey
    | none => ws) subWallets

/-- The sent transaction is recorded at block height `0` until a block confirms it. -/
def storeSentTransaction (hash : Crypto.Hash) (subWallets : SubWallets) : SubWallets :=
  subWallets.addUnconfirmedTransaction ⟨hash, 0⟩

/-- What `sendTransactionAdvanced` and `sendFusionTransactionAdvanced` record once
`relayTransaction` succeeded: the sent transaction, our change as unconfirmed incoming
amounts, and every input locked. -/
def storeRelayedTransaction (subWallets : SubWallets)
    (underivePublicKey : ℕ → Crypto.PublicKey → Crypto.PublicKey) (txHash : Crypto.Hash)
    (keyOutputs : List WalletTypes.KeyOutput) (ourInputs : List WalletTypes.TxInputAndOwner) :
    Except String SubWallets :=
  let ws := storeSentTransaction txHash subWallets
  let ws := storeUnconfirmedIncomingInputs ws underivePublicKey keyOutputs txHash
  ourInputs.foldlM (fun ws input => ws.markInputAsLocked input.input.keyImage input.publicSpendKey) ws

open SubWallets

variable {ws ws' : SubWallets}

theorem storeUnconfirmedIncomingInputs_induction (P : SubWallets → Prop)
    (hstep : ∀ ws input publicSpendKey, P ws →
      P (ws.storeUnconfirmedIncomingInput input publicSpendKey))
    (underivePublicKey : ℕ → Crypto.PublicKey → Crypto.PublicKey)
    (keyOutputs : List WalletTypes.KeyOutput) (txHash : Crypto.Hash) (h : P ws) :
    P (storeUnconfirmedIncomingInputs ws underivePublicKey keyOutputs txHash) := by
  unfold storeUnconfirmedIncomingInputs
  induction keyOutputs.zipIdx generalizing ws with
  | nil => exact h
  | cons entry entries ih =>
    obtain ⟨output, outputIndex⟩ := entry
    rw [List.foldl_cons]
    apply ih
    dsimp only
    cases ws.m_publicSpendKeys.find? (· == underivePublicKey outputIndex output.key) with
    | some ourSpendKey => exact hstep _ _ _ h
    | none => exact h

theorem consistent_storeRelayedTransaction (hc : ws.Consistent)
    {underivePublicKey : ℕ → Crypto.PublicKey → Crypto.PublicKey} {txHash : Crypto.Hash}
    {keyOutputs : List WalletTypes.KeyOutput} {ourInputs : List WalletTypes.TxInputAndOwner}
    (h : storeRelayedTransaction ws underivePublicKey txHash keyOutputs ourInputs = .ok ws') :
    ws'.Consistent := by
  have hstored := storeUnconfirmedIncomingInputs_induction Consistent
    (fun _ input publicSpendKey hc => hc.storeUnconfirmedIncomingInput input publicSpendKey)
    underivePublicKey keyOutputs txHash (hc.addUnconfirmedTransaction ⟨txHash, 0⟩)
  exact ExceptRun.foldlM_invariant Consistent (fun _ _ _ _ hc hlock => hc.markInputAsLocked hlock)
    hstored h

/-- The locking loop locks every input of a transaction whose inputs have distinct key
images and were all unspent. -/
theorem locks_ourInputs {ourInputs : List WalletTypes.TxInputAndOwner} (hc : ws.Consistent)
    (hunspent : ∀ i ∈ ourInputs, HeldIn (·.m_unspentInputs) ws i.publicSpendKey i.input)
    (hdistinct : (ourInputs.map (·.input.keyImage)).Nodup)
    (h : ourInputs.foldlM (fun ws input => ws.markInputAsLocked input.input.keyImage
      input.publicSpendKey) ws = .ok ws') :
    ∀ i ∈ ourInputs, HeldIn (·.m_lockedInputs) ws' i.publicSpendKey i.input := by
  induction ourInputs generalizing ws with
  | nil => simp
  | cons first rest ih =>
    rw [List.foldlM_cons] at h
    obtain ⟨ws₁, hfirst, hrest⟩ := ExceptRun.bind_eq_ok.1 h
    rw [List.map_cons, List.nodup_cons] at hdistinct
    intro i hi
    rcases List.mem_cons.1 hi with rfl | hi
    · have hlocked := hc.lockedIn_markInputAsLocked (hunspent i List.mem_cons_self) hfirst
      exact ExceptRun.foldlM_invariant (fun s => HeldIn (·.m_lockedInputs) s i.publicSpendKey i.input)
        (fun _ _ _ _ hs hlock =>
          hs.markInputAsLocked (fun w hw => w.mem_lockedInputs_markInputAsLocked _ hw) hlock)
        hlocked hrest
    · refine ih (hc.markInputAsLocked hfirst) (fun j hj => ?_) hdistinct.2 hrest i hi
      have hne : j.input.keyImage ≠ first.input.keyImage := fun heq =>
        hdistinct.1 (heq ▸ List.mem_map_of_mem hj)
      exact (hunspent j (List.mem_cons_of_mem _ hj)).markInputAsLocked
        (fun w hw => w.mem_unspentInputs_markInputAsLocked hw hne) hfirst

/-- Cancelling a sent transaction returns none of the inputs its send locked. Each input
was received in an earlier transaction, and `removeCancelledTransactions` matches a locked
input by the hash of that transaction, so every input of the send stays locked and its
key image stays out of the unspent inputs. -/
theorem cancelled_send_keeps_inputs_locked {ws₁ ws₂ : SubWallets} (hc : ws.Consistent)
    {underivePublicKey : ℕ → Crypto.PublicKey → Crypto.PublicKey} {txHash : Crypto.Hash}
    {keyOutputs : List WalletTypes.KeyOutput} {ourInputs : List WalletTypes.TxInputAndOwner}
    (hunspent : ∀ i ∈ ourInputs, HeldIn (·.m_unspentInputs) ws i.publicSpendKey i.input)
    (hdistinct : (ourInputs.map (·.input.keyImage)).Nodup)
    (hparent : ∀ i ∈ ourInputs, i.input.parentTransactionHash ≠ txHash)
    (hsend : storeRelayedTransaction ws underivePublicKey txHash keyOutputs ourInputs = .ok ws₁)
    (hcancel : ws₁.removeCancelledTransactions {txHash} = .ok ws₂) :
    ∀ i ∈ ourInputs, HeldIn (·.m_lockedInputs) ws₂ i.publicSpendKey i.input ∧
      ∀ w, (i.publicSpendKey, w) ∈ ws₂.m_subWallets →
        i.input.keyImage ∉ w.m_unspentInputs.map (·.keyImage) := by
  have hsent := hc.addUnconfirmedTransaction ⟨txHash, 0⟩
  have hstored := storeUnconfirmedIncomingInputs_induction Consistent
    (fun _ input publicSpendKey hc => hc.storeUnconfirmedIncomingInput input publicSpendKey)
    underivePublicKey keyOutputs txHash hsent
  have hstillUnspent : ∀ i ∈ ourInputs, HeldIn (·.m_unspentInputs)
      (storeUnconfirmedIncomingInputs (storeSentTransaction txHash ws) underivePublicKey
        keyOutputs txHash) i.publicSpendKey i.input := fun i hi =>
    storeUnconfirmedIncomingInputs_induction
      (fun s => HeldIn (·.m_unspentInputs) s i.publicSpendKey i.input)
      (fun _ _ _ hs => hs.updateSubWallet fun _ hw => hw) underivePublicKey keyOutputs txHash
      ((hunspent i hi).of_subWallets_eq (addUnconfirmedTransaction_subWallets ws _))
  have hlocked := locks_ourInputs hstored hstillUnspent hdistinct hsend
  have hc₂ := (consistent_storeRelayedTransaction hc hsend).removeCancelledTransactions hcancel
  intro i hi
  have hheld := (hlocked i hi).removeCancelledTransactions
    (by simpa using hparent i hi) hcancel
  refine ⟨hheld, fun w he => ?_⟩
  obtain ⟨w', he', hi'⟩ := hheld
  rw [eq_of_mem_of_mem he he']
  exact hc₂.keyImage_not_unspent he' hi'

/-- An input of 100 with key image `⟨1⟩`, received in transaction `⟨3⟩`. -/
def receivedInput : WalletTypes.TransactionInput where
  keyImage := ⟨1⟩
  amount := 100
  blockHeight := 1
  transactionPublicKey := ⟨0⟩
  transactionIndex := 0
  globalOutputIndex := some 0
  key := ⟨2⟩
  spendHeight := 0
  unlockTime := 0
  parentTransactionHash := ⟨3⟩

/-- A wallet receives `receivedInput`, spends it in transaction `⟨5⟩`, and `⟨5⟩` is then
cancelled: the input stays locked and the balance stays at `0` instead of `100`. -/
theorem cancelled_send_keeps_receivedInput_locked :
    ∃ ws ws₁ ws₂ : SubWallets,
      (SubWallets.create ⟨4⟩).storeTransactionInput ⟨4⟩ receivedInput = .ok ws ∧
      storeRelayedTransaction ws (fun _ key => key) ⟨5⟩ [] [⟨receivedInput, ⟨4⟩⟩] = .ok ws₁ ∧
      ws₁.removeCancelledTransactions {⟨5⟩} = .ok ws₂ ∧
      ws.getBalance [] true 1 0 = .ok (100, 0) ∧
      ws₂.getBalance [] true 1 0 = .ok (0, 0) ∧
      HeldIn (·.m_lockedInputs) ws₂ ⟨4⟩ receivedInput := by
  refine ⟨_, _, _, rfl, rfl, rfl, rfl, rfl, ?_⟩
  have hfresh : ¬(SubWallets.create ⟨4⟩).Holds receivedInput.keyImage := by
    simp [Holds, SubWallets.create, SubWallet.empty, SubWallet.getKeyImages]
  have hc := @Consistent.storeTransactionInput _ _ (consistent_create ⟨4⟩) ⟨4⟩ receivedInput
    hfresh rfl
  refine (@cancelled_send_keeps_inputs_locked _ ?sent _ hc (fun _ key => key) ⟨5⟩ []
    [⟨receivedInput, ⟨4⟩⟩] ?unspent ?distinct ?parent ?send ?cancel ⟨receivedInput, ⟨4⟩⟩
    List.mem_cons_self).1
  case send => rfl
  case cancel => rfl
  case unspent =>
    simp [HeldIn, SubWallets.updateSubWallet, SubWallets.mapSubWallets, SubWallets.create,
      SubWallet.storeTransactionInput, SubWallet.empty]
  case distinct => simp
  case parent => simp [receivedInput]

end SendTransaction
