import Traaitt.Errors.ValidateParameters

/-! The payment ID of a transaction the wallet sends. `makeTransaction` decodes the payment ID
with `Common::podFromHex` into an uninitialised hash, ignores the result, and writes the hash in
a nonce field of the extra before the transaction public key. `getPaymentIdFromTxExtra` reads the
hash back, so the payment ID a hex text names is the one sent. `validatePaymentID` lets through
every text of 64 letters and digits, though, and for one that is not hex the hash sent is what the
decoding loop left in memory. -/

namespace SendTransaction

open CryptoNote Common Errors

/-- The extra `makeTransaction` builds: for a payment ID, the nonce tag, the nonce's length
`1 + 32`, the payment ID tag and the 32 bytes of `paymentIDBin`; then the public key tag and the
transaction public key. `unset` is what the uninitialised `paymentIDBin` held. -/
def makeTransactionExtra (paymentID : List Char) (unset : Crypto.Hash)
    (pubKey : Crypto.PublicKey) : List UInt8 :=
  let paymentIDExtra :=
    if paymentID ≠ [] then
      let paymentIDBin := Crypto.Hash.ofBytes (podFromHexInto paymentID unset.bytes)
      Constants.TX_EXTRA_NONCE_IDENTIFIER :: (1 + 32) ::
        Constants.TX_EXTRA_PAYMENT_ID_IDENTIFIER :: paymentIDBin.bytes
    else []
  paymentIDExtra ++ Constants.TX_EXTRA_PUBKEY_IDENTIFIER :: pubKey.bytes

/-- The fields of that extra: the nonce of `paymentIDBin` when a payment ID is given, then the
public key. -/
def makeTransactionExtraFields (paymentID : List Char) (paymentIDBin : Crypto.Hash)
    (pubKey : Crypto.PublicKey) : List TransactionExtraField :=
  (if paymentID ≠ [] then [.nonce ⟨setPaymentIdToTransactionExtraNonce paymentIDBin⟩] else []) ++
    [.publicKey ⟨pubKey⟩]

variable {paymentID : List Char} {unset : Crypto.Hash} {pubKey : Crypto.PublicKey}

theorem makeTransactionExtra_eq (paymentID : List Char) (unset : Crypto.Hash)
    (pubKey : Crypto.PublicKey) :
    makeTransactionExtra paymentID unset pubKey =
      (makeTransactionExtraFields paymentID
        (Crypto.Hash.ofBytes (podFromHexInto paymentID unset.bytes)) pubKey).flatMap
          extraFieldBytes := by
  have hlength : ∀ paymentIDBin : Crypto.Hash,
      UInt8.ofNat (setPaymentIdToTransactionExtraNonce paymentIDBin).length = 1 + 32 := by
    intro paymentIDBin
    rw [setPaymentIdToTransactionExtraNonce, List.length_cons, Crypto.Hash.length_bytes]
    rfl
  unfold makeTransactionExtra makeTransactionExtraFields
  split_ifs
  · simp only [List.cons_append, List.flatMap_cons, extraFieldBytes, hlength]
    rfl
  · rfl

theorem extraFieldsReadable_makeTransactionExtraFields (paymentID : List Char)
    (paymentIDBin : Crypto.Hash) (pubKey : Crypto.PublicKey) :
    ExtraFieldsReadable (makeTransactionExtraFields paymentID paymentIDBin pubKey) := by
  unfold makeTransactionExtraFields
  split_ifs
  · refine ⟨by simp, ?_, by simp⟩
    intro f hf
    simp only [List.singleton_append, List.mem_cons, List.not_mem_nil, or_false] at hf
    rcases hf with rfl | rfl
    · simp [ExtraFieldWritable, setPaymentIdToTransactionExtraNonce, TX_EXTRA_NONCE_MAX_COUNT]
    · trivial
  · refine ⟨by simp, ?_, by simp⟩
    intro f hf
    simp only [List.nil_append, List.mem_singleton] at hf
    subst hf
    trivial

theorem parseTransactionExtra_makeTransactionExtra :
    parseTransactionExtra (makeTransactionExtra paymentID unset pubKey) =
      (true, makeTransactionExtraFields paymentID
        (Crypto.Hash.ofBytes (podFromHexInto paymentID unset.bytes)) pubKey) := by
  rw [makeTransactionExtra_eq]
  exact (parseTransactionExtra_writeTransactionExtra
    (extraFieldsReadable_makeTransactionExtraFields _ _ _)).2

theorem getPaymentIdFromTxExtra_makeTransactionExtra (hpaymentID : paymentID ≠ []) :
    getPaymentIdFromTxExtra (makeTransactionExtra paymentID unset pubKey) =
      some (Crypto.Hash.ofBytes (podFromHexInto paymentID unset.bytes)) := by
  rw [getPaymentIdFromTxExtra, parseTransactionExtra_makeTransactionExtra]
  simp only [Bool.not_true, Bool.false_eq_true, if_false, makeTransactionExtraFields,
    if_pos hpaymentID, findTransactionExtraFieldByType, List.singleton_append,
    List.findSome?_cons, TransactionExtraField.nonce?]
  exact getPaymentIdFromTransactionExtraNonce_setPaymentIdToTransactionExtraNonce _

theorem getTransactionPublicKeyFromExtra_makeTransactionExtra :
    getTransactionPublicKeyFromExtra (makeTransactionExtra paymentID unset pubKey) = pubKey := by
  rw [getTransactionPublicKeyFromExtra, parseTransactionExtra_makeTransactionExtra]
  unfold makeTransactionExtraFields
  split_ifs <;> rfl

/-- A payment ID of 64 hex digits is sent as the hash it names. -/
theorem getPaymentIdFromTxExtra_of_parsePaymentId {paymentId : Crypto.Hash}
    (h : parsePaymentId paymentID = some paymentId) :
    getPaymentIdFromTxExtra (makeTransactionExtra paymentID unset pubKey) = some paymentId := by
  obtain ⟨data, hdata, rfl⟩ := Option.map_eq_some_iff.1 h
  have hpaymentID : paymentID ≠ [] := by
    rintro rfl
    simp [podFromHex, fromHex, fromHexPairs] at hdata
    obtain ⟨rfl, hlength⟩ := hdata
    simp at hlength
  rw [getPaymentIdFromTxExtra_makeTransactionExtra hpaymentID,
    podFromHexInto_of_podFromHex (by rwa [Crypto.Hash.length_bytes])]

/-- `validatePaymentID` accepts every text of 64 letters and digits, also one that is not hex:
`podFromHex` fails on it, and the payment ID the extra carries is whatever the decoding loop left
in `paymentIDBin`. The public key is still found. -/
theorem makeTransactionExtra_non_hex_paymentId (hlength : paymentID.length = 64)
    (halnum : ∀ c ∈ paymentID, c.isAlphanum) (hnonhex : ∃ c ∈ paymentID, fromHexChar c = none)
    (unset : Crypto.Hash) (pubKey : Crypto.PublicKey) :
    (validatePaymentID paymentID).errorCode = .SUCCESS ∧ parsePaymentId paymentID = none ∧
      getPaymentIdFromTxExtra (makeTransactionExtra paymentID unset pubKey) =
        some (Crypto.Hash.ofBytes (podFromHexInto paymentID unset.bytes)) ∧
      getTransactionPublicKeyFromExtra (makeTransactionExtra paymentID unset pubKey) = pubKey := by
  obtain ⟨c, hc, hnone⟩ := hnonhex
  have hpaymentID : paymentID ≠ [] := List.ne_nil_of_mem hc
  refine ⟨validatePaymentID_eq_success_iff.2 (.inr ⟨hlength, halnum⟩), ?_,
    getPaymentIdFromTxExtra_makeTransactionExtra hpaymentID,
    getTransactionPublicKeyFromExtra_makeTransactionExtra⟩
  -- `podFromHex` needs every character to be a hex digit
  have hpod : podFromHex 32 paymentID = none := by
    rw [← Option.not_isSome_iff_eq_none, podFromHex_isSome_iff]
    rintro ⟨-, hhex⟩
    simpa [hnone] using hhex c hc
  rw [parsePaymentId, hpod]
  rfl

theorem makeTransactionExtra_non_hex_paymentId_g :
    (List.replicate 64 'g').length = 64 ∧ (∀ c ∈ List.replicate 64 'g', c.isAlphanum) ∧
      (∃ c ∈ List.replicate 64 'g', fromHexChar c = none) ∧
      (validatePaymentID (List.replicate 64 'g')).errorCode = .SUCCESS ∧
      parsePaymentId (List.replicate 64 'g') = none ∧
      getPaymentIdFromTxExtra (makeTransactionExtra (List.replicate 64 'g') ⟨0⟩ ⟨0⟩) =
        some (Crypto.Hash.ofBytes
          (podFromHexInto (List.replicate 64 'g') (⟨0⟩ : Crypto.Hash).bytes)) ∧
      getTransactionPublicKeyFromExtra (makeTransactionExtra (List.replicate 64 'g') ⟨0⟩ ⟨0⟩) =
        ⟨0⟩ :=
  have hlength : (List.replicate 64 'g').length = 64 := List.length_replicate
  have halnum : ∀ c ∈ List.replicate 64 'g', c.isAlphanum := by
    intro c hc
    rw [List.eq_of_mem_replicate hc]
    rfl
  have hnonhex : ∃ c ∈ List.replicate 64 'g', fromHexChar c = none := ⟨'g', by simp, rfl⟩
  ⟨hlength, halnum, hnonhex,
    makeTransactionExtra_non_hex_paymentId hlength halnum hnonhex ⟨0⟩ ⟨0⟩⟩

end SendTransaction
