import Traaitt.CryptoNote.Types

/-! The functions of `crypto/` and of the binary serialization that the node calls. The model
takes them as parameters: every statement about the node holds for whatever they compute,
with only the facts listed here about them. -/

namespace CryptoNote

/-- The hashing, signature and serialization functions the modelled node code calls. -/
structure Primitives where
  /-- `CachedTransaction(BinaryArray)`: `fromBinaryArray<Transaction>` and the hashes of
  the transaction, or nothing when the blob does not parse. -/
  cachedTransaction : BinaryArray → Option CachedTransaction
  /-- `getObjectBinarySize(baseTransaction)`. -/
  getObjectBinarySize : Transaction → ℕ
  /-- `CachedBlock::getParentBlockBinaryArray(false).size()`. -/
  getParentBlockBinaryArraySize : BlockTemplate → ℕ
  check_key : Crypto.PublicKey → Bool
  checkRingSignature : Crypto.Hash → Crypto.KeyImage → List Crypto.PublicKey →
    List Crypto.Signature → Bool
  /-- `scalarmultKey(keyImage, L) == I`, the domain check of `validateSemantic`. -/
  keyImageInDomain : Crypto.KeyImage → Bool
  getPaymentIdFromTxExtra : BinaryArray → Option Crypto.Hash
  /-- `CachedTransaction(Transaction&&)`: serializes a transaction and hashes it. -/
  toCachedTransaction : Transaction → CachedTransaction
  /-- `toBinaryArray(block)`. -/
  blockBinaryArray : BlockTemplate → BinaryArray
  /-- `toBinaryArray(fromBinaryArray<BlockTemplate>(blob).baseTransaction)`. -/
  baseTransactionBinaryArray : BinaryArray → BinaryArray
  /-- A parsed transaction keeps the blob it was parsed from. -/
  cachedTransaction_binaryArray : ∀ blob transaction,
    cachedTransaction blob = some transaction → transaction.transactionBinaryArray = blob
  /-- A cached transaction holds the transaction it was built from. -/
  toCachedTransaction_transaction : ∀ transaction,
    (toCachedTransaction transaction).transaction = transaction

/-- Primitives under which every key and signature checks, a blob parses as `parse` says, no
extra holds a payment id and a transaction's hashes are `transactionHash` of it: they meet the
facts assumed of the primitives, so the node's model can be run on examples. -/
def Primitives.trusting (transactionHash : Transaction → Crypto.Hash)
    (parse : BinaryArray → Option Transaction) : Primitives where
  cachedTransaction blob := (parse blob).map fun transaction =>
    ⟨transaction, blob, transactionHash transaction, transactionHash transaction⟩
  getObjectBinarySize _ := 1
  getParentBlockBinaryArraySize _ := 0
  check_key _ := true
  checkRingSignature _ _ _ _ := true
  keyImageInDomain _ := true
  getPaymentIdFromTxExtra _ := none
  toCachedTransaction transaction :=
    ⟨transaction, [], transactionHash transaction, transactionHash transaction⟩
  blockBinaryArray _ := []
  baseTransactionBinaryArray _ := []
  cachedTransaction_binaryArray blob transaction h := by
    obtain ⟨parsed, -, rfl⟩ := Option.map_eq_some_iff.1 h
    rfl
  toCachedTransaction_transaction _ := rfl

end CryptoNote
