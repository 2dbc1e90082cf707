import Mathlib

/-! Values the node and the wallet exchange (`CryptoTypes.h`, `CryptoNote.h`): 32-byte
hashes and keys, transactions with their inputs and outputs, and block templates.
Binary blobs are byte lists; the fixed-width fields keep their C++ widths. -/

namespace Crypto

/-- `Crypto::Hash`, 32 bytes. -/
structure Hash where
  data : BitVec 256
  deriving DecidableEq, Repr

structure PublicKey where
  data : BitVec 256
  deriving DecidableEq, Repr

structure SecretKey where
  data : BitVec 256
  deriving DecidableEq, Repr

structure KeyImage where
  data : BitVec 256
  deriving DecidableEq, Repr

structure Signature where
  data : BitVec 512
  deriving DecidableEq, Repr

end Crypto

namespace CryptoNote

/-- `BinaryArray = std::vector<uint8_t>`. -/
abbrev BinaryArray := List UInt8

structure BaseInput where
  blockIndex : UInt32
  deriving DecidableEq, Repr

structure KeyInput where
  amount : UInt64
  outputIndexes : List UInt32
  keyImage : Crypto.KeyImage
  deriving DecidableEq, Repr

/-- `boost::variant<BaseInput, KeyInput>`. -/
inductive TransactionInput
  | base (input : BaseInput)
  | key (input : KeyInput)
  deriving DecidableEq, Repr

structure KeyOutput where
  key : Crypto.PublicKey
  deriving DecidableEq, Repr

inductive TransactionOutputTarget
  | key (output : KeyOutput)
  deriving DecidableEq, Repr

structure TransactionOutput where
  amount : UInt64
  target : TransactionOutputTarget
  deriving DecidableEq, Repr

structure TransactionPrefix where
  version : UInt8
  unlockTime : UInt64
  inputs : List TransactionInput
  outputs : List TransactionOutput
  extra : BinaryArray
  deriving DecidableEq, Repr

structure Transaction extends TransactionPrefix where
  signatures : List (List Crypto.Signature)
  deriving DecidableEq, Repr

/-- The key image of an input, when it is a `KeyInput`. -/
def TransactionInput.keyImage? : TransactionInput → Option Crypto.KeyImage
  | .base _ => none
  | .key input => some input.keyImage

/-- The key images of the `KeyInput`s of a transaction, in input order. -/
def Transaction.keyImages (tx : Transaction) : List Crypto.KeyImage :=
  tx.inputs.filterMap TransactionInput.keyImage?

@[simp] theorem mem_keyImages {tx : Transaction} {ki : Crypto.KeyImage} :
    ki ∈ tx.keyImages ↔ ∃ input ∈ tx.inputs, input.keyImage? = some ki := by
  simp [Transaction.keyImages]

structure ParentBlock where
  majorVersion : UInt8
  deriving DecidableEq, Repr

structure BlockHeader where
  majorVersion : UInt8
  minorVersion : UInt8
  nonce : UInt32
  timestamp : UInt64
  previousBlockHash : Crypto.Hash
  deriving DecidableEq, Repr

structure BlockTemplate extends BlockHeader where
  parentBlock : ParentBlock
  baseTransaction : Transaction
  transactionHashes : List Crypto.Hash
  deriving DecidableEq, Repr

/-- `CachedBlock`: a block template with the hash the class caches, computed by `crypto/`
from the block's hashing blob; the model keeps it as a field. -/
structure CachedBlock where
  block : BlockTemplate
  blockHash : Crypto.Hash
  deriving DecidableEq, Repr

/-- `CachedBlock::getBlockIndex`: the index in the single `BaseInput` of the base
transaction, and `0` for any other shape. -/
def CachedBlock.getBlockIndex (cachedBlock : CachedBlock) : UInt32 :=
  match cachedBlock.block.baseTransaction.inputs with
  | [.base input] => input.blockIndex
  | _ => 0

/-- A block as it is stored and relayed: the block blob and the transaction blobs. -/
structure RawBlock where
  block : BinaryArray
  transactions : List BinaryArray
  deriving DecidableEq, Repr

/-- `CachedTransaction`: a transaction with its blob and the hashes the class caches.
The hashes are computed by `crypto/` from the blob and the prefix; the model keeps them
as fields, so every statement holds whatever values they take. -/
structure CachedTransaction where
  transaction : Transaction
  transactionBinaryArray : BinaryArray
  transactionHash : Crypto.Hash
  transactionPrefixHash : Crypto.Hash
  deriving DecidableEq, Repr

/-- `CachedTransaction::getTransactionFee`: input sum minus output sum in `uint64_t`,
and `0` as soon as a `BaseInput` is met. -/
def CachedTransaction.getTransactionFee (t : CachedTransaction) : UInt64 :=
  let summaryOutputAmount := (t.transaction.outputs.map (·.amount)).sum
  let summaryInputAmount? := t.transaction.inputs.foldlM
    (fun (sum : UInt64) input => match input with
      | .key k => some (sum + k.amount)
      | .base _ => none) 0
  match summaryInputAmount? with
  | some summaryInputAmount => summaryInputAmount - summaryOutputAmount
  | none => 0

end CryptoNote
