import Mathlib.Data.List.Forall2
import Traaitt.Serialization.BinarySerializer
import Traaitt.Library.Except

/-! `serialize(Transaction &, ISerializer &)` of `CryptoNoteSerialization.cpp` with the binary
serializers, and `toBinaryArray` and `fromBinaryArray` of `SerializationTools.h`. The prefix is
a record of varints, tagged variants, containers and the extra's string; the signatures follow
without a size, one list per input of the input's ring size, or none. The reader and the writer
agree on the prefix as a codec. The writer also takes a transaction without signatures whose
inputs need none, and the reader gives none back only for no inputs or a lone base input, one
empty list per input otherwise (`Transaction.normalized`). What the reader accepts, the writer
writes back byte for byte. -/

namespace CryptoNote

open Codec Common

/-- `getSignaturesCount(input)`: the ring size of a key input, none for a base input. -/
def getSignaturesCount : TransactionInput → ℕ
  | .base _ => 0
  | .key key => key.outputIndexes.length

/-- `sigSize == 1 && tx.inputs[0].type() == typeid(BaseInput)`. -/
def isLoneBaseInput : List TransactionInput → Bool
  | [.base _] => true
  | _ => false

namespace BinaryInput

def serializeBaseInput : BinaryReader BaseInput :=
  BaseInput.mk <$> serializeUInt32

/-- `serializeVarintVector(vector)`: `beginArray` and a `uint32_t` varint each. -/
def serializeVarintVector : BinaryReader (List UInt32) :=
  serializeContainer serializeUInt32

def serializeKeyInput : BinaryReader KeyInput := do
  let amount ← serializeUInt64
  let outputIndexes ← serializeVarintVector
  let keyImage ← Crypto.KeyImage.mk <$> serializePod 32
  pure ⟨amount, outputIndexes, keyImage⟩

/-- `getVariantValue(serializer, tag, in)` of a `TransactionInput`. -/
def getVariantValue (tag : UInt8) : BinaryReader TransactionInput :=
  if tag = 0xff then TransactionInput.base <$> serializeBaseInput
  else if tag = 0x2 then TransactionInput.key <$> serializeKeyInput
  else throw "Unknown variant tag"

/-- `serialize(TransactionInput &in)` on input: the tag byte `binary` reads, then its variant. -/
def serializeTransactionInput : BinaryReader TransactionInput :=
  readUInt8 >>= getVariantValue

/-- `getVariantValue(serializer, tag, out)` of a `TransactionOutputTarget`. -/
def getVariantValueTarget (tag : UInt8) : BinaryReader TransactionOutputTarget :=
  if tag = 0x2 then (fun key => .key ⟨Crypto.PublicKey.mk key⟩) <$> serializePod 32
  else throw "Unknown variant tag"

def serializeTransactionOutputTarget : BinaryReader TransactionOutputTarget :=
  readUInt8 >>= getVariantValueTarget

def serializeTransactionOutput : BinaryReader TransactionOutput := do
  let amount ← serializeUInt64
  let target ← serializeTransactionOutputTarget
  pure ⟨amount, target⟩

/-- `serialize(TransactionPrefix &txP)` on input, which refuses a version above the current
one. -/
def serializeTransactionPrefix : BinaryReader TransactionPrefix := do
  let version ← serializeUInt8
  throwIf (CURRENT_TRANSACTION_VERSION < version) "Wrong transaction version"
  let unlockTime ← serializeUInt64
  let inputs ← serializeContainer serializeTransactionInput
  let outputs ← serializeContainer serializeTransactionOutput
  let extra ← serializeAsBinary "extra".toList
  pure ⟨version, unlockTime, inputs, outputs, extra⟩

/-- One round of the signature loop of `serialize(Transaction &tx)` on input: the input's
signatures, or none where none are expected (`continue`). -/
def serializeInputSignatures (signaturesNotExpected : Bool) (input : TransactionInput) :
    BinaryReader (List Crypto.Signature) :=
  let signatureSize := getSignaturesCount input
  if signaturesNotExpected then
    if signatureSize = 0 then pure [] else throw "Serialization error: signatures are not expected"
  else readList (Crypto.Signature.mk <$> serializePod 64) signatureSize

/-- The part of `serialize(Transaction &tx)` on input after the prefix. The signatures are
resized to one list per input, except for a lone base input; where that leaves them empty, the
loop reads nothing and keeps them. -/
def serializeSignatures (inputs : List TransactionInput) :
    BinaryReader (List (List Crypto.Signature)) := do
  let sigSize := inputs.length
  let signatures : List (List Crypto.Signature) :=
    if isLoneBaseInput inputs then [] else List.replicate sigSize []
  let signaturesNotExpected := signatures.isEmpty
  throwIf (signaturesNotExpected = false ∧ inputs.length ≠ signatures.length)
    "Serialization error: unexpected signatures size"
  let read ← inputs.mapM (serializeInputSignatures signaturesNotExpected)
  pure (if signaturesNotExpected then signatures else read)

/-- `serialize(Transaction &tx)` on input. -/
def serializeTransaction : BinaryReader Transaction := do
  let txP ← serializeTransactionPrefix
  let signatures ← serializeSignatures txP.inputs
  pure { txP with signatures }

end BinaryInput

namespace BinaryOutput

def serializeBaseInput (gen : BaseInput) : List UInt8 :=
  serializeUInt32 gen.blockIndex

def serializeVarintVector : List UInt32 → List UInt8 :=
  serializeContainer serializeUInt32

def serializeKeyInput (key : KeyInput) : List UInt8 :=
  serializeUInt64 key.amount ++ serializeVarintVector key.outputIndexes ++ key.keyImage.bytes

/-- `serialize(TransactionInput &in)` on output: the tag of `BinaryVariantTagGetter`, then the
variant. -/
def serializeTransactionInput : TransactionInput → List UInt8
  | .base gen => 0xff :: serializeBaseInput gen
  | .key key => 0x2 :: serializeKeyInput key

def serializeTransactionOutputTarget : TransactionOutputTarget → List UInt8
  | .key key => 0x2 :: key.key.bytes

def serializeTransactionOutput (output : TransactionOutput) : List UInt8 :=
  serializeUInt64 output.amount ++ serializeTransactionOutputTarget output.target

def serializeTransactionPrefix (txP : TransactionPrefix) : List UInt8 :=
  serializeUInt8 txP.version ++ serializeUInt64 txP.unlockTime ++
    serializeContainer serializeTransactionInput txP.inputs ++
    serializeContainer serializeTransactionOutput txP.outputs ++ serializeAsBinary txP.extra

/-- One round of the signature loop of `serialize(Transaction &tx)` on output: the input's
signatures, which must be as many as its ring size, or none where none are expected. -/
def serializeInputSignatures (signaturesNotExpected : Bool) (input : TransactionInput)
    (signatures : List Crypto.Signature) : Except String (List UInt8) :=
  let signatureSize := getSignaturesCount input
  if signaturesNotExpected then
    if signatureSize = 0 then pure [] else throw "Serialization error: signatures are not expected"
  else if signatureSize ≠ signatures.length then
    throw "Serialization error: unexpected signatures size"
  else pure (signatures.flatMap Crypto.Signature.bytes)

/-- The signature loop on output: input `i` with `tx.signatures[i]`. -/
def serializeSignatures (signaturesNotExpected : Bool) :
    List TransactionInput → List (List Crypto.Signature) → Except String (List UInt8)
  | [], _ => pure []
  | input :: inputs, signatures => do
    let written ← serializeInputSignatures signaturesNotExpected input (signatures.headD [])
    let rest ← serializeSignatures signaturesNotExpected inputs signatures.tail
    pure (written ++ rest)

/-- `serialize(Transaction &tx)` on output: the prefix, then the signatures, with no signatures
or one list per input. -/
def serializeTransaction (tx : Transaction) : Except String (List UInt8) := do
  let signaturesNotExpected := tx.signatures.isEmpty
  ExceptRun.throwIf (signaturesNotExpected = false ∧ tx.inputs.length ≠ tx.signatures.length)
    "Serialization error: unexpected signatures size"
  let signatures ← serializeSignatures signaturesNotExpected tx.inputs tx.signatures
  pure (serializeTransactionPrefix tx.toTransactionPrefix ++ signatures)

end BinaryOutput

/-- The signatures `serialize(Transaction &)` writes for the inputs: none, where no input needs
any, or one list for each input, of the input's ring size. -/
def SignaturesMatch (inputs : List TransactionInput) (signatures : List (List Crypto.Signature)) :
    Prop :=
  signatures = [] ∧ (∀ input ∈ inputs, getSignaturesCount input = 0) ∨
    signatures ≠ [] ∧ List.Forall₂ (fun input signatures =>
      getSignaturesCount input = signatures.length) inputs signatures

/-- The key offsets of an input fit the `uint64_t` varint of their size. -/
def TransactionInput.Fits : TransactionInput → Prop
  | .base _ => True
  | .key input => input.outputIndexes.length < 2 ^ 64

/-- What the binary reader returns of a prefix: a version it accepts, and vectors whose sizes fit
the `uint64_t` varints they are read from, as the size of every `std::vector` does. -/
structure TransactionPrefix.Readable (txP : TransactionPrefix) : Prop where
  version_le : txP.version ≤ CURRENT_TRANSACTION_VERSION
  inputs_lt : txP.inputs.length < 2 ^ 64
  inputs_fit : ∀ input ∈ txP.inputs, input.Fits
  outputs_lt : txP.outputs.length < 2 ^ 64
  extra_lt : txP.extra.length < 2 ^ 64

/-- The transaction `fromBinaryArray` gives back from what `toBinaryArray` wrote of `tx`: no
signatures for a lone base input, and one empty list per input where `tx` has none. -/
def Transaction.normalized (tx : Transaction) : Transaction :=
  { tx with signatures :=
      if isLoneBaseInput tx.inputs then []
      else if tx.signatures = [] then tx.inputs.map fun _ => [] else tx.signatures }

/-- `toBinaryArray(tx)`: the bytes, or the error of the exception it throws. -/
def Transaction.toBinaryArray (tx : Transaction) : Except String (List UInt8) :=
  BinaryOutput.serializeTransaction tx

/-- `fromBinaryArray<Transaction>(binaryArray)`: the transaction read, which must take every
byte. -/
def Transaction.fromBinaryArray (binaryArray : List UInt8) : Except String Transaction :=
  BinaryInput.serializeTransaction.run binaryArray >>= fun result =>
    ExceptRun.throwIf (result.2 ≠ []) "failed to unpack type" >>= fun _ => pure result.1

/-! ## The writer -/

namespace BinaryOutput

theorem serializeInputSignatures_true_eq_ok {input : TransactionInput}
    {signatures : List Crypto.Signature} {written : List UInt8} :
    serializeInputSignatures true input signatures = .ok written ↔
      getSignaturesCount input = 0 ∧ written = [] := by
  unfold serializeInputSignatures
  by_cases h : getSignaturesCount input = 0 <;> simp [h]

theorem serializeInputSignatures_false_eq_ok {input : TransactionInput}
    {signatures : List Crypto.Signature} {written : List UInt8} :
    serializeInputSignatures false input signatures = .ok written ↔
      getSignaturesCount input = signatures.length ∧
        written = signatures.flatMap Crypto.Signature.bytes := by
  unfold serializeInputSignatures
  by_cases h : getSignaturesCount input = signatures.length
  · simp [h]
    exact eq_comm
  · simp [h]

theorem serializeSignatures_true_eq_ok {signatures : List (List Crypto.Signature)}
    {written : List UInt8} : ∀ {inputs : List TransactionInput},
      serializeSignatures true inputs signatures = .ok written ↔
        (∀ input ∈ inputs, getSignaturesCount input = 0) ∧ written = []
  | [] => by simp [serializeSignatures]
  | input :: inputs => by
    simp only [serializeSignatures, ExceptRun.bind_eq_ok, ExceptRun.pure_eq_ok,
      serializeInputSignatures_true_eq_ok, serializeSignatures_true_eq_ok, List.forall_mem_cons]
    constructor
    · rintro ⟨_, ⟨hhead, rfl⟩, _, ⟨htail, rfl⟩, rfl⟩
      exact ⟨⟨hhead, htail⟩, rfl⟩
    · rintro ⟨⟨hhead, htail⟩, rfl⟩
      exact ⟨[], ⟨hhead, rfl⟩, [], ⟨htail, rfl⟩, rfl⟩

/-- With one list of signatures per input, the loop writes them all, each list of its input's
ring size. -/
theorem serializeSignatures_false_eq_ok {written : List UInt8} :
    ∀ {inputs : List TransactionInput} {signatures : List (List Crypto.Signature)},
      inputs.length = signatures.length →
      (serializeSignatures false inputs signatures = .ok written ↔
        List.Forall₂ (fun input signatures => getSignaturesCount input = signatures.length)
          inputs signatures ∧
          written = signatures.flatMap fun signatures => signatures.flatMap Crypto.Signature.bytes)
  | [], [], _ => by simp [serializeSignatures]
  | input :: inputs, signatures :: rest, hlen => by
    have hlen' : inputs.length = rest.length := by simpa using hlen
    simp only [serializeSignatures, List.headD_cons, List.tail_cons, ExceptRun.bind_eq_ok,
      ExceptRun.pure_eq_ok, serializeInputSignatures_false_eq_ok,
      serializeSignatures_false_eq_ok hlen', List.forall₂_cons, List.flatMap_cons]
    constructor
    · rintro ⟨_, ⟨hhead, rfl⟩, _, ⟨htail, rfl⟩, rfl⟩
      exact ⟨⟨hhead, htail⟩, rfl⟩
    · rintro ⟨⟨hhead, htail⟩, rfl⟩
      exact ⟨_, ⟨hhead, rfl⟩, _, ⟨htail, rfl⟩, rfl⟩

end BinaryOutput

/-- `toBinaryArray` writes exactly the transactions whose signatures match their inputs: the
prefix, then every signature in order. -/
theorem Transaction.toBinaryArray_eq_ok {tx : Transaction} {bytes : List UInt8} :
    tx.toBinaryArray = .ok bytes ↔
      SignaturesMatch tx.inputs tx.signatures ∧
        bytes = BinaryOutput.serializeTransactionPrefix tx.toTransactionPrefix ++
        tx.signatures.flatMap fun signatures => signatures.flatMap Crypto.Signature.bytes := by
  unfold toBinaryArray BinaryOutput.serializeTransaction CryptoNote.SignaturesMatch
  simp only [ExceptRun.bind_eq_ok, ExceptRun.throwIf_eq_ok, ExceptRun.pure_eq_ok]
  by_cases hempty : tx.signatures = []
  · -- no signatures: the loop only checks that no input needs any
    simp only [hempty, List.isEmpty_nil, BinaryOutput.serializeSignatures_true_eq_ok,
      List.flatMap_nil, List.append_nil, ne_eq, not_true_eq_false, false_and, or_false,
      true_and, Bool.true_eq_false, not_false_eq_true]
    constructor
    · rintro ⟨⟨⟩, _, ⟨hzero, rfl⟩, rfl⟩
      exact ⟨hzero, List.append_nil _⟩
    · rintro ⟨hzero, rfl⟩
      exact ⟨(), [], ⟨hzero, rfl⟩, List.append_nil _⟩
  · have hisEmpty : tx.signatures.isEmpty = false := List.isEmpty_eq_false_iff.2 hempty
    simp only [hisEmpty, hempty, false_and, false_or, true_and]
    constructor
    · rintro ⟨⟨⟩, hlen, written, hloop, rfl⟩
      obtain ⟨hmatch, rfl⟩ :=
        (BinaryOutput.serializeSignatures_false_eq_ok (not_not.1 hlen)).1 hloop
      exact ⟨⟨hempty, hmatch⟩, rfl⟩
    · rintro ⟨⟨-, hmatch⟩, rfl⟩
      have hlen := hmatch.length_eq
      exact ⟨(), not_not.2 hlen, _,
        (BinaryOutput.serializeSignatures_false_eq_ok hlen).2 ⟨hmatch, rfl⟩, rfl⟩

/-! ## The prefix as a codec -/

section Prefix

open BinaryInput

theorem readsBack_serializeBaseInput :
    ReadsBack serializeBaseInput BinaryOutput.serializeBaseInput fun _ => True :=
  readsBack_serializeUInt32.map (fun _ _ => trivial) fun _ _ => rfl

theorem canonical_serializeBaseInput :
    Canonical serializeBaseInput BinaryOutput.serializeBaseInput fun _ => True :=
  canonical_serializeUInt32.map (fun _ _ => trivial) fun _ _ => rfl

theorem readsBack_keyImage :
    ReadsBack (Crypto.KeyImage.mk <$> serializePod 32) Crypto.KeyImage.bytes fun _ => True :=
  (readsBack_serializePod 32).map (fun _ _ => trivial) fun _ _ => rfl

theorem canonical_keyImage :
    Canonical (Crypto.KeyImage.mk <$> serializePod 32) Crypto.KeyImage.bytes fun _ => True :=
  (canonical_serializePod 32).map (fun _ _ => trivial) fun _ _ => rfl

theorem readsBack_serializeVarintVector :
    ReadsBack serializeVarintVector BinaryOutput.serializeVarintVector
      fun vector => vector.length < 2 ^ 64 ∧ ∀ index ∈ vector, True :=
  readsBack_serializeContainer readsBack_serializeUInt32

theorem canonical_serializeVarintVector :
    Canonical serializeVarintVector BinaryOutput.serializeVarintVector
      fun vector => vector.length < 2 ^ 64 ∧ ∀ index ∈ vector, True :=
  canonical_serializeContainer canonical_serializeUInt32

theorem readsBack_serializeKeyInput :
    ReadsBack serializeKeyInput BinaryOutput.serializeKeyInput
      fun key => key.outputIndexes.length < 2 ^ 64 := by
  intro key hkey rest
  simp only [BinaryOutput.serializeKeyInput, List.append_assoc]
  rw [serializeKeyInput, run_bind_of_ok (readsBack_serializeUInt64 _ trivial _),
    run_bind_of_ok (readsBack_serializeVarintVector _ ⟨hkey, fun _ _ => trivial⟩ _),
    run_bind_of_ok (readsBack_keyImage _ trivial rest)]
  rfl

theorem canonical_serializeKeyInput :
    Canonical serializeKeyInput BinaryOutput.serializeKeyInput
      fun key => key.outputIndexes.length < 2 ^ 64 := by
  intro s key rest hrun
  obtain ⟨amount, s1, hamount, hrun⟩ := run_bind_eq_ok.1 hrun
  obtain ⟨outputIndexes, s2, hindexes, hrun⟩ := run_bind_eq_ok.1 hrun
  obtain ⟨keyImage, s3, himage, hrun⟩ := run_bind_eq_ok.1 hrun
  obtain ⟨rfl, rfl⟩ := run_pure_eq_ok.1 hrun
  obtain ⟨-, hs⟩ := canonical_serializeUInt64 s amount s1 hamount
  obtain ⟨⟨hlength, -⟩, hs1⟩ := canonical_serializeVarintVector s1 outputIndexes s2 hindexes
  obtain ⟨-, hs2⟩ := canonical_keyImage s2 keyImage s3 himage
  refine ⟨hlength, ?_⟩
  rw [hs, hs1, hs2]
  simp only [BinaryOutput.serializeKeyInput, List.append_assoc]

theorem readsBack_serializeTransactionInput :
    ReadsBack serializeTransactionInput BinaryOutput.serializeTransactionInput
      TransactionInput.Fits
  | .base gen, _, rest => by
    rw [serializeTransactionInput, BinaryOutput.serializeTransactionInput, List.cons_append,
      run_bind_of_ok (run_readUInt8_cons _ _), getVariantValue, if_pos rfl,
      run_map_of_ok (readsBack_serializeBaseInput gen trivial rest)]
  | .key key, hkey, rest => by
    rw [serializeTransactionInput, BinaryOutput.serializeTransactionInput, List.cons_append,
      run_bind_of_ok (run_readUInt8_cons _ _), getVariantValue, if_neg (by decide), if_pos rfl,
      run_map_of_ok (readsBack_serializeKeyInput key hkey rest)]

theorem canonical_serializeTransactionInput :
    Canonical serializeTransactionInput BinaryOutput.serializeTransactionInput
      TransactionInput.Fits := by
  intro s input rest hrun
  obtain ⟨tag, t, htag, hvariant⟩ := run_bind_eq_ok.1 hrun
  obtain ⟨-, rfl⟩ := canonical_readUInt8 s tag t htag
  unfold getVariantValue at hvariant
  split_ifs at hvariant with hbase hkey
  · obtain ⟨gen, hgen, rfl⟩ := run_map_eq_ok.1 hvariant
    obtain ⟨-, rfl⟩ := canonical_serializeBaseInput t gen rest hgen
    exact ⟨trivial, by rw [hbase]; rfl⟩
  · obtain ⟨key, hread, rfl⟩ := run_map_eq_ok.1 hvariant
    obtain ⟨hfits, rfl⟩ := canonical_serializeKeyInput t key rest hread
    exact ⟨hfits, by rw [hkey]; rfl⟩
  · rw [run_throw] at hvariant
    cases hvariant

theorem readsBack_serializeTransactionOutputTarget :
    ReadsBack serializeTransactionOutputTarget BinaryOutput.serializeTransactionOutputTarget
      fun _ => True
  | .key output, _, rest => by
    have hkey : (serializePod 32).run (output.key.bytes ++ rest) = .ok (output.key.data, rest) :=
      readsBack_serializePod 32 output.key.data trivial rest
    rw [serializeTransactionOutputTarget, BinaryOutput.serializeTransactionOutputTarget,
      List.cons_append, run_bind_of_ok (run_readUInt8_cons _ _), getVariantValueTarget,
      if_pos rfl, run_map_of_ok hkey]

theorem canonical_serializeTransactionOutputTarget :
    Canonical serializeTransactionOutputTarget BinaryOutput.serializeTransactionOutputTarget
      fun _ => True := by
  intro s target rest hrun
  obtain ⟨tag, t, htag, hvariant⟩ := run_bind_eq_ok.1 hrun
  obtain ⟨-, rfl⟩ := canonical_readUInt8 s tag t htag
  unfold getVariantValueTarget at hvariant
  split_ifs at hvariant with hkey
  · obtain ⟨key, hread, rfl⟩ := run_map_eq_ok.1 hvariant
    obtain ⟨-, rfl⟩ := canonical_serializePod 32 t key rest hread
    exact ⟨trivial, by rw [hkey]; rfl⟩
  · rw [run_throw] at hvariant
    cases hvariant

theorem readsBack_serializeTransactionOutput :
    ReadsBack serializeTransactionOutput BinaryOutput.serializeTransactionOutput fun _ => True := by
  intro output _ rest
  rw [serializeTransactionOutput, BinaryOutput.serializeTransactionOutput, List.append_assoc,
    run_bind_of_ok (readsBack_serializeUInt64 _ trivial _),
    run_bind_of_ok (readsBack_serializeTransactionOutputTarget _ trivial rest)]
  rfl

theorem canonical_serializeTransactionOutput :
    Canonical serializeTransactionOutput BinaryOutput.serializeTransactionOutput
      fun _ => True := by
  intro s output rest hrun
  obtain ⟨amount, s1, hamount, hrun⟩ := run_bind_eq_ok.1 hrun
  obtain ⟨target, s2, htarget, hrun⟩ := run_bind_eq_ok.1 hrun
  obtain ⟨rfl, rfl⟩ := run_pure_eq_ok.1 hrun
  obtain ⟨-, hs⟩ := canonical_serializeUInt64 s amount s1 hamount
  obtain ⟨-, hs1⟩ := canonical_serializeTransactionOutputTarget s1 target s2 htarget
  exact ⟨trivial, by rw [hs, hs1, BinaryOutput.serializeTransactionOutput, List.append_assoc]⟩

theorem readsBack_serializeTransactionPrefix :
    ReadsBack serializeTransactionPrefix BinaryOutput.serializeTransactionPrefix
      TransactionPrefix.Readable := by
  intro txP hP rest
  have hinputs := readsBack_serializeContainer readsBack_serializeTransactionInput txP.inputs
    ⟨hP.inputs_lt, hP.inputs_fit⟩
  have houtputs := readsBack_serializeContainer readsBack_serializeTransactionOutput txP.outputs
    ⟨hP.outputs_lt, fun _ _ => trivial⟩
  have hextra := readsBack_serializeAsBinary (show "extra".toList ≠ "mm_tag".toList by decide)
    txP.extra hP.extra_lt rest
  have hversion : ¬CURRENT_TRANSACTION_VERSION < txP.version := UInt8.not_lt.2 hP.version_le
  simp only [BinaryOutput.serializeTransactionPrefix, List.append_assoc]
  rw [serializeTransactionPrefix, run_bind_of_ok (readsBack_serializeUInt8 _ trivial _),
    run_bind_of_ok (run_throwIf_neg _ _ hversion),
    run_bind_of_ok (readsBack_serializeUInt64 _ trivial _), run_bind_of_ok (hinputs _),
    run_bind_of_ok (houtputs _), run_bind_of_ok hextra]
  rfl

theorem canonical_serializeTransactionPrefix :
    Canonical serializeTransactionPrefix BinaryOutput.serializeTransactionPrefix
      TransactionPrefix.Readable := by
  intro s txP rest hrun
  obtain ⟨version, s1, hversion, hrun⟩ := run_bind_eq_ok.1 hrun
  obtain ⟨⟨⟩, s2, hcheck, hrun⟩ := run_bind_eq_ok.1 hrun
  obtain ⟨unlockTime, s3, hunlockTime, hrun⟩ := run_bind_eq_ok.1 hrun
  obtain ⟨inputs, s4, hinputs, hrun⟩ := run_bind_eq_ok.1 hrun
  obtain ⟨outputs, s5, houtputs, hrun⟩ := run_bind_eq_ok.1 hrun
  obtain ⟨extra, s6, hextra, hrun⟩ := run_bind_eq_ok.1 hrun
  obtain ⟨rfl, rfl⟩ := run_pure_eq_ok.1 hrun
  obtain ⟨hversion_le, hs2⟩ := run_throwIf_eq_ok.1 hcheck
  obtain ⟨-, hs⟩ := canonical_serializeUInt8 s version s1 hversion
  obtain ⟨-, hs2'⟩ := canonical_serializeUInt64 s2 unlockTime s3 hunlockTime
  obtain ⟨⟨hinputs_lt, hinputs_fit⟩, hs3⟩ :=
    canonical_serializeContainer canonical_serializeTransactionInput s3 inputs s4 hinputs
  obtain ⟨⟨houtputs_lt, -⟩, hs4⟩ :=
    canonical_serializeContainer canonical_serializeTransactionOutput s4 outputs s5 houtputs
  obtain ⟨hextra_lt, hs5⟩ :=
    canonical_serializeAsBinary (show "extra".toList ≠ "mm_tag".toList by decide) s5 extra s6
      hextra
  refine ⟨⟨UInt8.not_lt.1 hversion_le, hinputs_lt, hinputs_fit, houtputs_lt, hextra_lt⟩, ?_⟩
  rw [hs, ← hs2, hs2', hs3, hs4, hs5]
  simp only [BinaryOutput.serializeTransactionPrefix, List.append_assoc]

end Prefix

/-! ## The signatures -/

section Signatures

open BinaryInput

theorem readsBack_signature :
    ReadsBack (Crypto.Signature.mk <$> serializePod 64) Crypto.Signature.bytes fun _ => True :=
  (readsBack_serializePod 64).map (fun _ _ => trivial) fun _ _ => rfl

theorem canonical_signature :
    Canonical (Crypto.Signature.mk <$> serializePod 64) Crypto.Signature.bytes fun _ => True :=
  (canonical_serializePod 64).map (fun _ _ => trivial) fun _ _ => rfl

/-- Where signatures are expected, an input's are as many as its ring size. -/
theorem readsBack_serializeInputSignatures_false (input : TransactionInput) :
    ReadsBack (serializeInputSignatures false input)
      (fun signatures => signatures.flatMap Crypto.Signature.bytes)
      fun signatures => getSignaturesCount input = signatures.length := by
  intro signatures hlength rest
  simp only [serializeInputSignatures, Bool.false_eq_true, if_false]
  rw [hlength]
  exact readsBack_signature.readList signatures (fun _ _ => trivial) rest

theorem canonical_serializeInputSignatures_false (input : TransactionInput) :
    Canonical (serializeInputSignatures false input)
      (fun signatures => signatures.flatMap Crypto.Signature.bytes)
      fun signatures => getSignaturesCount input = signatures.length := by
  intro s signatures rest hrun
  simp only [serializeInputSignatures, Bool.false_eq_true, if_false] at hrun
  obtain ⟨⟨hlength, -⟩, hs⟩ := canonical_signature.readList _ s signatures rest hrun
  exact ⟨hlength.symm, hs⟩

theorem readsBack_serializeInputSignatures_true (input : TransactionInput) :
    ReadsBack (serializeInputSignatures true input) (fun _ => [])
      fun signatures => getSignaturesCount input = 0 ∧ signatures = [] := by
  rintro _ ⟨hzero, rfl⟩ rest
  simp only [serializeInputSignatures, if_true, hzero]
  rfl

theorem canonical_serializeInputSignatures_true (input : TransactionInput) :
    Canonical (serializeInputSignatures true input) (fun _ => [])
      fun signatures => getSignaturesCount input = 0 ∧ signatures = [] := by
  intro s signatures rest hrun
  simp only [serializeInputSignatures, if_true] at hrun
  split_ifs at hrun with hzero
  · obtain ⟨rfl, rfl⟩ := run_pure_eq_ok.1 hrun
    exact ⟨⟨hzero, rfl⟩, rfl⟩
  · rw [run_throw] at hrun
    cases hrun

/-- The two ways the reader takes the signatures: none expected for no inputs or a lone base
input, one list per input otherwise. -/
theorem serializeSignatures_eq (inputs : List TransactionInput) :
    serializeSignatures inputs =
      if isLoneBaseInput inputs ∨ inputs = [] then
        (fun _ => []) <$> inputs.mapM (serializeInputSignatures true)
      else inputs.mapM (serializeInputSignatures false) := by
  unfold serializeSignatures
  by_cases hnone : isLoneBaseInput inputs ∨ inputs = []
  · -- no signatures are expected: the resized list is empty
    have hempty : (if isLoneBaseInput inputs = true then []
        else List.replicate inputs.length []) = ([] : List (List Crypto.Signature)) := by
      rcases hnone with hlone | rfl
      · rw [if_pos hlone]
      · simp
    simp [throwIf, hempty, hnone]
  · -- one empty list per input: the loop reads every input's signatures
    have hlone : isLoneBaseInput inputs = false := by simpa using fun h => hnone (Or.inl h)
    have hne : inputs ≠ [] := fun h => hnone (Or.inr h)
    simp [throwIf, hlone, hne]

theorem signatureBytes_eq_nil {inputs : List TransactionInput}
    {signatures : List (List Crypto.Signature)} (hmatch : SignaturesMatch inputs signatures)
    (hzero : ∀ input ∈ inputs, getSignaturesCount input = 0) :
    signatures.flatMap (fun signatures => signatures.flatMap Crypto.Signature.bytes) = [] := by
  rcases hmatch with ⟨rfl, -⟩ | ⟨-, hforall⟩
  · rfl
  · induction hforall with
    | nil => rfl
    | @cons input signatures inputs rest hlength _ ih =>
      have hnil : signatures = [] := by
        rw [← List.length_eq_zero_iff, ← hlength, hzero input List.mem_cons_self]
      rw [List.flatMap_cons, hnil, ih fun input hinput => hzero input (List.mem_cons_of_mem _ hinput)]
      rfl

theorem normalized_signatures_of_none {tx : Transaction}
    (hmatch : SignaturesMatch tx.inputs tx.signatures)
    (hnone : isLoneBaseInput tx.inputs ∨ tx.inputs = []) : tx.normalized.signatures = [] := by
  rcases hnone with hlone | hnil
  · simp [Transaction.normalized, hlone]
  · rcases hmatch with ⟨hempty, -⟩ | ⟨hne, hforall⟩
    · simp [Transaction.normalized, hnil, hempty]
    · rw [hnil, List.forall₂_nil_left_iff] at hforall
      exact absurd hforall hne

/-- Otherwise it keeps one list per input, written as the signatures were. -/
theorem normalized_signatures_of_expected {tx : Transaction}
    (hmatch : SignaturesMatch tx.inputs tx.signatures)
    (hnone : ¬(isLoneBaseInput tx.inputs ∨ tx.inputs = [])) :
    List.Forall₂ (fun input signatures => getSignaturesCount input = signatures.length)
        tx.inputs tx.normalized.signatures ∧
      tx.normalized.signatures.flatMap
          (fun signatures => signatures.flatMap Crypto.Signature.bytes) =
        tx.signatures.flatMap (fun signatures => signatures.flatMap Crypto.Signature.bytes) := by
  have hlone : isLoneBaseInput tx.inputs = false := by simpa using fun h => hnone (Or.inl h)
  rcases hmatch with ⟨hempty, hzero⟩ | ⟨hne, hforall⟩
  · -- written without signatures: one empty list per input comes back
    simp only [Transaction.normalized, hlone, hempty, Bool.false_eq_true, if_false, if_true]
    refine ⟨List.forall₂_map_right_iff.2 (List.forall₂_same.2 fun input hinput => ?_), by simp⟩
    rw [hzero input hinput]
    rfl
  · simp only [Transaction.normalized, hlone, hne, Bool.false_eq_true, if_false]
    exact ⟨hforall, trivial⟩

theorem zero_of_none {tx : Transaction} (hnone : isLoneBaseInput tx.inputs ∨ tx.inputs = []) :
    ∀ input ∈ tx.inputs, getSignaturesCount input = 0 := by
  rcases hnone with hlone | hnil
  · intro input hinput
    match hinputs : tx.inputs, hlone with
    | [.base _], _ =>
      rw [hinputs, List.mem_singleton] at hinput
      rw [hinput]
      rfl
  · simp [hnil]

/-- The reader reads back the signatures the writer wrote, as `Transaction.normalized` has
them. -/
theorem readsBack_serializeSignatures {tx : Transaction}
    (hmatch : SignaturesMatch tx.inputs tx.signatures) (rest : List UInt8) :
    (serializeSignatures tx.inputs).run
        (tx.signatures.flatMap (fun signatures => signatures.flatMap Crypto.Signature.bytes) ++
          rest) = .ok (tx.normalized.signatures, rest) := by
  rw [serializeSignatures_eq]
  by_cases hnone : isLoneBaseInput tx.inputs ∨ tx.inputs = []
  · -- nothing is expected: every input needs none, and none were written
    have hzero := zero_of_none hnone
    have hread := readsBack_mapM readsBack_serializeInputSignatures_true
      (List.forall₂_map_right_iff.2 (List.forall₂_same.2 fun input hinput =>
        (⟨hzero input hinput, rfl⟩ :
          getSignaturesCount input = 0 ∧ ([] : List Crypto.Signature) = []))) rest
    have hnothing : (tx.inputs.map fun _ => ([] : List Crypto.Signature)).flatMap
        (fun _ => ([] : List UInt8)) = [] := by simp
    rw [hnothing, List.nil_append] at hread
    rw [if_pos hnone, signatureBytes_eq_nil hmatch hzero, List.nil_append, run_map_of_ok hread,
      normalized_signatures_of_none hmatch hnone]
  · obtain ⟨hforall, hbytes⟩ := normalized_signatures_of_expected hmatch hnone
    rw [if_neg hnone, ← hbytes]
    exact readsBack_mapM readsBack_serializeInputSignatures_false hforall rest

/-- What the reader accepts after the prefix is signatures that match the inputs, as the writer
writes them. -/
theorem canonical_serializeSignatures {inputs : List TransactionInput} {s rest : List UInt8}
    {signatures : List (List Crypto.Signature)}
    (hrun : (serializeSignatures inputs).run s = .ok (signatures, rest)) :
    SignaturesMatch inputs signatures ∧
      s = signatures.flatMap (fun signatures => signatures.flatMap Crypto.Signature.bytes) ++
        rest := by
  rw [serializeSignatures_eq] at hrun
  split_ifs at hrun with hnone
  · obtain ⟨read, hread, rfl⟩ := run_map_eq_ok.1 hrun
    obtain ⟨hforall, rfl⟩ :=
      canonical_mapM canonical_serializeInputSignatures_true inputs s read rest hread
    have hzero := ((List.forall₂_and_left _ _).1 hforall).1
    refine ⟨Or.inl ⟨rfl, hzero⟩, ?_⟩
    simp
  · obtain ⟨hforall, rfl⟩ :=
      canonical_mapM canonical_serializeInputSignatures_false inputs s signatures rest hrun
    refine ⟨Or.inr ⟨fun hnil => hnone (Or.inr ?_), hforall⟩, rfl⟩
    rw [hnil, List.forall₂_nil_right_iff] at hforall
    exact hforall

end Signatures

/-! ## Transactions -/

/-- The reader reads back every transaction the writer writes, with its signatures as
`Transaction.normalized` has them, whatever follows. -/
theorem run_serializeTransaction_toBinaryArray {tx : Transaction} {bytes : List UInt8}
    (hP : tx.toTransactionPrefix.Readable) (h : tx.toBinaryArray = .ok bytes)
    (rest : List UInt8) :
    BinaryInput.serializeTransaction.run (bytes ++ rest) = .ok (tx.normalized, rest) := by
  obtain ⟨hmatch, rfl⟩ := Transaction.toBinaryArray_eq_ok.1 h
  rw [List.append_assoc, BinaryInput.serializeTransaction,
    run_bind_of_ok (readsBack_serializeTransactionPrefix _ hP _),
    run_bind_of_ok (readsBack_serializeSignatures hmatch rest)]
  rfl

theorem toBinaryArray_of_run_serializeTransaction {s rest : List UInt8} {tx : Transaction}
    (hrun : BinaryInput.serializeTransaction.run s = .ok (tx, rest)) :
    tx.toTransactionPrefix.Readable ∧ ∃ bytes, tx.toBinaryArray = .ok bytes ∧ s = bytes ++ rest := by
  obtain ⟨txP, s1, hprefix, hrun⟩ := run_bind_eq_ok.1 hrun
  obtain ⟨signatures, s2, hsignatures, hrun⟩ := run_bind_eq_ok.1 hrun
  obtain ⟨rfl, rfl⟩ := run_pure_eq_ok.1 hrun
  obtain ⟨hP, hs⟩ := canonical_serializeTransactionPrefix s txP s1 hprefix
  obtain ⟨hmatch, hs1⟩ := canonical_serializeSignatures hsignatures
  refine ⟨hP, _, Transaction.toBinaryArray_eq_ok.2 ⟨hmatch, rfl⟩, ?_⟩
  rw [hs, hs1, List.append_assoc]

theorem Transaction.fromBinaryArray_eq_ok {bytes : List UInt8} {tx : Transaction} :
    Transaction.fromBinaryArray bytes = .ok tx ↔
      BinaryInput.serializeTransaction.run bytes = .ok (tx, []) := by
  unfold fromBinaryArray
  cases hrun : BinaryInput.serializeTransaction.run bytes with
  | error e => simp
  | ok result =>
    obtain ⟨tx', rest⟩ := result
    simp only [ExceptRun.ok_bind, ExceptRun.bind_eq_ok, ExceptRun.throwIf_eq_ok, not_not,
      ExceptRun.pure_eq_ok, Except.ok.injEq, Prod.mk.injEq]
    constructor
    · rintro ⟨⟨⟩, rfl, rfl⟩
      exact ⟨rfl, rfl⟩
    · rintro ⟨rfl, rfl⟩
      exact ⟨(), rfl, rfl⟩

/-- The binary form of a transaction: `fromBinaryArray` reads back every transaction that
`toBinaryArray` writes and whose prefix it can read, as `Transaction.normalized` has it; and
`toBinaryArray` writes back, byte for byte, every binary array that `fromBinaryArray` accepts. -/
theorem transaction_binary_roundtrip_canonical :
    (∀ tx : Transaction, tx.toTransactionPrefix.Readable → ∀ bytes,
        tx.toBinaryArray = .ok bytes → Transaction.fromBinaryArray bytes = .ok tx.normalized) ∧
      ∀ bytes tx, Transaction.fromBinaryArray bytes = .ok tx → tx.toBinaryArray = .ok bytes := by
  constructor
  · intro tx hP bytes h
    rw [Transaction.fromBinaryArray_eq_ok, ← List.append_nil bytes]
    exact run_serializeTransaction_toBinaryArray hP h []
  · intro bytes tx h
    obtain ⟨-, written, hwritten, hbytes⟩ :=
      toBinaryArray_of_run_serializeTransaction (Transaction.fromBinaryArray_eq_ok.1 h)
    rw [hwritten, hbytes, List.append_nil]

/-- Two base inputs and no signatures: `toBinaryArray` writes the transaction, and
`fromBinaryArray` gives back another one, with an empty list of signatures for each input. -/
theorem fromBinaryArray_two_base_inputs :
    Transaction.toBinaryArray ⟨⟨1, 0, [.base ⟨0⟩, .base ⟨0⟩], [], []⟩, []⟩ =
        .ok [1, 0, 2, 0xff, 0, 0xff, 0, 0, 0] ∧
      Transaction.fromBinaryArray [1, 0, 2, 0xff, 0, 0xff, 0, 0, 0] =
        .ok ⟨⟨1, 0, [.base ⟨0⟩, .base ⟨0⟩], [], []⟩, [[], []]⟩ := by
  constructor <;> decide

/-- The normalized transaction has the same binary form: `Transaction.normalized` changes no
byte that a hash of the blob reads. -/
theorem toBinaryArray_normalized {tx : Transaction} {bytes : List UInt8}
    (hP : tx.toTransactionPrefix.Readable) (h : tx.toBinaryArray = .ok bytes) :
    tx.normalized.toBinaryArray = .ok bytes := by
  have hrun := run_serializeTransaction_toBinaryArray hP h []
  rw [List.append_nil] at hrun
  obtain ⟨-, written, hwritten, hbytes⟩ := toBinaryArray_of_run_serializeTransaction hrun
  rw [hwritten, hbytes, List.append_nil]

end CryptoNote
