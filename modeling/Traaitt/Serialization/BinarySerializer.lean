import Traaitt.Library.Codec
import Traaitt.Common.StreamTools
import Traaitt.CryptoNote.Pod
import Traaitt.Config.CryptoNoteConfig

/-! `BinaryInputStreamSerializer.cpp` and `BinaryOutputStreamSerializer.cpp`: the binary
serializer reads and writes integers of every width as varints (`writeVarint` takes a
`uint64_t`), array sizes as `uint64_t` varints, strings after their size, and `binary` values as
their bytes. Each reader and its writer are a codec: the reader reads back every value the
writer writes, and what it accepts is exactly a written value, since `readVarint` refuses what
does not fit and every form but the shortest. -/

namespace CryptoNote

open Common Codec

/-- A reader of the bytes of a memory stream; an error is the text of the exception thrown. -/
abbrev BinaryReader := Codec.Reader UInt8 String

namespace BinaryInput

/-- `readVarintAs<T>(stream, value)` and `readVarint(stream, value)` into an unsigned value of
`bits` bits, converted by `ofNat`. -/
def readVarintAs {α : Type} (bits : ℕ) (ofNat : ℕ → α) : BinaryReader α :=
  ofNat <$> readVarint bits

/-- `operator()(uint8_t &value)`. -/
def serializeUInt8 : BinaryReader UInt8 :=
  readVarintAs 8 UInt8.ofNat

/-- `operator()(uint32_t &value)`. -/
def serializeUInt32 : BinaryReader UInt32 :=
  readVarintAs 32 UInt32.ofNat

/-- `operator()(uint64_t &value)`. -/
def serializeUInt64 : BinaryReader UInt64 :=
  readVarintAs 64 UInt64.ofNat

/-- `beginArray(size)`: `readVarintAs<uint64_t>`. -/
def beginArray : BinaryReader ℕ :=
  readVarint 64

/-- `binary(value, size)`: `checkedRead` of `size` bytes. -/
def binary (size : ℕ) : BinaryReader (List UInt8) :=
  read size

/-- `operator()(std::string &value, name)`: the size, then as many bytes; under the name
`mm_tag` a size above `MAX_EXTRA_SIZE` is read past and gives the empty string. -/
def serializeString (name : List Char) : BinaryReader (List UInt8) :=
  readVarint 64 >>= fun size =>
    if size > parameters.MAX_EXTRA_SIZE.toNat ∧ name = "mm_tag".toList then
      (fun _ => []) <$> read size
    else read size

/-- `serializeAsBinary(std::vector<uint8_t> &value, name)` on input: the string `binary` reads,
whose size is always a multiple of `sizeof(uint8_t)`. -/
def serializeAsBinary (name : List Char) : BinaryReader (List UInt8) :=
  serializeString name

/-- `serializePod(v)` on input for a value of `width` bytes: the value whose memory they are. -/
def serializePod (width : ℕ) : BinaryReader (BitVec (8 * width)) :=
  Crypto.podOfBytes (8 * width) <$> binary width

/-- `serializeContainer(value)` on input: `beginArray`, then as many values. -/
def serializeContainer {α : Type} (read : BinaryReader α) : BinaryReader (List α) :=
  readVector beginArray read

end BinaryInput

namespace BinaryOutput

/-- `writeVarint(stream, value)` of an unsigned value read as a number by `toNat`. -/
def writeVarintAs {α : Type} (toNat : α → ℕ) (value : α) : List UInt8 :=
  writeVarint 9 (toNat value)

def serializeUInt8 : UInt8 → List UInt8 :=
  writeVarintAs UInt8.toNat

def serializeUInt32 : UInt32 → List UInt8 :=
  writeVarintAs UInt32.toNat

def serializeUInt64 : UInt64 → List UInt8 :=
  writeVarintAs UInt64.toNat

/-- `beginArray(size)`: `writeVarint` of the size. -/
def beginArray (size : ℕ) : List UInt8 :=
  writeVarint 9 size

/-- `operator()(std::string &value)`: the size, then the bytes. -/
def serializeString (value : List UInt8) : List UInt8 :=
  writeVarint 9 value.length ++ value

def serializeAsBinary : List UInt8 → List UInt8 :=
  serializeString

/-- `serializeContainer(value)` on output: `beginArray`, then each value. -/
def serializeContainer {α : Type} (write : α → List UInt8) : List α → List UInt8 :=
  writeVector beginArray write

end BinaryOutput

/-! ## Varints -/

section Varint

variable {bits : ℕ}

theorem lt_writeVarint_rounds {value : ℕ} (hbits : bits ≤ 64) (hvalue : value < 2 ^ bits) :
    value < 128 ^ (9 + 1) := by
  have hpow : 2 ^ bits ≤ 128 ^ (9 + 1) := by
    rw [show (128 : ℕ) = 2 ^ 7 by rfl, ← pow_mul]
    exact Nat.pow_le_pow_right (by norm_num) (by omega)
  omega

theorem readsBack_readVarint (hbits : bits ≤ 64) :
    ReadsBack (readVarint bits) (writeVarint 9) (· < 2 ^ bits) := by
  intro value hvalue rest
  rw [writeVarint_eq_encode (lt_writeVarint_rounds hbits hvalue)]
  exact readVarint_complete hvalue rest

theorem canonical_readVarint (hbits : 0 < bits) (hbits' : bits ≤ 64) :
    Canonical (readVarint bits) (writeVarint 9) (· < 2 ^ bits) := by
  intro s value rest hread
  obtain ⟨hs, hvalue⟩ := readVarint_sound hbits hread
  exact ⟨hvalue, by rw [writeVarint_eq_encode (lt_writeVarint_rounds hbits' hvalue), hs]⟩

variable {α : Type} {ofNat : ℕ → α} {toNat : α → ℕ}

/-- An unsigned type of `bits` bits: every value below `2 ^ bits`, and the number it is read
from. -/
theorem readsBack_readVarintAs (hbits : bits ≤ 64) (hlt : ∀ a, toNat a < 2 ^ bits)
    (hofNat : ∀ a, ofNat (toNat a) = a) :
    ReadsBack (BinaryInput.readVarintAs bits ofNat) (BinaryOutput.writeVarintAs toNat)
      fun _ => True :=
  (readsBack_readVarint hbits).map (fun a _ => hlt a) (fun a _ => hofNat a)

theorem canonical_readVarintAs (hbits : 0 < bits) (hbits' : bits ≤ 64)
    (htoNat : ∀ n < 2 ^ bits, toNat (ofNat n) = n) :
    Canonical (BinaryInput.readVarintAs bits ofNat) (BinaryOutput.writeVarintAs toNat)
      fun _ => True :=
  (canonical_readVarint hbits hbits').map (fun _ _ => trivial) htoNat

theorem readsBack_serializeUInt8 :
    ReadsBack BinaryInput.serializeUInt8 BinaryOutput.serializeUInt8 fun _ => True :=
  readsBack_readVarintAs (by norm_num) UInt8.toNat_lt fun _ => UInt8.ofNat_toNat

theorem canonical_serializeUInt8 :
    Canonical BinaryInput.serializeUInt8 BinaryOutput.serializeUInt8 fun _ => True :=
  canonical_readVarintAs (by norm_num) (by norm_num) fun _ h => UInt8.toNat_ofNat_of_lt' h

theorem readsBack_serializeUInt32 :
    ReadsBack BinaryInput.serializeUInt32 BinaryOutput.serializeUInt32 fun _ => True :=
  readsBack_readVarintAs (by norm_num) UInt32.toNat_lt fun _ => UInt32.ofNat_toNat

theorem canonical_serializeUInt32 :
    Canonical BinaryInput.serializeUInt32 BinaryOutput.serializeUInt32 fun _ => True :=
  canonical_readVarintAs (by norm_num) (by norm_num) fun _ h => UInt32.toNat_ofNat_of_lt' h

theorem readsBack_serializeUInt64 :
    ReadsBack BinaryInput.serializeUInt64 BinaryOutput.serializeUInt64 fun _ => True :=
  readsBack_readVarintAs le_rfl UInt64.toNat_lt fun _ => UInt64.ofNat_toNat

theorem canonical_serializeUInt64 :
    Canonical BinaryInput.serializeUInt64 BinaryOutput.serializeUInt64 fun _ => True :=
  canonical_readVarintAs (by norm_num) le_rfl fun _ h => UInt64.toNat_ofNat_of_lt' h

theorem readsBack_beginArray :
    ReadsBack BinaryInput.beginArray BinaryOutput.beginArray (· < 2 ^ 64) :=
  readsBack_readVarint le_rfl

theorem canonical_beginArray :
    Canonical BinaryInput.beginArray BinaryOutput.beginArray (· < 2 ^ 64) :=
  canonical_readVarint (by norm_num) le_rfl

end Varint

/-! ## Bytes, strings and containers -/

theorem readsBack_binary (size : ℕ) :
    ReadsBack (BinaryInput.binary size) id (·.length = size) :=
  fun _ hsize rest => read_append hsize rest

theorem canonical_binary (size : ℕ) :
    Canonical (BinaryInput.binary size) id (·.length = size) := by
  intro s bytes rest hread
  obtain ⟨hs, hsize⟩ := read_eq_ok hread
  exact ⟨hsize, hs⟩

@[simp] theorem run_readUInt8_cons (byte : UInt8) (s : List UInt8) :
    StateT.run (readUInt8 : BinaryReader UInt8) (byte :: s) = Except.ok (byte, s) :=
  rfl

theorem canonical_readUInt8 : Canonical readUInt8 (fun byte => [byte]) fun _ => True := by
  rintro (_ | ⟨byte, s⟩) a rest hread
  · cases hread
  · cases hread
    exact ⟨trivial, rfl⟩

theorem readsBack_serializePod (width : ℕ) :
    ReadsBack (BinaryInput.serializePod width) (Crypto.podBytes width) fun _ => True :=
  (readsBack_binary width).map (fun _ _ => Crypto.length_podBytes _)
    (fun x _ => Crypto.podOfBytes_podBytes width x)

theorem canonical_serializePod (width : ℕ) :
    Canonical (BinaryInput.serializePod width) (Crypto.podBytes width) fun _ => True :=
  (canonical_binary width).map (fun _ _ => trivial) fun _ h => Crypto.podBytes_podOfBytes h

theorem serializeString_eq {name : List Char} (hname : name ≠ "mm_tag".toList) :
    BinaryInput.serializeString name = readVarint 64 >>= fun size => read size := by
  unfold BinaryInput.serializeString
  congr 1
  funext size
  rw [if_neg fun h => hname h.2]

theorem readsBack_serializeString {name : List Char} (hname : name ≠ "mm_tag".toList) :
    ReadsBack (BinaryInput.serializeString name) BinaryOutput.serializeString
      (·.length < 2 ^ 64) := by
  intro value hvalue rest
  rw [serializeString_eq hname, BinaryOutput.serializeString, List.append_assoc,
    run_bind_of_ok (readsBack_readVarint le_rfl value.length hvalue (value ++ rest))]
  exact read_append rfl rest

theorem canonical_serializeString {name : List Char} (hname : name ≠ "mm_tag".toList) :
    Canonical (BinaryInput.serializeString name) BinaryOutput.serializeString
      (·.length < 2 ^ 64) := by
  intro s value rest hrun
  rw [serializeString_eq hname] at hrun
  obtain ⟨size, t, hsize, hread⟩ := run_bind_eq_ok.1 hrun
  obtain ⟨hbound, hs⟩ := canonical_readVarint (by norm_num) le_rfl s size t hsize
  obtain ⟨ht, hlength⟩ := read_eq_ok hread
  subst hlength
  exact ⟨hbound, by rw [hs, ht, BinaryOutput.serializeString, List.append_assoc]⟩

theorem readsBack_serializeAsBinary {name : List Char} (hname : name ≠ "mm_tag".toList) :
    ReadsBack (BinaryInput.serializeAsBinary name) BinaryOutput.serializeAsBinary
      (·.length < 2 ^ 64) :=
  readsBack_serializeString hname

theorem canonical_serializeAsBinary {name : List Char} (hname : name ≠ "mm_tag".toList) :
    Canonical (BinaryInput.serializeAsBinary name) BinaryOutput.serializeAsBinary
      (·.length < 2 ^ 64) :=
  canonical_serializeString hname

variable {α : Type} {read : BinaryReader α} {write : α → List UInt8} {P : α → Prop}

theorem readsBack_serializeContainer (h : ReadsBack read write P) :
    ReadsBack (BinaryInput.serializeContainer read) (BinaryOutput.serializeContainer write)
      fun as => as.length < 2 ^ 64 ∧ ∀ a ∈ as, P a :=
  readsBack_beginArray.readVector h

theorem canonical_serializeContainer (h : Canonical read write P) :
    Canonical (BinaryInput.serializeContainer read) (BinaryOutput.serializeContainer write)
      fun as => as.length < 2 ^ 64 ∧ ∀ a ∈ as, P a :=
  canonical_beginArray.readVector h

end CryptoNote
