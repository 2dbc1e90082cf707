import Traaitt.CryptoNote.Types
import Traaitt.Library.Radix

/-! The memory of the fixed-size crypto values. `serializePod` writes a key, hash or signature
as its bytes in order, and `reinterpret_cast` reads a hash so; a value's `BitVec` holds its
byte `i` at bits `8 i` to `8 i + 7`. -/

namespace Crypto

/-- The `width` bytes of a fixed-size value, in memory order. -/
def podBytes {w : ℕ} (width : ℕ) (x : BitVec w) : List UInt8 :=
  Radix.leBytes width x.toNat

/-- The value whose memory is `bytes`. -/
def podOfBytes (w : ℕ) (bytes : List UInt8) : BitVec w :=
  BitVec.ofNat w (Radix.ofLeBytes bytes)

variable {width : ℕ}

@[simp] theorem length_podBytes {w : ℕ} (x : BitVec w) : (podBytes width x).length = width :=
  Radix.length_leBytes width _

theorem podOfBytes_podBytes (width : ℕ) (x : BitVec (8 * width)) :
    podOfBytes (8 * width) (podBytes width x) = x := by
  have hlt : x.toNat < 256 ^ width := by
    have := x.isLt
    rwa [pow_mul] at this
  rw [podOfBytes, podBytes, Radix.ofLeBytes_leBytes, Nat.mod_eq_of_lt hlt, BitVec.ofNat_toNat,
    BitVec.setWidth_eq]

theorem podBytes_podOfBytes {bytes : List UInt8} (h : bytes.length = width) :
    podBytes width (podOfBytes (8 * width) bytes) = bytes := by
  have hlt : Radix.ofLeBytes bytes < 2 ^ (8 * width) := by
    rw [pow_mul, ← h]
    exact Radix.ofLeBytes_lt bytes
  rw [podBytes, podOfBytes, BitVec.toNat_ofNat, Nat.mod_eq_of_lt hlt, ← h,
    Radix.leBytes_ofLeBytes]

/-- The 32 bytes of a hash, as `reinterpret_cast<const char *>(&hash)` reads them. -/
def Hash.bytes (hash : Hash) : List UInt8 :=
  podBytes 32 hash.data

@[simp] theorem Hash.length_bytes (hash : Hash) : hash.bytes.length = 32 :=
  length_podBytes _

/-- The hash whose memory is `bytes`. -/
def Hash.ofBytes (bytes : List UInt8) : Hash :=
  ⟨podOfBytes 256 bytes⟩

theorem Hash.ofBytes_bytes (hash : Hash) : Hash.ofBytes hash.bytes = hash :=
  congrArg Hash.mk (podOfBytes_podBytes 32 hash.data)

/-- The 32 bytes of a public key, as `serializePod` writes them. -/
def PublicKey.bytes (key : PublicKey) : List UInt8 :=
  podBytes 32 key.data

def PublicKey.ofBytes (bytes : List UInt8) : PublicKey :=
  ⟨podOfBytes 256 bytes⟩

@[simp] theorem PublicKey.length_bytes (key : PublicKey) : key.bytes.length = 32 :=
  length_podBytes _

theorem PublicKey.ofBytes_bytes (key : PublicKey) : PublicKey.ofBytes key.bytes = key :=
  congrArg PublicKey.mk (podOfBytes_podBytes 32 key.data)

/-- The 32 bytes of a key image, as `serializePod` writes them. -/
def KeyImage.bytes (keyImage : KeyImage) : List UInt8 :=
  podBytes 32 keyImage.data

@[simp] theorem KeyImage.length_bytes (keyImage : KeyImage) : keyImage.bytes.length = 32 :=
  length_podBytes _

/-- The 64 bytes of a signature, as `serializePod` writes them. -/
def Signature.bytes (signature : Signature) : List UInt8 :=
  podBytes 64 signature.data

@[simp] theorem Signature.length_bytes (signature : Signature) : signature.bytes.length = 64 :=
  length_podBytes _

end Crypto
