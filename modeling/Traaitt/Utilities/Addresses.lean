import Traaitt.Common.Base58
import Traaitt.Common.StringTools
import Traaitt.Config.CryptoNoteConfig

/-! `Addresses.cpp`: an address is the `encode_addr` of the coin's tag and the binary
`AccountPublicAddress`, its spend and view keys; an integrated address carries the 64 characters
of a payment ID before the keys. `cn_fast_hash` and `check_key` are fixed functions, parameters
here. With the coin's tag 1334, whose varint is `b6 0a`, the first block of every encoding lies
in the range whose two leading digits are `XT` (`take_two_encodeAddr`), and 64 and 128 bytes of
data give the standard and integrated lengths of `WalletConfig`. -/

namespace CryptoNote

structure AccountPublicAddress where
  spendPublicKey : Crypto.PublicKey
  viewPublicKey : Crypto.PublicKey
  deriving DecidableEq, Repr

/-- `toBinaryArray(adr)`: the two keys as `serializePod` writes them. -/
def AccountPublicAddress.toBinaryArray (adr : AccountPublicAddress) : List UInt8 :=
  adr.spendPublicKey.bytes ++ adr.viewPublicKey.bytes

/-- `fromBinaryArray(adr, ba)`: the keys read from the 64 bytes of `ba`. On fewer bytes the read
throws, on more `endOfStream` fails; either way it returns false and leaves `adr` as it was,
here `none`. -/
def AccountPublicAddress.fromBinaryArray (ba : List UInt8) : Option AccountPublicAddress :=
  if ba.length = 64 then some ⟨.ofBytes (ba.take 32), .ofBytes (ba.drop 32)⟩ else none

@[simp] theorem AccountPublicAddress.length_toBinaryArray (adr : AccountPublicAddress) :
    adr.toBinaryArray.length = 64 := by
  simp [toBinaryArray]

theorem AccountPublicAddress.fromBinaryArray_toBinaryArray (adr : AccountPublicAddress) :
    fromBinaryArray adr.toBinaryArray = some adr := by
  have hspend : adr.spendPublicKey.bytes.length = 32 := Crypto.PublicKey.length_bytes _
  rw [fromBinaryArray, if_pos (length_toBinaryArray adr), toBinaryArray,
    List.take_left' hspend, List.drop_left' hspend, Crypto.PublicKey.ofBytes_bytes,
    Crypto.PublicKey.ofBytes_bytes]

end CryptoNote

namespace Utilities

open CryptoNote CryptoNote.parameters Common Tools Tools.Base58 WalletConfig

section

variable (cnFastHash : List UInt8 → Crypto.Hash) (checkKey : Crypto.PublicKey → Bool)

/-- `getAccountAddressAsStr`: `encode_addr` of the tag and the keys' bytes (`asString` of a byte
array is the same bytes). -/
def getAccountAddressAsStr (tag : UInt64) (adr : AccountPublicAddress) : List Char :=
  encodeAddr cnFastHash tag adr.toBinaryArray

/-- `parseAccountAddressString`: the tag and the keys, `none` where it returns false. -/
def parseAccountAddressString (str : List Char) : Option (UInt64 × AccountPublicAddress) :=
  (decodeAddr cnFastHash str).bind fun decoded =>
    (AccountPublicAddress.fromBinaryArray decoded.2).bind fun adr =>
      if checkKey adr.spendPublicKey && checkKey adr.viewPublicKey then some (decoded.1, adr)
      else none

/-- `extractIntegratedAddressData` of an address assumed valid: the standard address of its keys
and its payment ID. `none` where the source throws (`substr` past the end of fewer than 64
decoded bytes) or reads the uninitialised keys that a failed `fromBinaryArray` leaves. -/
def extractIntegratedAddressData (address : List Char) : Option (List Char × List Char) :=
  let decoded := match decodeAddr cnFastHash address with
    | some (_, data) => data
    | none => []
  let paymentIDLen := 64
  if decoded.length < paymentIDLen then none
  else
    let paymentID := asString (decoded.take paymentIDLen)
    let keys := decoded.drop paymentIDLen
    (AccountPublicAddress.fromBinaryArray keys).map fun addr =>
      (getAccountAddressAsStr cnFastHash CRYPTONOTE_PUBLIC_ADDRESS_BASE58_PREFIX addr, paymentID)

/-! ## The coin's tag -/

theorem getVarintData_base58Prefix :
    getVarintData CRYPTONOTE_PUBLIC_ADDRESS_BASE58_PREFIX = [0xB6, 0x0A] := by
  decide

/-- Addresses with the coin's tag: two varint bytes, the data and four checksum bytes. -/
theorem length_encodeAddr (data : List UInt8) :
    (encodeAddr cnFastHash CRYPTONOTE_PUBLIC_ADDRESS_BASE58_PREFIX data).length =
      (data.length + 6) / 8 * 11 + encodedBlockSizes.getD ((data.length + 6) % 8) 0 := by
  rw [encodeAddr, length_encode, List.length_append, List.length_append, length_checksum,
    getVarintData_base58Prefix, fullBlockSize_eq, fullEncodedBlockSize_eq]
  simp only [List.length_cons, List.length_nil, addrChecksumSize]
  rw [show 0 + 1 + 1 + data.length + 4 = data.length + 6 by omega]

/-- Every address with the coin's tag starts with `addressPrefix`: its first block, read
big-endian, is `b6 0a` and six more bytes, and all such numbers have the leading base-58 digits
30 and 26, `X` and `T`. -/
theorem take_two_encodeAddr {data : List UInt8} (hdata : 6 ≤ data.length) :
    (encodeAddr cnFastHash CRYPTONOTE_PUBLIC_ADDRESS_BASE58_PREFIX data).take 2 =
      addressPrefix := by
  obtain ⟨six, rest, hsplit, hsix⟩ : ∃ six rest, data = six ++ rest ∧ six.length = 6 :=
    ⟨data.take 6, data.drop 6, (List.take_append_drop 6 data).symm, by simp [hdata]⟩
  have hpayload : fullBlockSize ≤ ([0xB6, 0x0A] ++ data ++
      (cnFastHash ([0xB6, 0x0A] ++ data)).bytes.take addrChecksumSize).length := by
    rw [List.length_append, length_checksum, List.length_append, fullBlockSize_eq]
    simp only [List.length_cons, List.length_nil]
    omega
  have hfirst : (([0xB6, 0x0A] ++ data) ++
      (cnFastHash ([0xB6, 0x0A] ++ data)).bytes.take addrChecksumSize).take fullBlockSize =
        0xB6 :: 0x0A :: six := by
    rw [fullBlockSize_eq, hsplit, List.append_assoc, List.append_assoc]
    simp [hsix]
  rw [encodeAddr, getVarintData_base58Prefix,
    take_encode hpayload (by rw [fullEncodedBlockSize_eq]; decide), hfirst]
  have hnum : uint8beTo64 (0xB6 :: 0x0A :: six) / 58 ^ 9 = 1766 := by
    have hlt := Radix.ofLeBytes_lt six.reverse
    have htop : Radix.ofLeBytes ([0x0A] ++ [0xB6]) = 0xB60A := by decide
    rw [List.length_reverse, hsix] at hlt
    rw [uint8beTo64_eq, List.reverse_cons, List.reverse_cons, List.append_assoc,
      Radix.ofLeBytes_append, List.length_reverse, hsix, htop]
    omega
  have hlen : (0xB6 :: 0x0A :: six : List UInt8).length = 8 := by simp [hsix]
  have hwidth : encodedBlockSizes.getD 8 0 = 9 + 2 := rfl
  rw [encodeBlock, hlen, hwidth, encodeBlockDigits_eq, alphabetSize_eq, List.take_reverse,
    List.length_map, Radix.length_digits, ← List.map_drop, Nat.add_sub_cancel,
    Radix.drop_digits, hnum]
  decide

theorem length_getAccountAddressAsStr (adr : AccountPublicAddress) :
    (getAccountAddressAsStr cnFastHash CRYPTONOTE_PUBLIC_ADDRESS_BASE58_PREFIX adr).length =
      standardAddressLength := by
  rw [getAccountAddressAsStr, length_encodeAddr, AccountPublicAddress.length_toBinaryArray]
  rfl

/-! ## Parsing -/

theorem parseAccountAddressString_getAccountAddressAsStr (tag : UInt64)
    {adr : AccountPublicAddress} (hkeys : checkKey adr.spendPublicKey = true)
    (hview : checkKey adr.viewPublicKey = true) :
    parseAccountAddressString cnFastHash checkKey (getAccountAddressAsStr cnFastHash tag adr) =
      some (tag, adr) := by
  simp [parseAccountAddressString, getAccountAddressAsStr, decodeAddr_encodeAddr,
    AccountPublicAddress.fromBinaryArray_toBinaryArray, hkeys, hview]

theorem parseAccountAddressString_eq_some {str : List Char} {tag : UInt64}
    {adr : AccountPublicAddress}
    (h : parseAccountAddressString cnFastHash checkKey str = some (tag, adr)) :
    decodeAddr cnFastHash str = some (tag, adr.toBinaryArray) ∧
      checkKey adr.spendPublicKey = true ∧ checkKey adr.viewPublicKey = true := by
  obtain ⟨⟨tag', data⟩, hdecode, h⟩ := Option.bind_eq_some_iff.1 h
  obtain ⟨adr', hadr, h⟩ := Option.bind_eq_some_iff.1 h
  split_ifs at h with hkeys
  obtain ⟨rfl, rfl⟩ := Prod.mk.inj (Option.some.inj h)
  have hlen : data.length = 64 := by
    rw [AccountPublicAddress.fromBinaryArray] at hadr
    split_ifs at hadr with hlen
    exact hlen
  have hdata : data = adr'.toBinaryArray := by
    rw [AccountPublicAddress.fromBinaryArray, if_pos hlen, Option.some.injEq] at hadr
    rw [← hadr, AccountPublicAddress.toBinaryArray]
    simp only
    rw [Crypto.PublicKey.bytes, Crypto.PublicKey.bytes, Crypto.PublicKey.ofBytes,
      Crypto.PublicKey.ofBytes, Crypto.podBytes_podOfBytes (by simp [hlen]),
      Crypto.podBytes_podOfBytes (by simp [hlen]), List.take_append_drop]
  rw [Bool.and_eq_true] at hkeys
  exact ⟨hdata ▸ hdecode, hkeys⟩

/-! ## Integrated addresses -/

/-- The data of an integrated address: a payment ID of 64 characters, each a byte, and the
keys. -/
theorem extractIntegratedAddressData_encodeAddr {paymentID : List Char}
    (hlen : paymentID.length = 64) (hbytes : ∀ c ∈ paymentID, c.toNat < 256)
    (adr : AccountPublicAddress) :
    extractIntegratedAddressData cnFastHash (encodeAddr cnFastHash
        CRYPTONOTE_PUBLIC_ADDRESS_BASE58_PREFIX (asBinaryArray paymentID ++ adr.toBinaryArray)) =
      some (getAccountAddressAsStr cnFastHash CRYPTONOTE_PUBLIC_ADDRESS_BASE58_PREFIX adr,
        paymentID) := by
  have hid : (asBinaryArray paymentID).length = 64 := by rw [length_asBinaryArray, hlen]
  simp only [extractIntegratedAddressData, decodeAddr_encodeAddr, List.length_append, hid,
    AccountPublicAddress.length_toBinaryArray, List.take_left' hid, List.drop_left' hid,
    AccountPublicAddress.fromBinaryArray_toBinaryArray, asString_asBinaryArray hbytes,
    Option.map_some]
  rfl

theorem length_integratedAddress {paymentID : List Char} (hlen : paymentID.length = 64)
    (adr : AccountPublicAddress) :
    (encodeAddr cnFastHash CRYPTONOTE_PUBLIC_ADDRESS_BASE58_PREFIX
        (asBinaryArray paymentID ++ adr.toBinaryArray)).length = integratedAddressLength := by
  rw [length_encodeAddr, List.length_append, length_asBinaryArray, hlen,
    AccountPublicAddress.length_toBinaryArray]
  rfl

end

end Utilities
