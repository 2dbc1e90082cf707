import Traaitt.Utilities.Addresses
import Traaitt.Common.TransactionExtra
import Traaitt.Errors.Errors
import Traaitt.Library.Except

/-! `ValidateParameters.cpp`: the checks of payment IDs and addresses. `validatePaymentID` takes
an empty text or 64 characters of `[a-zA-Z0-9]`, while the payment ID inside an integrated
address must be 64 hex digits, the check `createTxExtraWithPaymentId` makes. An address passes
`validateAddresses` when its length and prefix are right and its keys, after the payment ID of
an integrated one, parse. -/

namespace Errors

open CryptoNote CryptoNote.parameters Common Tools.Base58 Utilities WalletConfig

/-- `validatePaymentID`. `std::regex_match` with `[a-zA-Z0-9]{64}` is a length of 64 and every
character an ASCII letter or digit. -/
def validatePaymentID (paymentID : List Char) : Error :=
  if paymentID.isEmpty then ErrorCode.SUCCESS
  else if paymentID.length ≠ 64 then ErrorCode.PAYMENT_ID_WRONG_LENGTH
  else if !paymentID.all Char.isAlphanum then ErrorCode.PAYMENT_ID_INVALID
  else ErrorCode.SUCCESS

section

variable (cnFastHash : List UInt8 → Crypto.Hash) (checkKey : Crypto.PublicKey → Bool)

/-- The branch of `validateAddresses` for an address of `integratedAddressLength`: the standard
address of the keys it carries, or the error it returns. -/
def validateIntegratedAddress (integratedAddressesAllowed : Bool) (address : List Char) :
    Except Error (List Char) := do
  ExceptRun.throwIf (integratedAddressesAllowed = false)
    ⟨.ADDRESS_IS_INTEGRATED, "The address given (" ++ String.ofList address ++
      ") is an integrated address, but integrated addresses aren\x27t " ++
      "valid for this parameter."⟩
  let decoded ← ExceptRun.ofOption (ErrorCode.ADDRESS_NOT_BASE58 : Error)
    (decodeAddr cnFastHash address)
  let paymentIDLen := 64
  let paymentID := asString (decoded.2.take paymentIDLen)
  ExceptRun.throwIf (createTxExtraWithPaymentId paymentID [] = none)
    (ErrorCode.INTEGRATED_ADDRESS_PAYMENT_ID_INVALID : Error)
  let keys := decoded.2.drop paymentIDLen
  let addr ← ExceptRun.ofOption (ErrorCode.ADDRESS_NOT_VALID : Error)
    (AccountPublicAddress.fromBinaryArray keys)
  pure (getAccountAddressAsStr cnFastHash CRYPTONOTE_PUBLIC_ADDRESS_BASE58_PREFIX addr)

/-- The checks `validateAddresses` makes of one address. -/
def validateAddress (integratedAddressesAllowed : Bool) (address : List Char) :
    Except Error Unit := do
  ExceptRun.throwIf
    (address.length ≠ standardAddressLength ∧ address.length ≠ integratedAddressLength)
    ⟨.ADDRESS_WRONG_LENGTH, "The address given is the wrong length. It should be " ++
      toString standardAddressLength ++ " chars or " ++ toString integratedAddressLength ++
      " chars, but " ++ "it is " ++ toString address.length ++ " chars."⟩
  ExceptRun.throwIf (address.take addressPrefix.length ≠ addressPrefix)
    (ErrorCode.ADDRESS_WRONG_PREFIX : Error)
  let address ← (if address.length = integratedAddressLength then
      validateIntegratedAddress cnFastHash integratedAddressesAllowed address
    else pure address)
  ExceptRun.throwIf (parseAccountAddressString cnFastHash checkKey address = none)
    (ErrorCode.ADDRESS_NOT_VALID : Error)

/-- `validateAddresses`: the error of the first address that fails a check. -/
def validateAddresses (addresses : List (List Char)) (integratedAddressesAllowed : Bool) :
    Error :=
  match forM addresses (validateAddress cnFastHash checkKey integratedAddressesAllowed) with
  | .ok _ => ErrorCode.SUCCESS
  | .error error => error

end

/-! ## Payment IDs -/

theorem validatePaymentID_eq_success_iff {paymentID : List Char} :
    (validatePaymentID paymentID).errorCode = .SUCCESS ↔
      paymentID = [] ∨ paymentID.length = 64 ∧ ∀ c ∈ paymentID, c.isAlphanum := by
  unfold validatePaymentID
  by_cases hempty : paymentID = []
  · simp [hempty]
  · have hisEmpty : paymentID.isEmpty = false := List.isEmpty_eq_false_iff.2 hempty
    by_cases hlen : paymentID.length = 64
    · by_cases hall : paymentID.all Char.isAlphanum
      · simp [hisEmpty, hlen, hall, hempty]
        simpa using hall
      · simp only [hisEmpty, Bool.false_eq_true, if_false, hlen, ne_eq, not_true_eq_false, hall,
          Bool.not_false, if_true, hempty, true_and, false_or]
        simpa using hall
    · simp [hisEmpty, hlen, hempty]

/-- A payment ID that `validatePaymentID` accepts is empty or 64 ASCII letters and digits, each
one byte. -/
theorem toNat_lt_of_validatePaymentID {paymentID : List Char}
    (h : (validatePaymentID paymentID).errorCode = .SUCCESS) : ∀ c ∈ paymentID, c.toNat < 256 := by
  intro c hc
  rcases validatePaymentID_eq_success_iff.1 h with rfl | ⟨-, hall⟩
  · simp at hc
  · have halnum := hall c hc
    simp only [Char.isAlphanum, Char.isAlpha, Char.isUpper, Char.isLower, Char.isDigit,
      Bool.or_eq_true, Bool.and_eq_true, decide_eq_true_eq] at halnum
    simp only [UInt32.le_iff_toNat_le] at halnum
    have hA : ('A' : Char).val.toNat = 65 := rfl
    have hZ : ('Z' : Char).val.toNat = 90 := rfl
    have ha : ('a' : Char).val.toNat = 97 := rfl
    have hz : ('z' : Char).val.toNat = 122 := rfl
    have h0 : ('0' : Char).val.toNat = 48 := rfl
    have h9 : ('9' : Char).val.toNat = 57 := rfl
    show c.val.toNat < 256
    omega

/-! ## Addresses -/

section

variable (cnFastHash : List UInt8 → Crypto.Hash) (checkKey : Crypto.PublicKey → Bool)

theorem validateAddress_throwsOnly (integratedAddressesAllowed : Bool) (address : List Char) :
    ExceptRun.ThrowsOnly (fun error => error.errorCode ≠ .SUCCESS)
      (validateAddress cnFastHash checkKey integratedAddressesAllowed address) := by
  unfold validateAddress validateIntegratedAddress
  refine (ExceptRun.throwsOnly_throwIf (by simp)).bind fun _ =>
    (ExceptRun.throwsOnly_throwIf (by simp)).bind fun _ => ?_
  refine (ExceptRun.throwsOnly_ite ?_ (ExceptRun.throwsOnly_pure _)).bind fun _ =>
    ExceptRun.throwsOnly_throwIf (by simp)
  refine (ExceptRun.throwsOnly_throwIf (by simp)).bind fun _ =>
    (ExceptRun.throwsOnly_ofOption (by simp) _).bind fun _ =>
      (ExceptRun.throwsOnly_throwIf (by simp)).bind fun _ =>
        (ExceptRun.throwsOnly_ofOption (by simp) _).bind fun _ => ExceptRun.throwsOnly_pure _

theorem validateAddresses_eq_success_iff (addresses : List (List Char))
    (integratedAddressesAllowed : Bool) :
    (validateAddresses cnFastHash checkKey addresses integratedAddressesAllowed).errorCode =
        .SUCCESS ↔
      ∀ address ∈ addresses,
        validateAddress cnFastHash checkKey integratedAddressesAllowed address = .ok () := by
  rw [← ExceptRun.forM_eq_ok]
  unfold validateAddresses
  cases h : forM addresses (validateAddress cnFastHash checkKey integratedAddressesAllowed) with
  | ok u => simp
  | error e =>
    have hne := ExceptRun.ThrowsOnly.forM
      (fun address _ => validateAddress_throwsOnly cnFastHash checkKey _ address) e h
    simp [hne]

theorem parseAccountAddressString_of_validateAddress {address : List Char}
    (h : validateAddress cnFastHash checkKey false address = .ok ()) :
    ∃ tag adr, parseAccountAddressString cnFastHash checkKey address = some (tag, adr) := by
  unfold validateAddress at h
  obtain ⟨_, -, h⟩ := ExceptRun.bind_eq_ok.1 h
  obtain ⟨_, -, h⟩ := ExceptRun.bind_eq_ok.1 h
  obtain ⟨standard, hbranch, h⟩ := ExceptRun.bind_eq_ok.1 h
  split_ifs at hbranch with hintegrated
  · -- an integrated address is refused when integrated addresses are not allowed
    unfold validateIntegratedAddress at hbranch
    obtain ⟨_, hthrow, -⟩ := ExceptRun.bind_eq_ok.1 hbranch
    exact absurd (ExceptRun.throwIf_eq_ok.1 hthrow) (by simp)
  · rw [ExceptRun.pure_eq_ok] at hbranch
    subst hbranch
    obtain ⟨⟨tag, adr⟩, hparse⟩ := Option.ne_none_iff_exists'.1 (ExceptRun.throwIf_eq_ok.1 h)
    exact ⟨tag, adr, hparse⟩

theorem validateAddress_getAccountAddressAsStr (integratedAddressesAllowed : Bool)
    {adr : AccountPublicAddress} (hspend : checkKey adr.spendPublicKey = true)
    (hview : checkKey adr.viewPublicKey = true) :
    validateAddress cnFastHash checkKey integratedAddressesAllowed
      (getAccountAddressAsStr cnFastHash CRYPTONOTE_PUBLIC_ADDRESS_BASE58_PREFIX adr) =
        .ok () := by
  have hlen := length_getAccountAddressAsStr cnFastHash adr
  have hprefix : (getAccountAddressAsStr cnFastHash CRYPTONOTE_PUBLIC_ADDRESS_BASE58_PREFIX
      adr).take addressPrefix.length = addressPrefix :=
    take_two_encodeAddr cnFastHash (by simp)
  have hstandard : standardAddressLength ≠ integratedAddressLength := by decide
  rw [validateAddress, ExceptRun.throwIf_neg _ (by simp [hlen]), ExceptRun.ok_bind,
    ExceptRun.throwIf_neg _ (not_not.2 hprefix), ExceptRun.ok_bind, hlen, if_neg hstandard]
  rw [pure_bind, parseAccountAddressString_getAccountAddressAsStr cnFastHash checkKey _
    hspend hview]
  exact ExceptRun.throwIf_neg _ (by simp)


/-- The integrated-address branch on an address of a payment ID and keys: the standard address
of the keys when the payment ID is hex, `INTEGRATED_ADDRESS_PAYMENT_ID_INVALID` otherwise. -/
theorem validateIntegratedAddress_encodeAddr {paymentID : List Char}
    (hlen : paymentID.length = 64) (hbytes : ∀ c ∈ paymentID, c.toNat < 256)
    (adr : AccountPublicAddress) :
    validateIntegratedAddress cnFastHash true (encodeAddr cnFastHash
        CRYPTONOTE_PUBLIC_ADDRESS_BASE58_PREFIX (asBinaryArray paymentID ++ adr.toBinaryArray)) =
      if ∀ c ∈ paymentID, (fromHexChar c).isSome then
        .ok (getAccountAddressAsStr cnFastHash CRYPTONOTE_PUBLIC_ADDRESS_BASE58_PREFIX adr)
      else .error (ErrorCode.INTEGRATED_ADDRESS_PAYMENT_ID_INVALID : Error) := by
  have hid : (asBinaryArray paymentID).length = 64 := by rw [length_asBinaryArray, hlen]
  rw [validateIntegratedAddress, ExceptRun.throwIf_neg _ (by simp), ExceptRun.ok_bind,
    decodeAddr_encodeAddr]
  simp only [ExceptRun.ofOption, pure_bind, List.take_left' hid, List.drop_left' hid,
    asString_asBinaryArray hbytes]
  by_cases hhex : ∀ c ∈ paymentID, (fromHexChar c).isSome
  · have hextra : createTxExtraWithPaymentId paymentID [] ≠ none :=
      Option.isSome_iff_ne_none.1 (createTxExtraWithPaymentId_isSome_iff.2 ⟨hlen, hhex⟩)
    rw [ExceptRun.throwIf_neg _ hextra, ExceptRun.ok_bind,
      AccountPublicAddress.fromBinaryArray_toBinaryArray, if_pos hhex]
    rfl
  · have hextra : createTxExtraWithPaymentId paymentID [] = none := by
      rw [← Option.not_isSome_iff_eq_none, createTxExtraWithPaymentId_isSome_iff]
      exact fun h => hhex h.2
    rw [ExceptRun.throwIf_pos _ hextra, ExceptRun.error_bind, if_neg hhex]

/-- An integrated address of a payment ID and keys, checked with integrated addresses allowed:
it passes when the payment ID is hex and the keys pass `check_key`, and is refused for its
payment ID when that is not hex. -/
theorem validateAddress_integratedAddress {paymentID : List Char}
    (hlen : paymentID.length = 64) (hbytes : ∀ c ∈ paymentID, c.toNat < 256)
    {adr : AccountPublicAddress} (hspend : checkKey adr.spendPublicKey = true)
    (hview : checkKey adr.viewPublicKey = true) :
    validateAddress cnFastHash checkKey true (encodeAddr cnFastHash
        CRYPTONOTE_PUBLIC_ADDRESS_BASE58_PREFIX (asBinaryArray paymentID ++ adr.toBinaryArray)) =
      if ∀ c ∈ paymentID, (fromHexChar c).isSome then .ok ()
      else .error (ErrorCode.INTEGRATED_ADDRESS_PAYMENT_ID_INVALID : Error) := by
  have hintegrated := length_integratedAddress cnFastHash hlen adr
  have hprefix : (encodeAddr cnFastHash CRYPTONOTE_PUBLIC_ADDRESS_BASE58_PREFIX
      (asBinaryArray paymentID ++ adr.toBinaryArray)).take addressPrefix.length =
        addressPrefix :=
    take_two_encodeAddr cnFastHash (by simp [hlen])
  rw [validateAddress, ExceptRun.throwIf_neg _ (by simp [hintegrated]), ExceptRun.ok_bind,
    ExceptRun.throwIf_neg _ (not_not.2 hprefix), ExceptRun.ok_bind, if_pos hintegrated,
    validateIntegratedAddress_encodeAddr cnFastHash hlen hbytes]
  split_ifs with hhex
  · rw [ExceptRun.ok_bind, parseAccountAddressString_getAccountAddressAsStr cnFastHash checkKey _
      hspend hview]
    exact ExceptRun.throwIf_neg _ (by simp)
  · rfl

end

end Errors
