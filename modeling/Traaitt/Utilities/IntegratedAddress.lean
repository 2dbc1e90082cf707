import Traaitt.Errors.ValidateParameters

/-! `createIntegratedAddress` of `Addresses.cpp`, which calls the checks of
`ValidateParameters.cpp`: the payment ID and the keys of a standard address, encoded with the
coin's tag. With 64 hex digits the integrated address passes `validateAddresses`, has
`integratedAddressLength` characters, and gives back the payment ID and the address of the keys
with the coin's tag. `validatePaymentID` also accepts the empty payment ID, which makes a
standard address, and 64 letters and digits that are not all hex, which make an address that
`validateAddresses` refuses (`createIntegratedAddress_validateAddresses`). -/

namespace Utilities

open CryptoNote CryptoNote.parameters Common Tools Tools.Base58 Errors WalletConfig

section

variable (cnFastHash : List UInt8 → Crypto.Hash) (checkKey : Crypto.PublicKey → Bool)

/-- `createIntegratedAddress`: the error and the address, the empty string with an error. After
`validateAddresses` the address parses; were it not to, the source would encode uninitialised
keys, here `none`. -/
def createIntegratedAddress (address paymentID : List Char) : Error × Option (List Char) :=
  let error := validatePaymentID paymentID
  if error.errorCode ≠ .SUCCESS then (error, some [])
  else
    let allowIntegratedAddresses := false
    let error := validateAddresses cnFastHash checkKey [address] allowIntegratedAddresses
    if error.errorCode ≠ .SUCCESS then (error, some [])
    else
      match parseAccountAddressString cnFastHash checkKey address with
      | none => (ErrorCode.SUCCESS, none)
      | some (_, addr) =>
        let keys := asString addr.toBinaryArray
        (ErrorCode.SUCCESS, some (encodeAddr cnFastHash CRYPTONOTE_PUBLIC_ADDRESS_BASE58_PREFIX
          (asBinaryArray (paymentID ++ keys))))

/-- An address that parses is the encoding of what it parses to: `decode_addr` reads only
canonical encodings of data that is not empty. -/
theorem eq_getAccountAddressAsStr_of_parse {address : List Char} {tag : UInt64}
    {adr : AccountPublicAddress}
    (h : parseAccountAddressString cnFastHash checkKey address = some (tag, adr)) :
    address = getAccountAddressAsStr cnFastHash tag adr := by
  obtain ⟨hdecode, -, -⟩ := parseAccountAddressString_eq_some cnFastHash checkKey h
  obtain ⟨rest, hpayload, hrest⟩ := decodeAddr_eq_some cnFastHash hdecode
  have hwhole : rest = getVarintData tag ++ adr.toBinaryArray := by
    rcases hrest with hrest | ⟨hempty, -, -⟩
    · exact hrest
    · have := congrArg List.length hempty
      simp at this
  rw [getAccountAddressAsStr, encodeAddr, ← hwhole, encode_of_decode hpayload]

/-- What `createIntegratedAddress` returns for an address and a payment ID that pass their
checks. -/
theorem createIntegratedAddress_eq {address paymentID : List Char}
    (haddress : (validateAddresses cnFastHash checkKey [address] false).errorCode = .SUCCESS)
    (hpaymentID : (validatePaymentID paymentID).errorCode = .SUCCESS) :
    ∃ tag adr, parseAccountAddressString cnFastHash checkKey address = some (tag, adr) ∧
      createIntegratedAddress cnFastHash checkKey address paymentID =
        ((ErrorCode.SUCCESS : Error), some (encodeAddr cnFastHash
          CRYPTONOTE_PUBLIC_ADDRESS_BASE58_PREFIX (asBinaryArray paymentID ++ adr.toBinaryArray))) := by
  have hvalid := (validateAddresses_eq_success_iff cnFastHash checkKey [address] false).1 haddress
    address List.mem_cons_self
  obtain ⟨tag, adr, hparse⟩ := parseAccountAddressString_of_validateAddress cnFastHash checkKey
    hvalid
  refine ⟨tag, adr, hparse, ?_⟩
  rw [createIntegratedAddress]
  simp only [hpaymentID, haddress, ne_eq, not_true_eq_false, if_false, hparse]
  rw [asBinaryArray, List.map_append, ← asBinaryArray, ← asBinaryArray, asBinaryArray_asString]

/-- The integrated address of a standard address and a payment ID that pass their checks: a
standard address again for the empty payment ID; otherwise an address of
`integratedAddressLength` characters that `validateAddresses` accepts exactly when the payment
ID is hex, refusing it for its payment ID, and from which `extractIntegratedAddressData` gives
back the payment ID and the keys' address with the coin's tag. -/
theorem createIntegratedAddress_validateAddresses (address paymentID : List Char)
    (haddress : (validateAddresses cnFastHash checkKey [address] false).errorCode = .SUCCESS)
    (hpaymentID : (validatePaymentID paymentID).errorCode = .SUCCESS) :
    ∃ tag adr integratedAddress,
      address = getAccountAddressAsStr cnFastHash tag adr ∧
      createIntegratedAddress cnFastHash checkKey address paymentID =
        ((ErrorCode.SUCCESS : Error), some integratedAddress) ∧
      (paymentID = [] → integratedAddress.length = standardAddressLength) ∧
      (paymentID ≠ [] →
        integratedAddress.length = integratedAddressLength ∧
        (validateAddresses cnFastHash checkKey [integratedAddress] true).errorCode =
          (if ∀ c ∈ paymentID, (fromHexChar c).isSome then .SUCCESS
            else .INTEGRATED_ADDRESS_PAYMENT_ID_INVALID) ∧
        extractIntegratedAddressData cnFastHash integratedAddress =
          some (getAccountAddressAsStr cnFastHash CRYPTONOTE_PUBLIC_ADDRESS_BASE58_PREFIX adr,
            paymentID)) := by
  obtain ⟨tag, adr, hparse, hcreate⟩ := createIntegratedAddress_eq cnFastHash checkKey haddress
    hpaymentID
  obtain ⟨-, hspend, hview⟩ := parseAccountAddressString_eq_some cnFastHash checkKey hparse
  refine ⟨tag, adr, _, eq_getAccountAddressAsStr_of_parse cnFastHash checkKey hparse, hcreate,
    ?_, ?_⟩
  · -- no payment ID: the keys alone, as in a standard address
    rintro rfl
    exact length_getAccountAddressAsStr cnFastHash adr
  · intro hne
    have hlen : paymentID.length = 64 := by
      rcases validatePaymentID_eq_success_iff.1 hpaymentID with hnil | ⟨hlen, -⟩
      · exact absurd hnil hne
      · exact hlen
    have hbytes := toNat_lt_of_validatePaymentID hpaymentID
    refine ⟨length_integratedAddress cnFastHash hlen adr, ?_,
      extractIntegratedAddressData_encodeAddr cnFastHash hlen hbytes adr⟩
    have hcheck := validateAddress_integratedAddress cnFastHash checkKey hlen hbytes hspend hview
    split_ifs at hcheck ⊢ with hhex
    · exact (validateAddresses_eq_success_iff cnFastHash checkKey _ true).2 fun a ha => by
        rw [List.mem_singleton.1 ha]
        exact hcheck
    · rw [validateAddresses, List.forM_cons, hcheck, ExceptRun.error_bind]

end

/-- The keys of zero bytes under the tag of the coin, with a hash of zeros and a `check_key` that
accepts every key, and the payment ID of 64 letters `g`, which `validatePaymentID` accepts: the
integrated address made of them is refused by `validateAddresses` for its payment ID. -/
theorem createIntegratedAddress_paymentID_not_hex :
    (validateAddresses (fun _ => ⟨0⟩) (fun _ => true)
        [getAccountAddressAsStr (fun _ => ⟨0⟩) CRYPTONOTE_PUBLIC_ADDRESS_BASE58_PREFIX
          ⟨⟨0⟩, ⟨0⟩⟩] false).errorCode = .SUCCESS ∧
      (validatePaymentID (List.replicate 64 'g')).errorCode = .SUCCESS ∧
      ∃ integratedAddress,
        createIntegratedAddress (fun _ => ⟨0⟩) (fun _ => true)
            (getAccountAddressAsStr (fun _ => ⟨0⟩) CRYPTONOTE_PUBLIC_ADDRESS_BASE58_PREFIX
              ⟨⟨0⟩, ⟨0⟩⟩) (List.replicate 64 'g') =
          ((ErrorCode.SUCCESS : Error), some integratedAddress) ∧
        (validateAddresses (fun _ => ⟨0⟩) (fun _ => true) [integratedAddress] true).errorCode =
          .INTEGRATED_ADDRESS_PAYMENT_ID_INVALID := by
  have haddress : (validateAddresses (fun _ => ⟨0⟩) (fun _ => true)
      [getAccountAddressAsStr (fun _ => ⟨0⟩) CRYPTONOTE_PUBLIC_ADDRESS_BASE58_PREFIX
        ⟨⟨0⟩, ⟨0⟩⟩] false).errorCode = .SUCCESS :=
    (validateAddresses_eq_success_iff _ _ _ false).2 fun a ha => by
      rw [List.mem_singleton.1 ha]
      exact validateAddress_getAccountAddressAsStr _ _ false rfl rfl
  have hpaymentID : (validatePaymentID (List.replicate 64 'g')).errorCode = .SUCCESS := by
    decide
  have hhex : ¬ ∀ c ∈ List.replicate 64 'g', (fromHexChar c).isSome := fun hall =>
    absurd (hall 'g' (List.mem_replicate.2 ⟨by decide, rfl⟩)) (by decide)
  obtain ⟨_, _, integratedAddress, _, hcreate, _, hintegrated⟩ :=
    createIntegratedAddress_validateAddresses (fun _ => ⟨0⟩) (fun _ => true) _ _ haddress
      hpaymentID
  obtain ⟨-, hrefused, -⟩ := hintegrated (by simp)
  rw [if_neg hhex] at hrefused
  exact ⟨haddress, hpaymentID, integratedAddress, hcreate, hrefused⟩

end Utilities
