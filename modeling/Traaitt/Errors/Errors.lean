import Mathlib.Data.List.Basic

/-! `Errors.h`: the error codes of the wallet code that the address and mnemonic functions
return, and the `Error` class, a code with an optional custom message. -/

namespace Errors

/-- The values of `ErrorCode` that the modelled functions return. -/
inductive ErrorCode
  | SUCCESS
  | INVALID_MNEMONIC
  | ADDRESS_WRONG_LENGTH
  | ADDRESS_WRONG_PREFIX
  | ADDRESS_NOT_BASE58
  | ADDRESS_NOT_VALID
  | INTEGRATED_ADDRESS_PAYMENT_ID_INVALID
  | PAYMENT_ID_WRONG_LENGTH
  | PAYMENT_ID_INVALID
  | ADDRESS_IS_INTEGRATED
  | MNEMONIC_INVALID_WORD
  | MNEMONIC_WRONG_LENGTH
  | MNEMONIC_INVALID_CHECKSUM
  | NOT_ENOUGH_FAKE_OUTPUTS
  | INVALID_GENERATED_KEYIMAGE
  | DAEMON_OFFLINE
  deriving DecidableEq, Repr

/-- `Error`: a code and a custom message, empty when the code's own message stands. -/
structure Error where
  errorCode : ErrorCode
  customMessage : String := ""
  deriving DecidableEq, Repr

instance : Coe ErrorCode Error := ⟨fun code => { errorCode := code }⟩

def Error.getErrorMessage (error : Error) : String :=
  if error.customMessage ≠ "" then error.customMessage
  else
    match error.errorCode with
    | .SUCCESS => "The operation completed successfully."
    | .INVALID_MNEMONIC => "The mnemonic seed given is invalid."
    | .ADDRESS_WRONG_LENGTH => "The address given is too short or too long."
    | .ADDRESS_WRONG_PREFIX =>
      "The address does not have the correct prefix corresponding to this coin - it appears " ++
        "to be an address for another cryptocurrency."
    | .ADDRESS_NOT_BASE58 =>
      "The address contains invalid characters, that are not in the base58 set."
    | .ADDRESS_NOT_VALID =>
      "The address given is not valid. Possibly invalid checksum. Most likely a typo."
    | .INTEGRATED_ADDRESS_PAYMENT_ID_INVALID =>
      "The payment ID stored in the integrated address supplied is not valid."
    | .PAYMENT_ID_WRONG_LENGTH => "The payment ID given is not 64 characters long."
    | .PAYMENT_ID_INVALID => "The payment ID given is not a hex string (A-Za-z0-9)"
    | .ADDRESS_IS_INTEGRATED =>
      "The address given is an integrated address, but integrated addresses aren\x27t valid " ++
        "for this parameter, for example, change address."
    | .MNEMONIC_INVALID_WORD =>
      "The mnemonic seed given has a word that is not present in the english word list."
    | .MNEMONIC_WRONG_LENGTH => "The mnemonic seed given is the wrong length."
    | .MNEMONIC_INVALID_CHECKSUM => "The mnemonic seed given has an invalid checksum word."
    | .NOT_ENOUGH_FAKE_OUTPUTS =>
      "We could not get enough fake outputs for this transaction to complete. If possible, " ++
        "try lowering the mixin value used, or decrease the amount you are sending."
    | .INVALID_GENERATED_KEYIMAGE =>
      "The key image we generated is invalid - probably a programmer error, or a corrupted " ++
        "wallet."
    | .DAEMON_OFFLINE =>
      "We were not able to submit our request to the daemon. Ensure it is online and not frozen."

end Errors
