/-! The constants of `config/CryptoNoteConfig.h`, `config/WalletConfig.h` and
`config/Constants.h` that the modelled code reads. -/

namespace CryptoNote.parameters

def DIFFICULTY_TARGET : UInt64 := 45

def CRYPTONOTE_MAX_BLOCK_NUMBER : UInt32 := 500000000

def CRYPTONOTE_MAX_TX_SIZE : Nat := 1000000000

def CRYPTONOTE_MINED_MONEY_UNLOCK_WINDOW : UInt32 := 40

def CRYPTONOTE_BLOCK_FUTURE_TIME_LIMIT : UInt64 := 60 * 60 * 2

def CRYPTONOTE_BLOCK_FUTURE_TIME_LIMIT_V3 : UInt64 := 3 * DIFFICULTY_TARGET

def CRYPTONOTE_BLOCK_FUTURE_TIME_LIMIT_V4 : UInt64 := 6 * DIFFICULTY_TARGET

def BLOCKCHAIN_TIMESTAMP_CHECK_WINDOW : Nat := 60

def BLOCKCHAIN_TIMESTAMP_CHECK_WINDOW_V3 : Nat := 11

def MONEY_SUPPLY : UInt64 := 800000000000000

def EMISSION_SPEED_FACTOR : UInt64 := 25

def CRYPTONOTE_REWARD_BLOCKS_WINDOW : Nat := 100

def CRYPTONOTE_BLOCK_GRANTED_FULL_REWARD_ZONE : UInt64 := 1000000

def LWMA_2_DIFFICULTY_BLOCK_INDEX : UInt32 := 2

def LWMA_2_DIFFICULTY_BLOCK_INDEX_V2 : UInt32 := 3

def LWMA_2_DIFFICULTY_BLOCK_INDEX_V3 : UInt32 := 4

def CRYPTONOTE_BLOCK_GRANTED_FULL_REWARD_ZONE_V2 : UInt64 := 20000

def CRYPTONOTE_BLOCK_GRANTED_FULL_REWARD_ZONE_V1 : UInt64 := 10000

def CRYPTONOTE_COINBASE_BLOB_RESERVED_SIZE : Nat := 600

def MINIMUM_FEE : UInt64 := 100

def MINIMUM_MIXIN_V1 : UInt64 := 0

def MAXIMUM_MIXIN_V1 : UInt64 := 4

def MINIMUM_MIXIN_V2 : UInt64 := 0

def MAXIMUM_MIXIN_V2 : UInt64 := 5

def MINIMUM_MIXIN_V3 : UInt64 := 0

def MAXIMUM_MIXIN_V3 : UInt64 := 8

def MIXIN_LIMITS_V1_HEIGHT : UInt64 := 440000

def MIXIN_LIMITS_V2_HEIGHT : UInt64 := 800000

def MIXIN_LIMITS_V3_HEIGHT : UInt64 := 1000000

def DEFAULT_DUST_THRESHOLD : UInt64 := 10

def DEFAULT_DUST_THRESHOLD_V2 : UInt64 := 0

def DUST_THRESHOLD_V2_HEIGHT : UInt32 := MIXIN_LIMITS_V2_HEIGHT.toUInt32

def MAX_EXTRA_SIZE : UInt64 := 140000

def MAX_EXTRA_SIZE_V2 : UInt64 := 1024

def MAX_EXTRA_SIZE_V2_HEIGHT : UInt64 := 1300000

def MAX_OUTPUT_SIZE_NODE : UInt64 := 800000000000000

def MAX_OUTPUT_SIZE_CLIENT : UInt64 := 800000000000000

def MAX_OUTPUT_SIZE_HEIGHT : UInt64 := 1

def TRANSACTION_SIGNATURE_COUNT_VALIDATION_HEIGHT : UInt64 := 0

def BLOCK_BLOB_SHUFFLE_CHECK_HEIGHT : UInt64 := 0

def TRANSACTION_INPUT_BLOCKTIME_VALIDATION_HEIGHT : UInt64 := 0

def CRYPTONOTE_MEMPOOL_TX_LIVETIME : UInt64 := 60 * 60 * 24

def DIFFICULTY_WINDOW : Nat := 17

def DIFFICULTY_WINDOW_V1 : Nat := 2883

def DIFFICULTY_WINDOW_V2 : Nat := 2883

def DIFFICULTY_WINDOW_V3 : Nat := 60

def DIFFICULTY_BLOCKS_COUNT_V3 : Nat := DIFFICULTY_WINDOW_V3 + 1

def DIFFICULTY_LAG : Nat := 0

def DIFFICULTY_LAG_V1 : Nat := 15

def DIFFICULTY_LAG_V2 : Nat := 15

def MAX_BLOCK_SIZE_INITIAL : UInt64 := 1000000

def MAX_BLOCK_SIZE_GROWTH_SPEED_NUMERATOR : UInt64 := 100 * 1024

def MAX_BLOCK_SIZE_GROWTH_SPEED_DENOMINATOR : UInt64 := 365 * 24 * 60 * 60 / DIFFICULTY_TARGET

def CRYPTONOTE_LOCKED_TX_ALLOWED_DELTA_BLOCKS : UInt64 := 1

def CRYPTONOTE_LOCKED_TX_ALLOWED_DELTA_SECONDS : UInt64 :=
  DIFFICULTY_TARGET * CRYPTONOTE_LOCKED_TX_ALLOWED_DELTA_BLOCKS

def UPGRADE_HEIGHT_V2 : UInt32 := 1

def UPGRADE_HEIGHT_V3 : UInt32 := 2

def UPGRADE_HEIGHT_V4 : UInt32 := 3

def UPGRADE_HEIGHT_V5 : UInt32 := 4

def UPGRADE_HEIGHT_V6 : UInt32 := 5

def CRYPTONOTE_PUBLIC_ADDRESS_BASE58_PREFIX : UInt64 := 1334

end CryptoNote.parameters

namespace CryptoNote

def TRANSACTION_VERSION_1 : UInt8 := 1

def TRANSACTION_VERSION_2 : UInt8 := 2

def CURRENT_TRANSACTION_VERSION : UInt8 := TRANSACTION_VERSION_1

def BLOCK_MAJOR_VERSION_1 : UInt8 := 1

def BLOCK_MAJOR_VERSION_2 : UInt8 := 2

def BLOCK_MAJOR_VERSION_3 : UInt8 := 3

def BLOCK_MAJOR_VERSION_4 : UInt8 := 4

def BLOCK_MAJOR_VERSION_5 : UInt8 := 5

def BLOCK_MAJOR_VERSION_6 : UInt8 := 6

def BLOCKS_SYNCHRONIZING_DEFAULT_COUNT : UInt64 := 100

def P2P_LOCAL_WHITE_PEERLIST_LIMIT : Nat := 1000

def P2P_LOCAL_GRAY_PEERLIST_LIMIT : Nat := 5000

end CryptoNote

namespace WalletConfig

/-- `addressPrefix`, the text every address of the coin starts with. -/
def addressPrefix : List Char := "XT".toList

def standardAddressLength : Nat := 97

/-- `integratedAddressLength`: a standard address and the eleven characters of each eight bytes of
a 64-character payment ID. -/
def integratedAddressLength : Nat := standardAddressLength + (64 * 11) / 8

end WalletConfig

namespace Constants

/-- `PRETTY_AMOUNTS`: the amounts outputs are made into, one digit from 1 to 9 followed by
zeros, up to `10 ^ 19`. -/
def PRETTY_AMOUNTS : List UInt64 :=
  [1, 2, 3, 4, 5, 6, 7, 8, 9,
  10, 20, 30, 40, 50, 60, 70, 80, 90,
  100, 200, 300, 400, 500, 600, 700, 800, 900,
  1000, 2000, 3000, 4000, 5000, 6000, 7000, 8000, 9000,
  10000, 20000, 30000, 40000, 50000, 60000, 70000, 80000, 90000,
  100000, 200000, 300000, 400000, 500000, 600000, 700000, 800000, 900000,
  1000000, 2000000, 3000000, 4000000, 5000000, 6000000, 7000000, 8000000, 9000000,
  10000000, 20000000, 30000000, 40000000, 50000000, 60000000, 70000000, 80000000, 90000000,
  100000000, 200000000, 300000000, 400000000, 500000000, 600000000, 700000000, 800000000, 900000000,
  1000000000, 2000000000, 3000000000, 4000000000, 5000000000, 6000000000, 7000000000, 8000000000, 9000000000,
  10000000000, 20000000000, 30000000000, 40000000000, 50000000000, 60000000000, 70000000000, 80000000000, 90000000000,
  100000000000, 200000000000, 300000000000, 400000000000, 500000000000, 600000000000, 700000000000, 800000000000, 900000000000,
  1000000000000, 2000000000000, 3000000000000, 4000000000000, 5000000000000, 6000000000000, 7000000000000, 8000000000000, 9000000000000,
  10000000000000, 20000000000000, 30000000000000, 40000000000000, 50000000000000, 60000000000000, 70000000000000, 80000000000000, 90000000000000,
  100000000000000, 200000000000000, 300000000000000, 400000000000000, 500000000000000, 600000000000000, 700000000000000, 800000000000000, 900000000000000,
  1000000000000000, 2000000000000000, 3000000000000000, 4000000000000000, 5000000000000000, 6000000000000000, 7000000000000000, 8000000000000000, 9000000000000000,
  10000000000000000, 20000000000000000, 30000000000000000, 40000000000000000, 50000000000000000, 60000000000000000, 70000000000000000, 80000000000000000, 90000000000000000,
  100000000000000000, 200000000000000000, 300000000000000000, 400000000000000000, 500000000000000000, 600000000000000000, 700000000000000000, 800000000000000000, 900000000000000000,
  1000000000000000000, 2000000000000000000, 3000000000000000000, 4000000000000000000, 5000000000000000000, 6000000000000000000, 7000000000000000000, 8000000000000000000, 9000000000000000000,
  10000000000000000000]

def TX_EXTRA_PAYMENT_ID_IDENTIFIER : UInt8 := 0x00

def TX_EXTRA_PUBKEY_IDENTIFIER : UInt8 := 0x01

def TX_EXTRA_NONCE_IDENTIFIER : UInt8 := 0x02

end Constants
