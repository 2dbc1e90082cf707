import Traaitt.CryptoNote.Types
import Traaitt.Config.CryptoNoteConfig
import Traaitt.CryptoNoteCore.CryptoNoteBasicImpl

/-! `Currency`: the emission and size rules the chain is built with. The reward of a block
shrinks the base reward and, from block version 2, the fees, by the square of how far the block
exceeds the median size (`getPenalizedAmount`); what the fee penalty removes is burnt, so it
leaves the emission. -/

namespace CryptoNote

open CryptoNote.parameters

/-- The members of `Currency` that the modelled node code reads. The difficulty algorithms,
proof of work and the fusion rule are kept as the functions `Currency` computes them with. -/
structure Currency where
  moneySupply : UInt64
  emissionSpeedFactor : UInt64
  blockGrantedFullRewardZone : UInt64
  maxBlockSizeInitial : UInt64
  maxBlockSizeGrowthSpeedNumerator : UInt64
  maxBlockSizeGrowthSpeedDenominator : UInt64
  rewardBlocksWindow : ℕ
  minedMoneyUnlockWindow : UInt32
  minerTxBlobReservedSize : ℕ
  maxTxSize : ℕ
  minimumFee : UInt64
  lockedTxAllowedDeltaBlocks : UInt64
  lockedTxAllowedDeltaSeconds : UInt64
  maxBlockHeight : UInt32
  m_timestampCheckWindow : ℕ
  m_blockFutureTimeLimit : UInt64
  m_defaultDustThreshold : UInt64
  upgradeHeightV2 : UInt32
  upgradeHeightV3 : UInt32
  upgradeHeightV4 : UInt32
  upgradeHeightV5 : UInt32
  upgradeHeightV6 : UInt32
  difficultyWindow : ℕ
  difficultyLag : ℕ
  genesisBlock : CachedBlock
  getNextDifficulty : UInt8 → UInt32 → List UInt64 → List UInt64 → UInt64
  checkProofOfWork : CachedBlock → UInt64 → Bool
  isFusionTransaction : Transaction → ℕ → UInt32 → Bool

namespace Currency

def upgradeHeight (currency : Currency) (majorVersion : UInt8) : UInt32 :=
  if majorVersion = BLOCK_MAJOR_VERSION_2 then currency.upgradeHeightV2
  else if majorVersion = BLOCK_MAJOR_VERSION_3 then currency.upgradeHeightV3
  else if majorVersion = BLOCK_MAJOR_VERSION_4 then currency.upgradeHeightV4
  else if majorVersion = BLOCK_MAJOR_VERSION_5 then currency.upgradeHeightV5
  else if majorVersion = BLOCK_MAJOR_VERSION_6 then currency.upgradeHeightV6
  else UInt32.ofNat (2 ^ 32 - 1)

/-- `UpgradeManager::getBlockMajorVersion` with the detectors `Core` registers for versions
2 to 6: the newest version whose upgrade index is below `blockIndex`. -/
def getBlockMajorVersion (currency : Currency) (blockIndex : UInt32) : UInt8 :=
  let versions := [BLOCK_MAJOR_VERSION_6, BLOCK_MAJOR_VERSION_5, BLOCK_MAJOR_VERSION_4,
    BLOCK_MAJOR_VERSION_3, BLOCK_MAJOR_VERSION_2]
  (versions.find? (fun version => currency.upgradeHeight version < blockIndex)).getD
    BLOCK_MAJOR_VERSION_1

def difficultyWindowByBlockVersion (currency : Currency) (blockMajorVersion : UInt8) : ℕ :=
  if blockMajorVersion ≥ BLOCK_MAJOR_VERSION_3 then currency.difficultyWindow
  else if blockMajorVersion = BLOCK_MAJOR_VERSION_2 then DIFFICULTY_WINDOW_V2
  else DIFFICULTY_WINDOW_V1

def difficultyLagByBlockVersion (currency : Currency) (blockMajorVersion : UInt8) : ℕ :=
  if blockMajorVersion ≥ BLOCK_MAJOR_VERSION_3 then currency.difficultyLag
  else if blockMajorVersion = BLOCK_MAJOR_VERSION_2 then DIFFICULTY_LAG_V2
  else DIFFICULTY_LAG_V1

def difficultyBlocksCountByBlockVersion (currency : Currency) (blockMajorVersion : UInt8)
    (height : UInt32) : ℕ :=
  if height ≥ LWMA_2_DIFFICULTY_BLOCK_INDEX then DIFFICULTY_BLOCKS_COUNT_V3
  else currency.difficultyWindowByBlockVersion blockMajorVersion +
    currency.difficultyLagByBlockVersion blockMajorVersion

def timestampCheckWindow (currency : Currency) (blockHeight : UInt32) : ℕ :=
  if blockHeight ≥ LWMA_2_DIFFICULTY_BLOCK_INDEX_V3 then BLOCKCHAIN_TIMESTAMP_CHECK_WINDOW_V3
  else currency.m_timestampCheckWindow

def blockFutureTimeLimit (currency : Currency) (blockHeight : UInt32) : UInt64 :=
  if blockHeight ≥ LWMA_2_DIFFICULTY_BLOCK_INDEX_V2 then CRYPTONOTE_BLOCK_FUTURE_TIME_LIMIT_V4
  else if blockHeight ≥ LWMA_2_DIFFICULTY_BLOCK_INDEX then CRYPTONOTE_BLOCK_FUTURE_TIME_LIMIT_V3
  else currency.m_blockFutureTimeLimit

def defaultDustThreshold (currency : Currency) (height : UInt32) : UInt64 :=
  if height ≥ DUST_THRESHOLD_V2_HEIGHT then DEFAULT_DUST_THRESHOLD_V2
  else currency.m_defaultDustThreshold

def blockGrantedFullRewardZoneByBlockVersion (currency : Currency) (blockMajorVersion : UInt8) :
    UInt64 :=
  if blockMajorVersion ≥ BLOCK_MAJOR_VERSION_3 then currency.blockGrantedFullRewardZone
  else if blockMajorVersion = BLOCK_MAJOR_VERSION_2 then CRYPTONOTE_BLOCK_GRANTED_FULL_REWARD_ZONE_V2
  else CRYPTONOTE_BLOCK_GRANTED_FULL_REWARD_ZONE_V1

def maxBlockCumulativeSize (currency : Currency) (height : UInt64) : UInt64 :=
  currency.maxBlockSizeInitial +
    height * currency.maxBlockSizeGrowthSpeedNumerator / currency.maxBlockSizeGrowthSpeedDenominator

/-- `(reward, emissionChange)`, or nothing when the block is more than twice the median
size. `emissionChange` is the `int64_t` the function writes, as the bits `pushBlock`
receives it with. -/
def getBlockReward (currency : Currency) (blockMajorVersion : UInt8)
    (medianSize currentBlockSize alreadyGeneratedCoins fee : UInt64) : Option (UInt64 × UInt64) :=
  let baseReward := (currency.moneySupply - alreadyGeneratedCoins) >>> currency.emissionSpeedFactor
  let medianSize := max medianSize (currency.blockGrantedFullRewardZoneByBlockVersion blockMajorVersion)
  if currentBlockSize > 2 * medianSize then none
  else
    let penalizedBaseReward := getPenalizedAmount baseReward medianSize currentBlockSize
    let penalizedFee :=
      if blockMajorVersion ≥ BLOCK_MAJOR_VERSION_2 then getPenalizedAmount fee medianSize currentBlockSize
      else fee
    some (penalizedBaseReward + penalizedFee, penalizedBaseReward - (fee - penalizedFee))

end Currency

/-- `GENESIS_COINBASE_TX_HEX` parsed: unlocked at block 40, the base input of block 0 and one
key output of the premine, with the transaction public key in extra. Keys and hashes are their
32 bytes read as one number. -/
def GENESIS_COINBASE_TX : Transaction :=
  { version := 1, unlockTime := 40, inputs := [.base ⟨0⟩],
    outputs := [⟨320000000000000,
      .key ⟨⟨0x2703c102a77eccdcd237846ee58409e625d10e03e166901da8519c91b1a67100#256⟩⟩⟩],
    extra := [
    0x01, 0xa8, 0x1e, 0x11, 0x16, 0x7c, 0xc9, 0xd8, 0x19, 0x1c, 0xb3, 0xc9, 0x9b, 0x29, 0x88,
      0x9f, 0x4e, 0xd5, 0x47, 0x84, 0xbf, 0x21, 0x93, 0xa3, 0x55, 0x27, 0x64, 0x20, 0x0b, 0x6b,
      0x16, 0x79, 0x19],
    signatures := [] }

/-- `Currency::generateGenesisBlock`, with the hash of block 0 the checkpoints pin. -/
def genesisBlock : CachedBlock :=
  ⟨{ majorVersion := BLOCK_MAJOR_VERSION_1, minorVersion := 0, nonce := 70, timestamp := 0,
      previousBlockHash := ⟨0⟩, parentBlock := ⟨0⟩, baseTransaction := GENESIS_COINBASE_TX,
      transactionHashes := [] },
    ⟨0x613646f8d73de696fef75859972b8801ead95070b7ead04c23f63272f49ffb20#256⟩⟩

/-- `CurrencyBuilder::currency()` with the defaults of `CryptoNoteConfig.h`, given the functions
the model keeps as parameters. -/
def CurrencyBuilder.currency (getNextDifficulty : UInt8 → UInt32 → List UInt64 → List UInt64 → UInt64)
    (checkProofOfWork : CachedBlock → UInt64 → Bool)
    (isFusionTransaction : Transaction → ℕ → UInt32 → Bool) : Currency where
  moneySupply := MONEY_SUPPLY
  emissionSpeedFactor := EMISSION_SPEED_FACTOR
  blockGrantedFullRewardZone := CRYPTONOTE_BLOCK_GRANTED_FULL_REWARD_ZONE
  maxBlockSizeInitial := MAX_BLOCK_SIZE_INITIAL
  maxBlockSizeGrowthSpeedNumerator := MAX_BLOCK_SIZE_GROWTH_SPEED_NUMERATOR
  maxBlockSizeGrowthSpeedDenominator := MAX_BLOCK_SIZE_GROWTH_SPEED_DENOMINATOR
  rewardBlocksWindow := CRYPTONOTE_REWARD_BLOCKS_WINDOW
  minedMoneyUnlockWindow := CRYPTONOTE_MINED_MONEY_UNLOCK_WINDOW
  minerTxBlobReservedSize := CRYPTONOTE_COINBASE_BLOB_RESERVED_SIZE
  maxTxSize := CRYPTONOTE_MAX_TX_SIZE
  minimumFee := MINIMUM_FEE
  lockedTxAllowedDeltaBlocks := CRYPTONOTE_LOCKED_TX_ALLOWED_DELTA_BLOCKS
  lockedTxAllowedDeltaSeconds := CRYPTONOTE_LOCKED_TX_ALLOWED_DELTA_SECONDS
  maxBlockHeight := CRYPTONOTE_MAX_BLOCK_NUMBER
  m_timestampCheckWindow := BLOCKCHAIN_TIMESTAMP_CHECK_WINDOW
  m_blockFutureTimeLimit := CRYPTONOTE_BLOCK_FUTURE_TIME_LIMIT
  m_defaultDustThreshold := DEFAULT_DUST_THRESHOLD
  upgradeHeightV2 := UPGRADE_HEIGHT_V2
  upgradeHeightV3 := UPGRADE_HEIGHT_V3
  upgradeHeightV4 := UPGRADE_HEIGHT_V4
  upgradeHeightV5 := UPGRADE_HEIGHT_V5
  upgradeHeightV6 := UPGRADE_HEIGHT_V6
  difficultyWindow := DIFFICULTY_WINDOW
  difficultyLag := DIFFICULTY_LAG
  genesisBlock := genesisBlock
  getNextDifficulty := getNextDifficulty
  checkProofOfWork := checkProofOfWork
  isFusionTransaction := isFusionTransaction

end CryptoNote
