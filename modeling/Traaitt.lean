import Traaitt.Library.Lists
import Traaitt.Library.Except
import Traaitt.Library.CheckedInt
import Traaitt.CryptoNote.Types
import Traaitt.CryptoNote.Primitives
import Traaitt.Config.CryptoNoteConfig
import Traaitt.CryptoNoteCore.Currency
import Traaitt.CryptoNoteCore.Checkpoints
import Traaitt.CryptoNoteCore.TransactionPool
import Traaitt.SubWallets.SubWallet
import Traaitt.SubWallets.SubWallets
import Traaitt.WalletBackend.Transfer
import Traaitt.CryptoNoteCore.BlockchainCache
import Traaitt.Library.ParentStore
import Traaitt.CryptoNoteCore.Core
import Traaitt.CryptoNoteCore.SegmentPath
import Traaitt.CryptoNoteCore.Split
import Traaitt.CryptoNoteCore.PoolAdmission
import Traaitt.CryptoNoteCore.Emission
import Traaitt.CryptoNoteCore.AddBlock
import Traaitt.Common.Varint
import Traaitt.Library.Radix
import Traaitt.Common.IntUtil
import Traaitt.CryptoNoteCore.CryptoNoteBasicImpl
import Traaitt.CryptoNoteCore.CryptoNoteFormatUtils
import Traaitt.CryptoNoteCore.ConstructMinerTx
import Traaitt.CryptoNoteCore.Difficulty
import Traaitt.CryptoNote.Pod
import Traaitt.Common.Base58
import Traaitt.Library.Leb128
import Traaitt.Common.StreamTools
import Traaitt.Common.TransactionExtra
import Traaitt.Library.CType
import Traaitt.Common.JsonValue
import Traaitt.ZedWallet.AddressBook
import Traaitt.Errors.Errors
import Traaitt.Mnemonics.CRC32
import Traaitt.Mnemonics.WordList
import Traaitt.Mnemonics.Mnemonics
import Traaitt.Common.StringTools
import Traaitt.Utilities.Addresses
import Traaitt.Errors.ValidateParameters
import Traaitt.Utilities.IntegratedAddress
import Traaitt.Library.Codec
import Traaitt.Serialization.BinarySerializer
import Traaitt.Serialization.CryptoNoteSerialization
import Traaitt.Common.CheckDifficulty
import Traaitt.WalletBackend.Denominations
import Traaitt.CryptoNoteCore.RingIndexes
import Traaitt.CryptoNoteCore.Timestamps
import Traaitt.CryptoNoteCore.PoolCleaner
import Traaitt.WalletBackend.PaymentId
import Traaitt.WalletBackend.RingParticipants
import Traaitt.CryptoNoteProtocol.ProtocolHandler
import Traaitt.CryptoNoteCore.DatabaseBlockchainCache
import Traaitt.Serialization.KVBinaryOutputStreamSerializer
import Traaitt.Library.KeyedList
import Traaitt.P2p.PeerListManager
import Traaitt.Serialization.KVBinaryInputStreamSerializer
import Traaitt.Library.SegmentForest
import Traaitt.CryptoNoteCore.SegmentTree
import Traaitt.CryptoNoteCore.KnownBlocks
import Traaitt.CryptoNoteCore.ChainHeights
