import Sv2P2pool.Bitcoin.Transaction

/-! # SV2 Messages

    The fields of the Stratum V2 messages that the engine reads, the results
    its handlers return and the error codes they carry. Fields no handler
    looks at (channel ids, excess data, the target) are left out.
-/

namespace Sv2P2pool

open ByteCodec Bitcoin

/-- Keys of the declared-job cache. -/
abbrev RequestId := UInt32

/-- `JdToken`. -/
abbrev JdToken := UInt64

/-! ## Job Declaration Protocol -/

structure DeclareMiningJob where
  requestId : RequestId
  /-- A `B0255`; the engine accepts 8 bytes only. -/
  miningJobToken : Bytes
  version : UInt32
  coinbaseTxPrefix : Bytes
  coinbaseTxSuffix : Bytes
  wtxidList : List U256

structure ProvideMissingTransactionsSuccess where
  transactionList : List Bytes

structure PushSolution where
  extranonce : Bytes
  prevHash : U256
  ntime : UInt32
  nonce : UInt32
  nbits : UInt32
  version : UInt32

inductive DeclareErrorCode where
  | invalidMiningJobToken
  | invalidCoinbaseTx
  | invalidCoinbaseTxInput
  deriving DecidableEq

inductive DeclareMiningJobResult where
  | success
  | missingTransactions (wtxids : List Wtxid)
  | error (code : DeclareErrorCode)
  deriving DecidableEq

/-! ## Mining Protocol -/

structure SetCustomMiningJob where
  version : UInt32
  prevHash : U256
  minNtime : UInt32
  nbits : UInt32
  coinbaseTxVersion : UInt32
  coinbasePrefix : Bytes
  coinbaseTxInputNSequence : UInt32
  coinbaseTxOutputs : Bytes
  coinbaseTxLocktime : UInt32
  merklePath : List U256

inductive SetCustomErrorCode where
  | invalidMiningJobToken
  | jobNotYetValidated
  | staleChainTip
  | invalidNbits
  | invalidVersion
  | invalidCoinbaseTx
  | invalidCoinbaseTxVersion
  | invalidCoinbasePrefix
  | invalidCoinbaseTxInputNSequence
  | invalidCoinbaseTxOutputs
  | invalidCoinbaseTxLocktime
  | invalidMerklePath
  deriving DecidableEq

inductive SetCustomMiningJobResult where
  | success
  | error (code : SetCustomErrorCode)
  deriving DecidableEq

/-! ## Template Distribution Protocol -/

structure SetNewPrevHash where
  templateId : UInt64
  prevHash : U256
  headerTimestamp : UInt32
  nBits : UInt32

structure NewTemplate where
  templateId : UInt64
  futureTemplate : Bool

/-- The answer to a `RequestTransactionData`. -/
inductive TxDataResult where
  | success (transactionList : List Bytes)
  | error (errorCode : Bytes)

/-- The messages of the Template Provider the tee looks at. -/
inductive TemplateDistribution where
  | setNewPrevHash (msg : SetNewPrevHash)
  | newTemplate (msg : NewTemplate)
  | requestTransactionDataSuccess (templateId : UInt64) (transactionList : List Bytes)
  | requestTransactionDataError (templateId : UInt64) (errorCode : Bytes)
  | other

end Sv2P2pool
