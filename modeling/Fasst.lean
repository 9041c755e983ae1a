import Fasst.LinkedChain
import Fasst.Outcomes
import Fasst.Bytes
import Fasst.Aligned
import Fasst.FixedTableModel
import Fasst.FixedTableLocks
import Fasst.FixedTableShape
import Fasst.FixedTableWalks
import Fasst.FixedTableEdits
import Fasst.FixedTableExtra
import Fasst.FixedTableFill
import Fasst.FixedTableStore
import Fasst.FixedTableOps
import Fasst.FixedTableInvariant
import Fasst.FixedTableVersions
import Fasst.FixedTableSpec
import Fasst.FixedTableMap
import Fasst.Placement
import Fasst.TxModel
import Fasst.TxCluster
import Fasst.TxLocal
import Fasst.TxCalls
import Fasst.TxHandler
import Fasst.TxSteps
import Fasst.TxLocks
import Fasst.TxInvariant
import Fasst.TxOwnership
import Fasst.TxReplicas
import Fasst.TxCommitOrder
import Fasst.OptimisticLocking
import Fasst.OptimisticSteps
import Fasst.TxViews
import Fasst.TxSerial
import Fasst.TxSerializable
import Fasst.TxWrap
import Fasst.TxValidation
import Fasst.LockserverModel
import Fasst.LockserverGrants
import Fasst.LockserverRequests
import Fasst.Runs
import Fasst.TxLockserver
import Fasst.TxLockserverInvariant
import Fasst.TxLockserverCleanup
import Fasst.TxLogRecord
import Fasst.RpcDefs
import Fasst.SignalWindow
import Fasst.RpcSend
import Fasst.RpcSendWindow
import Fasst.RpcNonInline
import Fasst.RpcBatch
import Fasst.RpcCoalesce
import Fasst.TxPacketSizes
import Fasst.Blocks
import Fasst.Threads
import Fasst.RingSlots
import Fasst.RpcSwarm
import Fasst.RpcResponse
import Fasst.RpcJobs
import Fasst.RpcExchange
import Fasst.RpcExchangeSteps
import Fasst.RpcSchedule
import Fasst.RpcDelivery
import Fasst.RpcCredits
import Fasst.BitFields
import Fasst.TatpSubNbr
import Fasst.PlacementChecks
import Fasst.Agreement
import Fasst.FixedTableSpace
import Fasst.FixedTableSimilar
import Fasst.FixedTableReset
import Fasst.RpcIdentity
import Fasst.DsRequests
import Fasst.Population
import Fasst.PopulationRouting
import Fasst.TatpSecondary
import Fasst.Dialogues
import Fasst.TxPrograms
import Fasst.TxEntries
import Fasst.TxReadOnly
import Fasst.TxProgramRules
import Fasst.TxProgramRuns
import Fasst.TxProgress
import Fasst.TxHistories
import Fasst.Congruential
import Fasst.HrdRandom
import Fasst.PopulatedSwarm
import Fasst.SmallBankModel
import Fasst.SmallBankRuns
import Fasst.TatpModel
import Fasst.TatpRows
import Fasst.TatpPopulation
import Fasst.TatpRuns
