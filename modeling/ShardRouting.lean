import ShardRouting.Cluster.Basic
import ShardRouting.Files
import ShardRouting.Main
import ShardRouting.Pool.Basic
import ShardRouting.Proofs.Columns
import ShardRouting.Proofs.Accepted
import ShardRouting.Proofs.Placeholders
import ShardRouting.Proofs.Reads
import ShardRouting.Proofs.Assignment
import ShardRouting.Proofs.Representatives
import ShardRouting.Proofs.Candidates
import ShardRouting.Proofs.ScanRoute
import ShardRouting.Proofs.Interchangeable
import ShardRouting.Proofs.ConditionOrder
import ShardRouting.Proofs.Plans
import ShardRouting.Proofs.Alternatives
import ShardRouting.Proofs.PhysicalTables
import ShardRouting.Proofs.PointLookup
import ShardRouting.Proofs.Worlds
import ShardRouting.Proofs.RowBatches
import ShardRouting.Proofs.ShardReads
import ShardRouting.Proofs.TaskSteps
import ShardRouting.Proofs.Executions
import ShardRouting.Proofs.Refusals
import ShardRouting.Proofs.CallLogs
import ShardRouting.Proofs.Completion
import ShardRouting.Proofs.Connections
import ShardRouting.Proofs.BoundTexts
import ShardRouting.Proofs.SelectorStates
import ShardRouting.Proofs.Repositories
import ShardRouting.Proofs.Acquisition
import ShardRouting.Proofs.HealthRuns
import ShardRouting.Proofs.Traffic
import ShardRouting.Proofs.Lending
import ShardRouting.Proofs.Grammar
import ShardRouting.Proofs.PlannedShards
import ShardRouting.Proofs.PoolOwnership
import ShardRouting.Proofs.RowLimits
import ShardRouting.Proofs.Declarations
import ShardRouting.Proofs.CandidateUnion
import ShardRouting.Proofs.AlgorithmPlaces
import ShardRouting.Proofs.IntegralTexts
import ShardRouting.Proofs.WrittenTokens
import ShardRouting.Proofs.HashTwins
import ShardRouting.Proofs.Absence
import ShardRouting.Proofs.SetLists
import ShardRouting.Proofs.CycleLayout
import ShardRouting.Proofs.Membership
import ShardRouting.Proofs.FairCycles
import ShardRouting.Proofs.ExactArithmetic
import ShardRouting.Proofs.ExactNodes
import ShardRouting.Proofs.DrawShares
import ShardRouting.Proofs.RingPoints
import ShardRouting.Proofs.RingMoves
import ShardRouting.Proofs.RingShares
import ShardRouting.Proofs.ColumnNames
import ShardRouting.Proofs.SpacedTokens
import ShardRouting.Proofs.ExactIntegers
import ShardRouting.Proofs.ShortestDigits
import ShardRouting.Proofs.KeyClasses
