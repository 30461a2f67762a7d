import Pyleans.Library.Table
import Pyleans.Library.Transition
import Pyleans.Library.CyclicOrder
import Pyleans.Library.Sorted
import Pyleans.Library.Pool
import Pyleans.Library.OptimisticLock
import Pyleans.Library.Linearizability
import Pyleans.Identity
import Pyleans.Cluster.HashRing
import Pyleans.Cluster.Placement
import Pyleans.Cluster.DirectoryMessages
import Pyleans.Cluster.DirectoryRebuild
import Pyleans.Cluster.DistributedDirectory
import Pyleans.Cluster.NewArcs
import Pyleans.Library.FirstLeast
import Pyleans.Cluster.Reconciliation
import Pyleans.Cluster.CrashRecovery
import Pyleans.Cluster.DirectoryEvents
import Pyleans.Cluster.Ownership
import Pyleans.Cluster.RebuildCoalescing
import Pyleans.Cluster.RebuildWindow
import Pyleans.Cluster.Linearizability
import Pyleans.Cluster.HandoffDelivery
import Pyleans.Transport.Messages
import Pyleans.Server.Runtime
import Pyleans.Server.RebuildCoverage
import Pyleans.Server.Cluster
import Pyleans.Server.SingleActivation
import Pyleans.Server.Activation
import Pyleans.Server.AtMostOnce
import Pyleans.Membership.Table
import Pyleans.Membership.FailureDetector
import Pyleans.Membership.Writers
import Pyleans.Membership.VotingSafety
import Pyleans.Membership.DeadTerminal
import Pyleans.Library.CyclicWalk
import Pyleans.Cluster.Successors
import Pyleans.Membership.ProbeTargets
import Pyleans.Membership.Agent
import Pyleans.Membership.DirectoryInStep
import Pyleans.Membership.SnapshotOrder
import Pyleans.Server.LocalRuntime
import Pyleans.Server.Serving
import Pyleans.Server.ServingSteps
import Pyleans.Server.StaleRouting
import Pyleans.Server.UndisturbedCall
import Pyleans.Server.LocalActivation
import Pyleans.Server.Deeds
import Pyleans.Server.Turns
import Pyleans.Library.BigEndian
import Pyleans.Library.Fallible
import Pyleans.Library.Utf8
import Pyleans.Library.Numerals
import Pyleans.Library.Json
import Pyleans.Library.Reading
import Pyleans.Library.JsonReading
import Pyleans.Library.StreamReader
import Pyleans.Transport.Wire
import Pyleans.Transport.ErrorPayload
import Pyleans.Transport.Handshake
import Pyleans.Transport.ConnectionManager
import Pyleans.Transport.PendingRequests
import Pyleans.Transport.SiloConnection
import Pyleans.Transport.ClosingConnection
import Pyleans.Transport.InboundRequests
import Pyleans.Transport.ActiveSilos
import Pyleans.Transport.Backoff
import Pyleans.Transport.SiloLink
import Pyleans.Transport.LinkTasks
import Pyleans.Transport.OneConnection
import Pyleans.Transport.ManagerShutdown
import Pyleans.Transport.Reconnection
import Pyleans.Transport.CoalescedConnects
import Pyleans.Transport.SimultaneousDial
import Pyleans.Server.CallFutures
import Pyleans.Server.Lifecycle
import Pyleans.Server.SiloStart
import Pyleans.Library.Pairing
import Pyleans.Library.KeyedRows
import Pyleans.Membership.YamlMembership
import Pyleans.Library.Sql
import Pyleans.Membership.PostgresMembership
import Pyleans.Library.Versioned
import Pyleans.Membership.PostgresSnapshot
import Pyleans.Library.Locality
import Pyleans.Storage.FileStorage
import Pyleans.Storage.Isolation
import Pyleans.Storage.PostgresStorage
import Pyleans.Storage.AdapterAgreement
import Pyleans.Storage.LostUpdates
import Pyleans.Library.Counting
import Pyleans.Cluster.ArcPartition
import Pyleans.Cluster.RingLaws
import Pyleans.Cluster.SuccessorOrder
import Pyleans.Cluster.EpochFreshness
import Pyleans.Server.StandDown
import Pyleans.Cluster.GrainDirectory
import Pyleans.Server.LocalDirectory
import Pyleans.Server.Deactivations
import Pyleans.Server.Draining
import Pyleans.Cluster.DirectoryCache
import Pyleans.Library.LeastRecent
import Pyleans.Cluster.CacheRecency
import Pyleans.Cluster.DirectoryCodec
import Pyleans.Membership.SnapshotCodec
import Pyleans.Server.GrainCallCodec
import Pyleans.Server.InboundDecoders
import Pyleans.Storage.JsonSerializer
import Pyleans.Gateway.Protocol
import Pyleans.Membership.MissCounting
import Pyleans.Gateway.Listener
import Pyleans.Storage.TransientErrors
import Pyleans.Server.MemoryStream
import Pyleans.Server.LifecycleStop
import Pyleans.Server.TimerRegistry
import Pyleans.Client.ClusterClient
import Pyleans.Membership.MarkdownRoundTrip
import Pyleans.Membership.MarkdownMembership
import Pyleans.Membership.SharedFile
import Pyleans.Transport.RequestExchange
