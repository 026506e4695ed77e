import OpenStreamGrid.Lib.OrderedSet
import OpenStreamGrid.Lib.OrderedMap
import OpenStreamGrid.Lib.CounterMap
import OpenStreamGrid.Lib.PlainData
import OpenStreamGrid.Lib.TransitionSystem
import OpenStreamGrid.Lib.TimedSystem
import OpenStreamGrid.Lib.Overwrite
import OpenStreamGrid.Lib.Ledger
import OpenStreamGrid.Lib.IndexedList
import OpenStreamGrid.Lib.IsoTime
import OpenStreamGrid.Lib.Slices
import OpenStreamGrid.Common.Types
import OpenStreamGrid.Common.Scheduling
import OpenStreamGrid.Common.SchedulerPlans
import OpenStreamGrid.Common.BatchPlanning
import OpenStreamGrid.Common.DeadlinePlans
import OpenStreamGrid.Common.SegmentFraming
import OpenStreamGrid.Common.SegmentReception
import OpenStreamGrid.Common.UploadSlots
import OpenStreamGrid.Common.TrafficTally
import OpenStreamGrid.Peer.WeightedScoreScheduler
import OpenStreamGrid.Peer.DeadlineAwareScheduler
import OpenStreamGrid.Peer.SegmentFetching
import OpenStreamGrid.Peer.FetchDeadlines
import OpenStreamGrid.Peer.BatchFetching
import OpenStreamGrid.Peer.BufferPool
import OpenStreamGrid.Peer.PoolAllocation
import OpenStreamGrid.Peer.SegmentCache
import OpenStreamGrid.Peer.CacheOwnership
import OpenStreamGrid.Peer.CacheRejection
import OpenStreamGrid.Peer.PlaylistConsumption
import OpenStreamGrid.Peer.PeerAttempts
import OpenStreamGrid.Peer.FetchStatistics
import OpenStreamGrid.Peer.PeerBlame
import OpenStreamGrid.Sdk.LoaderCallbacks
import OpenStreamGrid.Sdk.PeerRegistration
import OpenStreamGrid.Sdk.Schedulers
import OpenStreamGrid.BuiltinSchedulers
import OpenStreamGrid.Sdk.SegmentLoading
import OpenStreamGrid.Peer.WebRtcTransport
import OpenStreamGrid.Sdk.WebRtcPeer
import OpenStreamGrid.Sdk.TransferTimers
import OpenStreamGrid.SegmentTransfers
import OpenStreamGrid.Lib.TokenBucket
import OpenStreamGrid.Peer.UploadPacing
import OpenStreamGrid.Client.PeerDirectory
import OpenStreamGrid.Tracker.StoreUtils
import OpenStreamGrid.Tracker.Store
import OpenStreamGrid.Tracker.SqliteStore
import OpenStreamGrid.Tracker.StoreAgreement
import OpenStreamGrid.Tracker.InventoryLimits
import OpenStreamGrid.Tracker.InventoryReports
import OpenStreamGrid.Tracker.TrafficAccounting
import OpenStreamGrid.Tracker.StoreOperations
import OpenStreamGrid.Tracker.StoreTotals
import OpenStreamGrid.Tracker.StoreInterchange
import OpenStreamGrid.Tracker.StoreSimulation
import OpenStreamGrid.Tracker.TrafficConservation
import OpenStreamGrid.Tracker.NeighborViews
import OpenStreamGrid.Tracker.NeighborInvariant
import OpenStreamGrid.Tracker.NeighborEffects
import OpenStreamGrid.Tracker.NeighborFullness
import OpenStreamGrid.Lib.JsonText
import OpenStreamGrid.Client.SegmentReports
import OpenStreamGrid.Client.ViewTracking
import OpenStreamGrid.Tracker.ReportAdmission
import OpenStreamGrid.Tracker.ReportingProtocol
import OpenStreamGrid.Tracker.Hub
import OpenStreamGrid.Tracker.HubEvents
import OpenStreamGrid.Tracker.HubIndex
import OpenStreamGrid.Tracker.HubFollowing
import OpenStreamGrid.Tracker.HubSockets
import OpenStreamGrid.Tracker.HubFlush
import OpenStreamGrid.Tracker.HubSteps
import OpenStreamGrid.Tracker.HubInvariant
import OpenStreamGrid.Tracker.SubscriptionIndex
import OpenStreamGrid.Tracker.ConnectionSlots
import OpenStreamGrid.Tracker.HubMembership
import OpenStreamGrid.Tracker.HubInventory
import OpenStreamGrid.Tracker.BatchMerging
import OpenStreamGrid.Tracker.HubLogs
import OpenStreamGrid.Tracker.HubContent
import OpenStreamGrid.Tracker.FlushTimers
import OpenStreamGrid.Tracker.FlushTrace
import OpenStreamGrid.Tracker.FlushOrder
import OpenStreamGrid.Tracker.FlushDelivery
import OpenStreamGrid.Lib.SnapshotCounter
import OpenStreamGrid.Tracker.TrackerMetrics
import OpenStreamGrid.Tracker.MetricsExport
import OpenStreamGrid.Common.SegmentIds
import OpenStreamGrid.Lib.LinkedList
import OpenStreamGrid.Lib.LruList
import OpenStreamGrid.Sdk.SegmentCache
import OpenStreamGrid.Sdk.LinkedCache
import OpenStreamGrid.Sdk.SegmentSharing
import OpenStreamGrid.Sdk.LoadStatistics
import OpenStreamGrid.Lib.RequestCoalescing
import OpenStreamGrid.SegmentCoalescing
import OpenStreamGrid.Lib.Restriction
import OpenStreamGrid.Common.PeerAddress
import OpenStreamGrid.Tracker.BroadcastParts
import OpenStreamGrid.Tracker.StoreParts
import OpenStreamGrid.Tracker.SqliteParts
import OpenStreamGrid.Tracker.PeerSessions
import OpenStreamGrid.Tracker.RestRequests
import OpenStreamGrid.Tracker.RestRoutes
import OpenStreamGrid.Tracker.RestConfinement
import OpenStreamGrid.Tracker.RestRuns
import OpenStreamGrid.Tracker.NeighborReports
import OpenStreamGrid.Origin.HlsStreamer
import OpenStreamGrid.Client.TrackerMessages
import OpenStreamGrid.Client.MessageDecoding
import OpenStreamGrid.Tracker.PlainMessages
import OpenStreamGrid.Client.ClientAgreement
import OpenStreamGrid.Tracker.JoinAnnouncements
import OpenStreamGrid.Tracker.BroadcastReuse
import OpenStreamGrid.Tracker.FailureConsensus
import OpenStreamGrid.Tracker.InventoryRetention
import OpenStreamGrid.Tracker.InventoryRateLimiter
import OpenStreamGrid.Tracker.IpRateLimiter
import OpenStreamGrid.Peer.AddressGuards
import OpenStreamGrid.Tracker.ForwardedAddress
import OpenStreamGrid.VerifiedBytes
import OpenStreamGrid.Origin.LowLatencyParts
import OpenStreamGrid.Sdk.PartLoading
import OpenStreamGrid.PartReassembly
import OpenStreamGrid.Origin.SidecarCompleteness
import OpenStreamGrid.Tracker.SocketSessions
import OpenStreamGrid.Tracker.SocketMessages
import OpenStreamGrid.Tracker.SocketConfinement
import OpenStreamGrid.Tracker.MessageBudgets
import OpenStreamGrid.Tracker.SignalRelay
import OpenStreamGrid.Client.SignalingEndpoint
import OpenStreamGrid.SignalingNetwork
import OpenStreamGrid.Lib.Backoff
import OpenStreamGrid.Client.TrackerConnection
import OpenStreamGrid.Tracker.StatsEvents
import OpenStreamGrid.Peer.CacheLeases
import OpenStreamGrid.Peer.UploadServer
import OpenStreamGrid.Peer.UploadLeases
import OpenStreamGrid.Peer.UploadMetering
import OpenStreamGrid.Lib.IsoParsing
import OpenStreamGrid.Tracker.LeaseSweeps
import OpenStreamGrid.BroadcastLeases
import OpenStreamGrid.LeaseRenewals
import OpenStreamGrid.Lib.Programs
import OpenStreamGrid.Origin.AssetServer
import OpenStreamGrid.Origin.AssetConfinement
import OpenStreamGrid.Origin.AssetServing
import OpenStreamGrid.Origin.SidecarServing
