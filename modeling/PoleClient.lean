import PoleClient.Cache.Failover
import PoleClient.Cache.FailoverRoundTrip
import PoleClient.Cache.Freshness
import PoleClient.Cache.InstanceIdentity
import PoleClient.Cache.Lists
import PoleClient.Cache.MemoryCache
import PoleClient.Cache.Model
import PoleClient.Cache.Pipeline
import PoleClient.Cache.Recovery
import PoleClient.Cache.Registration
import PoleClient.Cache.Requests
import PoleClient.Cache.WatchDelivery
import PoleClient.Cache.WatchIdentifiers
import PoleClient.Cache.Watchers
import PoleClient.CircuitBreaker.Composite
import PoleClient.CircuitBreaker.CompositeTrace
import PoleClient.CircuitBreaker.Counters
import PoleClient.CircuitBreaker.Invoke
import PoleClient.CircuitBreaker.Isolation
import PoleClient.CircuitBreaker.Permission
import PoleClient.CircuitBreaker.ResourceKeys
import PoleClient.CircuitBreaker.RuleState
import PoleClient.CircuitBreaker.RuleUpdates
import PoleClient.CircuitBreaker.Trace
import PoleClient.CircuitBreaker.TraceLaw
import PoleClient.Connector.ConfigCrypto
import PoleClient.Connector.ConfigWrites
import PoleClient.Connector.Convergence
import PoleClient.Connector.Currency
import PoleClient.Connector.RoundTrip
import PoleClient.Connector.Streams
import PoleClient.Connector.Watch
import PoleClient.Core.Joined
import PoleClient.Core.Model
import PoleClient.Core.Naming
import PoleClient.Core.Text
import PoleClient.Core.TrafficArgument
import PoleClient.Core.WireText
import PoleClient.Discovery.EndpointText
import PoleClient.Discovery.Heartbeat
import PoleClient.Discovery.Independence
import PoleClient.Discovery.Instances
import PoleClient.Discovery.Lossless
import PoleClient.Discovery.Offline
import PoleClient.Discovery.OneInstance
import PoleClient.Discovery.Online
import PoleClient.Discovery.Ownership
import PoleClient.Discovery.Readiness
import PoleClient.FaultDetect.Convergence
import PoleClient.FaultDetect.Model
import PoleClient.FaultDetect.ProbeExchange
import PoleClient.FaultDetect.ProbeReports
import PoleClient.FaultDetect.Probes
import PoleClient.FaultDetect.Reload
import PoleClient.Identity.Credential
import PoleClient.Identity.Handlers
import PoleClient.Identity.Model
import PoleClient.Identity.RequestStorm
import PoleClient.Identity.Revocation
import PoleClient.Identity.Shutdown
import PoleClient.Identity.Soundness
import PoleClient.Identity.TrustBundle
import PoleClient.Identity.Verification
import PoleClient.Identity.Watches
import PoleClient.Lib.Collected
import PoleClient.Lib.CounterArith
import PoleClient.Lib.EventLog
import PoleClient.Lib.Latest
import PoleClient.Lib.OrderedMap
import PoleClient.Lib.OrderedScan
import PoleClient.Lib.Remote
import PoleClient.Lib.Run
import PoleClient.Lib.Shares
import PoleClient.Lib.SmoothRoundRobin
import PoleClient.Lib.SortedVec
import PoleClient.Lib.StableSort
import PoleClient.Lib.Streak
import PoleClient.Lib.Table
import PoleClient.Lib.Threads
import PoleClient.Lib.Trie
import PoleClient.LoadBalance.Fairness
import PoleClient.LoadBalance.RingHash
import PoleClient.LoadBalance.RingLookup
import PoleClient.LoadBalance.RoundRobin
import PoleClient.LoadBalance.WeightedRandom
import PoleClient.RateLimit.Admission
import PoleClient.RateLimit.AdmissionRun
import PoleClient.RateLimit.Atomicity
import PoleClient.RateLimit.Buckets
import PoleClient.RateLimit.CallEffects
import PoleClient.RateLimit.CallLedger
import PoleClient.RateLimit.Conservation
import PoleClient.RateLimit.Endpoints
import PoleClient.RateLimit.Lease
import PoleClient.RateLimit.LeaseContract
import PoleClient.RateLimit.LeaseFanOut
import PoleClient.RateLimit.LeaseOpening
import PoleClient.RateLimit.LeaseRecord
import PoleClient.RateLimit.LeaseRequests
import PoleClient.RateLimit.LeaseRun
import PoleClient.RateLimit.LeaseTotals
import PoleClient.RateLimit.LeaseWire
import PoleClient.RateLimit.Ledger
import PoleClient.RateLimit.LedgerRun
import PoleClient.RateLimit.Limiter
import PoleClient.RateLimit.LimiterChanges
import PoleClient.RateLimit.LimiterLedger
import PoleClient.RateLimit.LimiterSystem
import PoleClient.RateLimit.LocalCounter
import PoleClient.RateLimit.ManagerRuns
import PoleClient.RateLimit.ManagerSoundness
import PoleClient.RateLimit.MultiReserve
import PoleClient.RateLimit.Pairing
import PoleClient.RateLimit.QuotaManager
import PoleClient.RateLimit.QuotaWindows
import PoleClient.RateLimit.ReserveEndpoints
import PoleClient.RateLimit.Rollback
import PoleClient.RateLimit.Rules
import PoleClient.RateLimit.ServerClock
import PoleClient.RateLimit.Session
import PoleClient.RateLimit.Settlement
import PoleClient.RateLimit.Turns
import PoleClient.RateLimit.Windows
import PoleClient.Traffic.FilterDecision
import PoleClient.Traffic.Governance
import PoleClient.Traffic.IndexExactness
import PoleClient.Traffic.LabelMatch
import PoleClient.Traffic.LaneDecision
import PoleClient.Traffic.Matcher
import PoleClient.Traffic.MirrorTargets
import PoleClient.Traffic.NearbyDecision
import PoleClient.Traffic.Routers
import PoleClient.Traffic.RoutingSelection
import PoleClient.Traffic.RuleDecision
import PoleClient.Traffic.Sampling
import PoleClient.Traffic.Security
import PoleClient.Traffic.SecurityDecision
