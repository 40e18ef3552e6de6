import SmartSchoolCdn.Foundation.Trace
import SmartSchoolCdn.Foundation.Text
import SmartSchoolCdn.Foundation.Grammar
import SmartSchoolCdn.Foundation.Table
import SmartSchoolCdn.Foundation.Journal
import SmartSchoolCdn.Foundation.FiniteMap
import SmartSchoolCdn.Foundation.Broadcast
import SmartSchoolCdn.Foundation.Passage
import SmartSchoolCdn.Foundation.Totals
import SmartSchoolCdn.Foundation.Prefixes
import SmartSchoolCdn.Foundation.Protobuf
import SmartSchoolCdn.Foundation.Like
import SmartSchoolCdn.Foundation.Ranking
import SmartSchoolCdn.Foundation.Framing
import SmartSchoolCdn.Foundation.Grouping
import SmartSchoolCdn.Foundation.Statements
import SmartSchoolCdn.Http
import SmartSchoolCdn.Proxy.Policy
import SmartSchoolCdn.Proxy.Range
import SmartSchoolCdn.Proxy.Compress
import SmartSchoolCdn.Storage.CacheLayer
import SmartSchoolCdn.Storage.Grpc
import SmartSchoolCdn.Proxy.Response
import SmartSchoolCdn.Proxy.System
import SmartSchoolCdn.Proxy.Steps
import SmartSchoolCdn.Proxy.Provenance
import SmartSchoolCdn.Proxy.Admission
import SmartSchoolCdn.Proxy.Coalescer
import SmartSchoolCdn.Proxy.Answers
import SmartSchoolCdn.Proxy.Isolation
import SmartSchoolCdn.Proxy.HeadRequests
import SmartSchoolCdn.Proxy.ContentCoding
import SmartSchoolCdn.Proxy.Labels
import SmartSchoolCdn.Proxy.Freshness
import SmartSchoolCdn.Proxy.StaleIfError
import SmartSchoolCdn.Proxy.Purge
import SmartSchoolCdn.Admin.Reply
import SmartSchoolCdn.Admin.CachePurge
import SmartSchoolCdn.Admin.Database
import SmartSchoolCdn.Admin.DomainRoutes
import SmartSchoolCdn.Admin.SharedConnection
import SmartSchoolCdn.Admin.DomainSync
import SmartSchoolCdn.Admin.FanOut
import SmartSchoolCdn.Proxy.HostMatching
import SmartSchoolCdn.Proxy.CertReadiness
import SmartSchoolCdn.Storage.Disk
import SmartSchoolCdn.Storage.Conditions
import SmartSchoolCdn.Storage.DiskSteps
import SmartSchoolCdn.Storage.Accounting
import SmartSchoolCdn.Storage.Agreement
import SmartSchoolCdn.Storage.Snapshot
import SmartSchoolCdn.Storage.Budget
import SmartSchoolCdn.Storage.FailedWrite
import SmartSchoolCdn.Storage.Eviction
import SmartSchoolCdn.Storage.Expiry
import SmartSchoolCdn.Proxy.InFlight
import SmartSchoolCdn.Proxy.Validators
import SmartSchoolCdn.Admin.DomainPurge
import SmartSchoolCdn.Proxy.Counters
import SmartSchoolCdn.Proxy.Outcomes
import SmartSchoolCdn.Proxy.PurgeKeys
import SmartSchoolCdn.Proxy.Events
import SmartSchoolCdn.Admin.OptimizationEvents
import SmartSchoolCdn.Admin.EventDelivery
import SmartSchoolCdn.Admin.Diagnosis
import SmartSchoolCdn.Proxy.DomainUpdate
import SmartSchoolCdn.Admin.HealthMonitor
import SmartSchoolCdn.Admin.StatsCollector
import SmartSchoolCdn.Admin.Accounts
import SmartSchoolCdn.Admin.Sessions
import SmartSchoolCdn.Admin.Setup
import SmartSchoolCdn.Admin.Lockout
import SmartSchoolCdn.Admin.FailedSync
import SmartSchoolCdn.Admin.Renewal
import SmartSchoolCdn.Services.Issuance
import SmartSchoolCdn.Proxy.HitBranches
import SmartSchoolCdn.Proxy.IfRange
import SmartSchoolCdn.Proxy.Replay
import SmartSchoolCdn.Proxy.HeadAndGet
import SmartSchoolCdn.Proxy.RoutedPolicies
import SmartSchoolCdn.Proxy.MessageSize
import SmartSchoolCdn.Proxy.TimeToLive
import SmartSchoolCdn.Proxy.BufferBudget
import SmartSchoolCdn.Proxy.OriginPermits
import SmartSchoolCdn.Proxy.RangeRequests
import SmartSchoolCdn.Proxy.HitCoding
import SmartSchoolCdn.Proxy.Negotiation
import SmartSchoolCdn.Proxy.FieldLines
import SmartSchoolCdn.Proxy.Vary
import SmartSchoolCdn.Storage.Overwrite
import SmartSchoolCdn.Admin.HostNames
import SmartSchoolCdn.Proxy.CacheKeys
import SmartSchoolCdn.Admin.DiagnosisKey
import SmartSchoolCdn.Services.OneCertificate
import SmartSchoolCdn.Services.Optimizer
import SmartSchoolCdn.Services.DnsServer
import SmartSchoolCdn.Services.DnsForwarding
import SmartSchoolCdn.Services.QueryLog
import SmartSchoolCdn.Admin.DnsMetrics
import SmartSchoolCdn.Admin.ExpiryAlerts
import SmartSchoolCdn.Admin.Orphans
import SmartSchoolCdn.Admin.Search
import SmartSchoolCdn.Admin.UserPages
import SmartSchoolCdn.Admin.Popular
import SmartSchoolCdn.Admin.LogStream
import SmartSchoolCdn.Admin.HostLock
import SmartSchoolCdn.Proxy.EventBatches
import SmartSchoolCdn.Admin.Summaries
import SmartSchoolCdn.Admin.SummarySeries
import SmartSchoolCdn.Storage.Seeding
import SmartSchoolCdn.Storage.SeedingDebt
import SmartSchoolCdn.Admin.Usernames
import SmartSchoolCdn.Admin.UsernamePass
import SmartSchoolCdn.Proxy.AutoTune
import SmartSchoolCdn.Proxy.Progress
import SmartSchoolCdn.Proxy.SaveTracker
import SmartSchoolCdn.Storage.Serial
import SmartSchoolCdn.Admin.AuditLog
import SmartSchoolCdn.Admin.DomainStats
import SmartSchoolCdn.Proxy.RequestLog
import SmartSchoolCdn.Admin.ShownStats
import SmartSchoolCdn.Admin.AuditTrail
import SmartSchoolCdn.Admin.HostLogs
import SmartSchoolCdn.Admin.EventViews
import SmartSchoolCdn.Services.DnsReports
import SmartSchoolCdn.Storage.Reports
import SmartSchoolCdn.Admin.Maintenance
