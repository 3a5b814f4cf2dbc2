import SessionAffinity.Foundations.Machine
import SessionAffinity.Foundations.Refinement
import SessionAffinity.Foundations.Noninterference
import SessionAffinity.Foundations.Clockwise
import SessionAffinity.Foundations.SlidingWindow
import SessionAffinity.Foundations.ByteString
import SessionAffinity.Foundations.Stoi
import SessionAffinity.Common
import SessionAffinity.Common.Codec
import SessionAffinity.ConsistentHash
import SessionAffinity.Ring.Lookup
import SessionAffinity.Ring.Membership
import SessionAffinity.RateLimiter
import SessionAffinity.RateLimiter.Quota
import SessionAffinity.RateLimiter.Memory
import SessionAffinity.RateLimiter.Compliance
import SessionAffinity.Security.Address
import SessionAffinity.Security.Spoofing
import SessionAffinity.LoadBalancer
import SessionAffinity.Logger
import SessionAffinity.SessionSystem
import SessionAffinity.SessionSystem.Audit
import SessionAffinity.SessionSystem.Failover
import SessionAffinity.SessionSystem.Cleanup
import SessionAffinity.SessionSystem.Expiry
import SessionAffinity.SessionSystem.Reassignment
import SessionAffinity.SessionSystem.Isolation
import SessionAffinity.Isolation
import SessionAffinity.Engine.Runs
import SessionAffinity.Engine.Invariants
import SessionAffinity.Engine.FailFast
import SessionAffinity.Engine.Availability
import SessionAffinity.Engine.Affinity
import SessionAffinity.Engine.Blocking
import SessionAffinity.Engine.Identity
import SessionAffinity.Engine.Accounting
import SessionAffinity.Engine.Healing
import SessionAffinity.Engine.Retirement
import SessionAffinity.Engine.Reporting
import SessionAffinity.Engine.Balancers
import SessionAffinity.Engine.Outage
import SessionAffinity.Engine.Service
import SessionAffinity.Engine.Moves
import SessionAffinity.Engine.RequestLog
import SessionAffinity.UdpServer
import SessionAffinity.UdpServer.Handover
import SessionAffinity.UdpServer.Payload
import SessionAffinity.UdpServer.Service
import SessionAffinity.UdpServer.RequestLog
import SessionAffinity.UdpServer.Retention
import SessionAffinity.Concurrent
import SessionAffinity.Concurrent.Agreement
import SessionAffinity.Concurrent.Coverage
import SessionAffinity.Concurrent.Alone
import SessionAffinity.Concurrent.Updates
import SessionAffinity.Concurrent.Affinity
import SessionAffinity.Concurrent.Requests
import SessionAffinity.Concurrent.Limits
import SessionAffinity.Foundations.Progress
import SessionAffinity.Concurrent.Progress
