import XProtocol.Async.Program
import XProtocol.Async.Machine
import XProtocol.Error
import XProtocol.Json.Value
import XProtocol.Json.Text
import XProtocol.Wire
import XProtocol.Wire.Pieces
import XProtocol.Protocol
import XProtocol.Handler
import XProtocol.Streaming
import XProtocol.Auth.Permission
import XProtocol.Schema
import XProtocol.Net
import XProtocol.Peer
import XProtocol.Client.Uds
import XProtocol.Client.Shared
import XProtocol.Client.Pairing
import XProtocol.Client.Sharing
import XProtocol.EchoServer
import XProtocol.Chronicle
import XProtocol.CircuitBreaker
import XProtocol.CircuitBreaker.History
import XProtocol.Pool.Production
import XProtocol.Pool.Replies
import XProtocol.Auth.RateLimit
import XProtocol.Serving
import XProtocol.Tcp.Server
import XProtocol.Server.Session
import XProtocol.Tcp.Termination
import XProtocol.Server.Handshake
import XProtocol.Client.Reliable
import XProtocol.Client.Locking
import XProtocol.Client.Deadlock
import XProtocol.Client.Replies
import XProtocol.Pool.Connection
import XProtocol.Tcp.Client
import XProtocol.Client.Exclusive
import XProtocol.Client.Greeting
import XProtocol.Server.Validation
import XProtocol.Server.Answers
import XProtocol.Server.Framing
import XProtocol.Server.Limiting
import XProtocol.Pool.Breaker
import XProtocol.Async.Alone
import XProtocol.Client.Exchange
import XProtocol.Serving.Peer
import XProtocol.Server.Streams
import XProtocol.Client.Undisturbed
import XProtocol.Server.Calls
import XProtocol.Client.Speaking
import XProtocol.Client.Handshakes
import XProtocol.Async.Among
import XProtocol.Tcp.System
import XProtocol.Tcp.Exchange
import XProtocol.Async.Ledger
import XProtocol.Pool.Accounts
import XProtocol.Async.Lending
import XProtocol.Pool.Hands
import XProtocol.Pool.Closing
import XProtocol.Async.Dropping
import XProtocol.Async.Stretch
import XProtocol.Pool.Holding
import XProtocol.Pool.Uds
import XProtocol.Pool.Limits
import XProtocol.Pool.Population
import XProtocol.Pool.Reuse
import XProtocol.Pool.Topics
import XProtocol.Pool.Lanes
import XProtocol.Discovery
import XProtocol.Discovery.Selection
import XProtocol.Discovery.Health
import XProtocol.Discovery.Locks
import XProtocol.Discovery.Agreement
import XProtocol.Tcp.Calls
import XProtocol.Binary64
import XProtocol.Metrics
import XProtocol.Metrics.Percentiles
import XProtocol.Metrics.Quantiles
import XProtocol.Metrics.Alerts
import XProtocol.Server.Accounting
import XProtocol.Server.Capacity
import XProtocol.Broadcast
import XProtocol.MessageQueue
import XProtocol.DeadLetterQueue
import XProtocol.Webhook
import XProtocol.Grpc
import XProtocol.Auth.Contention
import XProtocol.Auth.Authenticators
import XProtocol.Auth.SlidingWindow
import XProtocol.Client.Episodes
import XProtocol.Client.Consistency
import XProtocol.Tcp.Recovery
import XProtocol.Async.Scripted
import XProtocol.Webhook.Delivery
import XProtocol.Client.Truthful
import XProtocol.Session
import XProtocol.Session.Expiry
import XProtocol.Pool.Openings
import XProtocol.Client.Reconnect
import XProtocol.Client.Statistics
import XProtocol.Threads
import XProtocol.Threads.Maximum
import XProtocol.Metrics.Maxima
import XProtocol.Metrics.Collector
import XProtocol.Discovery.Background
import XProtocol.Shutdown
import XProtocol.Async.Mutex
import XProtocol.Async.RwLock
import XProtocol.Client.Progress
import XProtocol.Client.Concurrent
import XProtocol.Pool.Answers
import XProtocol.Client.Once
import XProtocol.Pool.Once
import XProtocol.Pool.Served
import XProtocol.Async.Order
import XProtocol.Pool.Completion
import XProtocol.CircuitBreaker.Contended
import XProtocol.Pool.Finishing
import XProtocol.Server.Crowd
import XProtocol.Server.Notices
import XProtocol.Auth.Waiting
import XProtocol.Async.Inevitable
import XProtocol.Client.Unhindered
import XProtocol.Pool.Inevitable
import XProtocol.Pool.Admitted
