import Cox.Lib.Bytes
import Cox.Lib.Frames
import Cox.Lib.Printf
import Cox.Lib.Rounding
import Cox.Lib.Decimal
import Cox.Lib.Json
import Cox.Lib.Exposition
import Cox.Lib.Families
import Cox.Lib.Cells
import Cox.Lib.SortedMap
import Cox.Lib.SortedSet
import Cox.Lib.Machine
import Cox.Lib.Potential
import Cox.Lib.Holdings
import Cox.Lib.Resumable
import Cox.Lib.Phased
import Cox.Lib.Session
import Cox.Lib.Outbox
import Cox.Lib.Watermark
import Cox.Lib.Handover
import Cox.Lib.Schedule
import Cox.Lib.Tokens
import Cox.Lib.Tickets
import Cox.Lib.Conveyor
import Cox.Lib.CondVar
import Cox.Buffer.Buffer
import Cox.Flowcontrol.Backoff
import Cox.Flowcontrol.BackoffForm
import Cox.Flowcontrol.ConcurrencyLimiter
import Cox.Flowcontrol.TokenBucket
import Cox.Metrics.Registry
import Cox.Metrics.Scrape
import Cox.Metrics.Histogram
import Cox.Metrics.Updates
import Cox.Metrics.Prometheus
import Cox.Metrics.ExposedCounts
import Cox.Metrics.ServerMetrics
import Cox.Concurrent.ThreadPool
import Cox.Concurrent.ThreadPoolTasks
import Cox.Concurrent.ThreadPoolCallers
import Cox.Concurrent.ThreadPoolWaits
import Cox.Logging.AsyncSink
import Cox.Logging.AsyncSinkLedger
import Cox.Logging.AsyncSinkFlush
import Cox.Logging.RotatingFileSink
import Cox.Logging.RotatingFiles
import Cox.Logging.Timestamp
import Cox.Logging.JsonFormatter
import Cox.Reactor.EventLoop
import Cox.Reactor.TaskQueue
import Cox.Reactor.Dispatch
import Cox.Reactor.TimerQueue
import Cox.Reactor.TimerArmed
import Cox.Reactor.TimerHeap
import Cox.Reactor.TimerCancel
import Cox.Reactor.TimerSchedule
import Cox.Reactor.Pollers
import Cox.Net.TcpConnection
import Cox.Net.TcpControl
import Cox.Net.TcpMail
import Cox.Net.TcpOutbox
import Cox.Net.TcpOutput
import Cox.Net.TcpDisconnect
import Cox.Net.TcpHandover
import Cox.Net.TcpPosts
import Cox.Net.TcpHalfClose
import Cox.Net.TcpForward
import Cox.Net.TcpTeardown
import Cox.Net.TcpHighWater
import Cox.Net.TcpQuiescence
import Cox.Net.TcpServer
import Cox.Net.Connector
import Cox.Net.ConnectorSockets
import Cox.Net.ConnectorWalk
import Cox.Net.InetAddress
import Cox.Net.Resolver
import Cox.Net.ResolverNested
import Cox.Net.ResolverCache
import Cox.Tls.Context
import Cox.Tls.ContextReload
import Cox.Tls.OcspStapler
import Cox.Tls.OcspRefresh
import Cox.Tls.OcspChain
import Cox.Tls.Sni
import Cox.Tls.Alpn
import Cox.Tls.Send
import Cox.Http.Request
import Cox.Http.Fields
import Cox.Http.Context
import Cox.Http.ContextRounds
import Cox.Http.Wire
import Cox.Http.Consumed
import Cox.Http.ChunkGrammar
import Cox.Http.ContentLength
import Cox.Http.HeaderLimit
import Cox.Http.BodyCap
import Cox.Http.RequestRoundTrip
import Cox.Http.Reserialise
import Cox.Http.Response
import Cox.Http.ResponseParser
import Cox.Http.ResponseRounds
import Cox.Http.ParserLoops
import Cox.Http.ResponseWire
import Cox.Http.ResponseRoundTrip
import Cox.Http.ResponseStream
import Cox.Http.Framing
import Cox.Http.Pool
import Cox.Http.PoolPartition
import Cox.Http.PoolCapacity
import Cox.Http.PoolLedger
import Cox.Http.PoolTls
import Cox.Http.PoolSettled
import Cox.Http.PoolClose
import Cox.Http.PoolWire
import Cox.Http.MultiOriginPool
import Cox.Http.Server
import Cox.Http.ServerRuns
import Cox.Http.ServerClose
import Cox.Http.ServerConnections
import Cox.Http.ServerTracking
import Cox.Http.Url
import Cox.Http.Router
