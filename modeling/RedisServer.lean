import RedisServer.Library.Runs
import RedisServer.Library.BinarySearch
import RedisServer.Library.Index
import RedisServer.Library.KeyedStore
import RedisServer.Resp
import RedisServer.Resp.Decoder
import RedisServer.Resp.Grammar
import RedisServer.Resp.RoundTrip
import RedisServer.Database.Deadlines
import RedisServer.Database.LazyExpiry
import RedisServer.Database.Representation
import RedisServer.Database.Slices
import RedisServer.Aof.Appends
import RedisServer.Aof.Manifest
import RedisServer.Connections.Wakeup
import RedisServer.Commands.AutomaticIds
import RedisServer.Commands.Batches
import RedisServer.Commands.Commute
import RedisServer.Commands.Counters
import RedisServer.Processor.Arrivals
import RedisServer.Processor.Departure
import RedisServer.Processor.FreshEntries
import RedisServer.Processor.Isolation
import RedisServer.Processor.Passwords
import RedisServer.Processor.Persistence
import RedisServer.Processor.Publications
import RedisServer.Processor.Replies
import RedisServer.Processor.Timeouts
import RedisServer.Processor.TornLog
import RedisServer.Processor.Transactions
import RedisServer.Processor.Watch
import RedisServer.Rdb.Hints
import RedisServer.Replication.Stream
import RedisServer.Server.Connection
import RedisServer.Server.Handover
import RedisServer.Server.Handshake
import RedisServer.Server.WaitSoundness
