import SunKV.Lib.Program
import SunKV.Lib.Reader
import SunKV.Lib.Replay
import SunKV.Lib.Finite
import SunKV.Lib.Decimal
import SunKV.Lib.Loop
import SunKV.Lib.Streaming
import SunKV.Lib.MultiMap
import SunKV.Lib.Cursor
import SunKV.Lib.Machine
import SunKV.Lib.OrderedSet
import SunKV.Storage.Commands
import SunKV.Storage.Deadline
import SunKV.Storage.Limit
import SunKV.Persistence.CrashAtomicity
import SunKV.Persistence.Restarts
import SunKV.Persistence.SnapshotReplace
import SunKV.Persistence.FailedAppend
import SunKV.Persistence.OverLimit
import SunKV.Persistence.Segments
import SunKV.Persistence.Checked
import SunKV.Concurrency.KeyAtomicity
import SunKV.Concurrency.DisjointKeys
import SunKV.Concurrency.LogOrder
import SunKV.Concurrency.AsyncQueue
import SunKV.Concurrency.PubSub
import SunKV.Concurrency.Publish
import SunKV.Concurrency.QuotaRace
import SunKV.Protocol.RoundTrip
import SunKV.Protocol.Integers
import SunKV.Network.Teardown
import SunKV.Network.Poller
import SunKV.Network.RawBuffer
import SunKV.Network.TimerRuns
import SunKV.Network.TimerArmed
import SunKV.Network.EventLoopThread
import SunKV.Client.Session
import SunKV.Server.Framing
import SunKV.Server.ErrorTerminal
import SunKV.Server.FailureReplies
import SunKV.Server.MissingConnection
import SunKV.Server.OneReply
import SunKV.Server.InputMemory
import SunKV.Server.Quit
import SunKV.Server.Unsubscribe
import SunKV.Server.Metrics
import SunKV.Server.Cleanup
import SunKV.System.Clients
import SunKV.Common.ConfigSources
