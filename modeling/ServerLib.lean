import ServerLib.Base.SnowflakeIdGenerator
import ServerLib.BitTorrent.Committed
import ServerLib.BitTorrent.Coverage
import ServerLib.BitTorrent.DhtTokens
import ServerLib.BitTorrent.Extensions
import ServerLib.BitTorrent.PendingRequests
import ServerLib.BitTorrent.Received
import ServerLib.BitTorrent.RoundTrip
import ServerLib.Buffer.ByteBuffer
import ServerLib.Buffer.FlatReader
import ServerLib.Dns.Acceptance
import ServerLib.Dns.RoundTrip
import ServerLib.Http1.ChunkedRuns
import ServerLib.Http1.Framing
import ServerLib.Http2.DataOrder
import ServerLib.Http2.HeaderBlocks
import ServerLib.Http2.HpackLimit
import ServerLib.Http2.HpackSettings
import ServerLib.Http2.HuffmanInverse
import ServerLib.Http2.PendingQueue
import ServerLib.Http2.StreamClose
import ServerLib.Http2.StreamReuse
import ServerLib.Match.Filling
import ServerLib.Match.Locking
import ServerLib.Mqtt.Limits
import ServerLib.Mqtt.SessionStore
import ServerLib.Mqtt.SubscriptionMaps
import ServerLib.Redis.Commands
import ServerLib.Rpc.FrameStream
import ServerLib.Rpc.Handlers
import ServerLib.Smb.LockManager
import ServerLib.Ssh.Authentication
import ServerLib.Ssh.Exchange
import ServerLib.Ssh.ForcedCommand
import ServerLib.Ssh.Windows
import ServerLib.Timer.Punctual
import ServerLib.WebDav.LockManager
import ServerLib.WebSocket.Connection
