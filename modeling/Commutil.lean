import Commutil.Basic
import Commutil.Library.PartialLoop
import Commutil.Library.LittleEndian
import Commutil.Library.StringSearch
import Commutil.Library.Refinement
import Commutil.Library.Transitions
import Commutil.Library.FifoQueues
import Commutil.Library.OrderedSets
import Commutil.Library.Overwrite
import Commutil.Library.Embedding
import Commutil.Library.Leases
import Commutil.Library.EventLoop
import Commutil.Common.KmpSearch
import Commutil.Common.StringCopy
import Commutil.Common.ConcurrentHashTable
import Commutil.Common.HashTableMap
import Commutil.Common.HashProbing
import Commutil.Common.HashTableThreads
import Commutil.Io.Streams
import Commutil.Io.FixedSearch
import Commutil.Io.SegmentedInputStream
import Commutil.Io.StreamProgress
import Commutil.Io.SearchAccount
import Commutil.Io.SearchContract
import Commutil.Io.FlatQueue
import Commutil.Io.InterchangeableStreams
import Commutil.Io.Serializable
import Commutil.Io.HeldBuffers
import Commutil.Framing.Message
import Commutil.Framing.Decoding
import Commutil.Framing.FrameDecoding
import Commutil.Framing.MsgAssembler
import Commutil.Framing.HeaderCodec
import Commutil.Framing.Gzip
import Commutil.Framing.MsgFrame
import Commutil.Framing.FailedAllocations
import Commutil.Framing.FrameBuilding
import Commutil.Framing.BatchWriter
import Commutil.Framing.BatchReader
import Commutil.Framing.FrameDispatch
import Commutil.Framing.LoopProgress
import Commutil.Framing.Segmentation
import Commutil.Framing.Reconnect
import Commutil.Framing.HeaderLength
import Commutil.Framing.Resync
import Commutil.Framing.ReceivedFrames
import Commutil.Transport.DataServer
import Commutil.Transport.WriteBuffers
import Commutil.Transport.ServerThread
import Commutil.Transport.StreamServers
import Commutil.Transport.SocketHandOver
import Commutil.Transport.StreamClient
import Commutil.Transport.ClientClose
import Commutil.Transport.UdpServer
import Commutil.Transport.ReceiveBuffers
import Commutil.Transport.DataLoopListener
import Commutil.Transport.LoopHandles
import Commutil.Transport.PipeBringUp
import Commutil.Transport.UdpClients
import Commutil.Client.RequestPool
import Commutil.Client.MsgClient
import Commutil.Client.MsgBacklog
import Commutil.Client.FailedSends
import Commutil.Client.BacklogIndices
import Commutil.Client.BacklogPruning
import Commutil.Client.MsgSender
import Commutil.Client.RejectedResponses
import Commutil.Client.ResendRound
import Commutil.Client.LateResponses
import Commutil.Client.TransactionSlots
import Commutil.Client.ShutdownTimers
import Commutil.Client.Correlation
import Commutil.Client.SlotRace
import Commutil.Client.SenderRun
import Commutil.Client.RequestReferences
import Commutil.Client.PendingRequests
import Commutil.Client.KeptRequests
import Commutil.Client.ResponseOrder
import Commutil.Client.DoubleFrees
import Commutil.Client.RequestOwnership
import Commutil.Client.RemoteCalls
import Commutil.Server.MsgMultiplexer
import Commutil.Server.MultiplexerStop
import Commutil.Server.MsgServer
import Commutil.Server.FrameHandling
import Commutil.Server.MsgSessions
import Commutil.Server.SessionListener
import Commutil.Server.Delivery
import Commutil.Server.SentFrames
import Commutil.Server.ServerLifecycle
import Commutil.Logging.LogBuffer
import Commutil.Logging.LogStack
import Commutil.Logging.LoggerRegistry
