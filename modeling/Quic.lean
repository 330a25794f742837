import Quic.Lib.Bitmap
import Quic.Lib.Reachable
import Quic.Lib.OrderedList
import Quic.Lib.KeyedList
import Quic.Common.Basic
import Quic.Common.Varint
import Quic.Pnspace.Defs
import Quic.Pnspace.Invariant
import Quic.Pnspace.Receive
import Quic.Pnspace.Gabs
import Quic.Frame.Ack
import Quic.Frame.AckRecv
import Quic.Inqueue.Stream
import Quic.Inqueue.FlowControl
import Quic.Path.Ampl
import Quic.ConnId
import Quic.Frame.TransportParam
import Quic.Outqueue.SentList
import Quic.Stream.Table
import Quic.Cong.Control
import Quic.Outqueue.Frames
import Quic.Packet.LongHeader
import Quic.Crypto.KeyUpdate
import Quic.Packet.Number
import Quic.Cong.CubicRoot
import Quic.Pnspace.Window
import Quic.Frame.AckSize
import Quic.Common.Data
import Quic.Packet.Alpn
import Quic.Frame.Stream
import Quic.Outqueue.Contig
import Quic.Outqueue.FrameBytes
import Quic.Lib.Ranges
import Quic.Inqueue.Handshake
import Quic.Outqueue.Credit
import Quic.Path.Plpmtud
import Quic.Outqueue.Probe
import Quic.Frame.Process
