import SocketFunneling.Tls.Bufferer
import SocketFunneling.Tls.Effects
import SocketFunneling.Tls.Chains
import SocketFunneling.Tls.Quiescent
import SocketFunneling.Tls.Bound
import SocketFunneling.Tls.Delivery
import SocketFunneling.Tls.Close
import SocketFunneling.Tls.Failure
import SocketFunneling.Tls.Handshake
import SocketFunneling.Tls.Bytes
import SocketFunneling.Tls.AfterClose
import SocketFunneling.Tls.Progress
import SocketFunneling.Admin.Commands
import SocketFunneling.Admin.Serials
import SocketFunneling.Admin.Handlers
import SocketFunneling.Layers.Stack
