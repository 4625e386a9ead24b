import Ppaass.Lib.Machine
import Ppaass.Lib.Bits
import Ppaass.Lib.BigEndian
import Ppaass.Lib.Rsa
import Ppaass.Lib.Result
import Ppaass.Lib.Table
import Ppaass.Lib.CyclicIds
import Ppaass.Lib.Fragments
import Ppaass.Lib.Loop
import Ppaass.Lib.Fallible
import Ppaass.Lib.Wrapping
import Ppaass.Lib.Net
import Ppaass.Lib.Probe
import Ppaass.Protocol.Rsa
import Ppaass.Protocol.Udp.Header
import Ppaass.Protocol.Udp.Replay
import Ppaass.Protocol.Udp.Crypto
import Ppaass.Protocol.Udp.Auth
import Ppaass.Protocol.Udp.Reassembly
import Ppaass.Protocol.Udp.ReassemblyInvariant
import Ppaass.Protocol.Udp.Codec
import Ppaass.Protocol.Udp.Transmission
import Ppaass.Protocol.Udp.Receiver
import Ppaass.Protocol.Udp.Session
import Ppaass.Proxy.NativeUdpListener
import Ppaass.Proxy.UdpRelayFlow
import Ppaass.Proxy.Auth
import Ppaass.Proxy.RouteGuard
import Ppaass.Agent.UdpFlowTable
import Ppaass.Agent.Socks5Udp
import Ppaass.Agent.DnsParser
import Ppaass.Agent.SessionPool
import Ppaass.Agent.DirectAccess
import Ppaass.Agent.DirectDomainCache
import Ppaass.Agent.DnsResponseCache
import Ppaass.Agent.DnsProxy
import Ppaass.Common.UdpClientStream
import Ppaass.Common.UdpSession
import Ppaass.Common.UdpFlowProtocol
import Ppaass.Proxy.NativeUdpSession
import Ppaass.Proxy.NativeUdpReplies
