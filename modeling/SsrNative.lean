import SsrNative.Lib.Segments
import SsrNative.Lib.Framing
import SsrNative.Lib.Passes
import SsrNative.Lib.Units
import SsrNative.Lib.Search
import SsrNative.Lib.Hash
import SsrNative.Lib.Text
import SsrNative.Lib.Delimited
import SsrNative.Lib.Rc4
import SsrNative.Lib.KeyStream
import SsrNative.Lib.Counter
import SsrNative.Lib.Chained
import SsrNative.Lib.Crc
import SsrNative.Lib.Adler
import SsrNative.Lib.Transition
import SsrNative.Lib.Drain
import SsrNative.Lib.ChaCha20Poly1305
import SsrNative.Lib.Aes
import SsrNative.Bytes
import SsrNative.CString
import SsrNative.Crypto
import SsrNative.Obfs.Tls12Ticket
import SsrNative.Obfs.Tls12Records
import SsrNative.Obfs.Tls12Server
import SsrNative.Obfs.Tls12Client
import SsrNative.Obfs.Tls12Stream
import SsrNative.Obfs.HttpSimple
import SsrNative.Obfs.HttpResponse
import SsrNative.Obfs.HttpRequest
import SsrNative.Obfs.AuthAes128
import SsrNative.Obfs.AuthAes128Stream
import SsrNative.Obfs.AuthAes128ToClient
import SsrNative.Obfs.AuthAes128Verified
import SsrNative.Obfs.AuthAes128Bounds
import SsrNative.ProtocolParam
import SsrNative.Obfs.AuthAes128Udp
import SsrNative.Obfs.Checksums
import SsrNative.Obfs.Crc32
import SsrNative.Obfs.Adler32
import SsrNative.Obfs.AuthSha1V4
import SsrNative.Obfs.AuthSha1V4Stream
import SsrNative.Obfs.ChecksumFrames
import SsrNative.Obfs.ChecksumBounds
import SsrNative.Obfs.ChecksumStream
import SsrNative.Obfs.PackBuffers
import SsrNative.Obfs.AuthSha1V4Calls
import SsrNative.Obfs.GlobalBlock
import SsrNative.Obfs.AuthChainRand
import SsrNative.Obfs.AuthChain
import SsrNative.Obfs.AuthChainFrame
import SsrNative.Obfs.AuthChainBounds
import SsrNative.Obfs.AuthChainToServer
import SsrNative.Obfs.AuthChainToClient
import SsrNative.Obfs.AuthChainUnits
import SsrNative.Obfs.AuthChainOutBuffer
import SsrNative.Obfs.AuthChainUdp
import SsrNative.Obfs.AuthChainSizes
import SsrNative.Encrypt
import SsrNative.SodiumStream
import SsrNative.Tunnel
import SsrNative.TunnelLifetime
import SsrNative.Client.S5
import SsrNative.Client.S5Address
import SsrNative.Client.S5Standard
import SsrNative.Client.Dispatcher
import SsrNative.Client.Pipeline
import SsrNative.Client.Phases
import SsrNative.Client.Relay
import SsrNative.Client.Handshake
import SsrNative.Executive
import SsrNative.Aead
import SsrNative.AeadNonce
import SsrNative.AeadAll
import SsrNative.IvReplay
import SsrNative.Cache
import SsrNative.Ppbloom
import SsrNative.CipherPair
import SsrNative.Websocket
import SsrNative.Deque
import SsrNative.Base64
import SsrNative.Socks5Address
import SsrNative.Client.TlsTunnel
import SsrNative.Client.TlsReceive
import SsrNative.Client.UdpTunnel
import SsrNative.Client.UdpTunnels
import SsrNative.Server.Pipeline
import SsrNative.Server.Assembly
import SsrNative.Server.Dispatcher
import SsrNative.TunnelDrain
import SsrNative.EndOfStream
import SsrNative.Udp.Reply
import SsrNative.Udp.Session
import SsrNative.Udp.Header
import SsrNative.Server.ReadSizes
import SsrNative.EncryptCalls
import SsrNative.Lib.Demand
import SsrNative.Lib.Memory
import SsrNative.Socks5Codec
import SsrNative.Client.S5Packages
import SsrNative.Client.S5Datagram
import SsrNative.Lib.ByteOrder
import SsrNative.WebsocketMemory
import SsrNative.Server.PreParse
import SsrNative.SsrBuffer
import SsrNative.Obfs.Tls12Slices
import SsrNative.Obfs.Tls12ServerSlices
import SsrNative.Obfs.Tls12SliceRuns
import SsrNative.CRegion
import SsrNative.Obfs.HttpBounds
import SsrNative.Base64Codec
import SsrNative.CText
import SsrNative.CipherNames
import SsrNative.QrCode
import SsrNative.QrCodeDecode
import SsrNative.QrCodeEncode
import SsrNative.QrCodeTexts
import SsrNative.QrCodeSsLink
import SsrNative.QrCodeSsrLink
import SsrNative.QrCodeRoundTrip
import SsrNative.KeyDerivation
import SsrNative.Hkdf
import SsrNative.HttpHeader
import SsrNative.Lib.Rearrange
import SsrNative.TableCipher
import SsrNative.BufferHeap
import SsrNative.BufferLists
import SsrNative.Lib.RedBlackTree
import SsrNative.RbTree
import SsrNative.Lib.Cells
import SsrNative.RbTreeShape
import SsrNative.RbTreeInsert
import SsrNative.Lib.Comparison
import SsrNative.RbTreeSearch
import SsrNative.RbTreeRemove
import SsrNative.RbTreeOps
import SsrNative.RbTreeRuns
import SsrNative.CstlSet
import SsrNative.Udp.ListenerShutdown
import SsrNative.CstlMap
import SsrNative.IpAddrCache
import SsrNative.Server.TunnelSet
