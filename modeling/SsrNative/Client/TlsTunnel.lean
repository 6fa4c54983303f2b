import SsrNative.Base64
import SsrNative.Deque
import SsrNative.Socks5Address
import SsrNative.Websocket

/-!
# TlsTunnel — a tunnel of the client over TLS

A tunnel over TLS connects, asks for an upgrade to websocket and streams.  `TlsTunnel` is what
`client.c` keeps for it, and the callbacks of the TLS connection are functions on it that also return
what they send.  Cipher and header parser are parameters (`TlsEnv`).
-/

namespace SsrNative
namespace Client

open Base64
open Bytes
open Websocket
open Lib.Hash
open Lib.Segments

/-! ## The tunnel -/

/-- What `http_headers_parse` finds in a response. -/
structure HttpHeaders where
  status : Option Bytes
  secWebsocketAccept : Option Bytes
  parsedLen : ℕ

/-- What a tunnel over TLS calls, and what it reads from the configuration.  The cipher functions
return the buffer as they leave it and whether they returned `ssr_ok`; `aead` tells an AEAD method from
the others. -/
structure TlsEnv (σ ρ : Type*) where
  aead : Bool
  tunnelCipherClientEncrypt : σ → Bytes → σ × Bytes × Bool
  tunnelCipherClientDecrypt : ρ → Bytes → ρ × Bytes × Bool
  httpHeadersParse : Bytes → HttpHeaders
  overTlsServerDomain : Bytes
  overTlsPath : Bytes
  remotePort : ℕ

inductive TlsStage where
  | tlsConnecting
  | tlsWebsocketUpgrade
  | tlsStreaming
  deriving DecidableEq

/-- `struct udp_data_context` without the address of the source. -/
structure UdpDataContext where
  targetAddr : Socks5Address
  sendDeque : Deque Bytes
  recvDeque : Deque Bytes

/-- The part of `struct client_ctx` that a tunnel over TLS works on.  `incomingResult` is the result of
the last call on the incoming socket, an empty `secWebsocketKey` is a null pointer, and `masks` are the
masks of the frames that it sends. -/
structure TlsTunnel (σ ρ : Type*) where
  stage : TlsStage
  isTerminated : Bool
  incomingResult : ℤ
  eCtx : σ
  dCtx : ρ
  masks : ℕ → ℕ → UInt8
  framesSent : ℕ
  secWebsocketKey : Bytes
  targetAddressPkg : Bytes
  firstClientPkg : Bytes
  serverDeliveryCache : Bytes
  localWriteCache : Bytes
  tlsIsEof : Bool
  udpDataCtx : Option UdpDataContext

/-- What a callback sends: over TLS, to the incoming socket, or back to the UDP client. -/
inductive Sent where
  | tls (buf : Bytes)
  | incoming (buf : Bytes)
  | udp (buf : Bytes)
  deriving DecidableEq

section Callbacks

variable {σ ρ : Type*} (env : TlsEnv σ ρ)

/-- A plaintext that `tunnel_cipher_client_encrypt` comes back from: with an AEAD method it is one chunk,
and `aead_chunk_encrypt` asserts the length of a chunk. -/
def TlsEnv.Takes (buf : Bytes) : Prop := env.aead = true → buf.length ≤ 0x3FFF

instance (buf : Bytes) : Decidable (env.Takes buf) := inferInstanceAs (Decidable (_ → _))

/-- `tunnel_shutdown`. -/
def TlsTunnel.shutdown (t : TlsTunnel σ ρ) : TlsTunnel σ ρ := { t with isTerminated := true }

/-- Encrypt a buffer and put it into a frame; what the cipher returned is ignored here. -/
def sealFrame (masks : ℕ → ℕ → UInt8) (s : σ × ℕ) (buf : Bytes) : (σ × ℕ) × Bytes :=
  let r := env.tunnelCipherClientEncrypt s.1 buf
  ((r.1, s.2 + 1), clientFrame (masks s.2) r.2.1)

/-- `tunnel_cipher_client_encrypt` and `tls_cli_send_websocket_data`, where an error shuts the tunnel
down. -/
def encryptAndSend (t : TlsTunnel σ ρ) (buf : Bytes) : TlsTunnel σ ρ × List Sent :=
  if (env.tunnelCipherClientEncrypt t.eCtx buf).2.2 then
    let r := sealFrame env t.masks (t.eCtx, t.framesSent) buf
    ({ t with eCtx := r.1.1, framesSent := r.1.2 }, [.tls r.2])
  else ({ t with eCtx := (env.tunnelCipherClientEncrypt t.eCtx buf).1 }.shutdown, [])

/-! ## Connecting -/

/-- `websocket_generate_sec_websocket_accept`. -/
def websocketGenerateSecWebsocketAccept (secWebsocketKey : Bytes) : Option Bytes :=
  if secWebsocketKey = [] then none
  else some (base64 (sha1 (secWebsocketKey ++ ascii "258EAFA5-E914-47DA-95CA-C5AB0DC85B11")))

/-- `websocket_connect_response`, with which the server agrees. -/
def websocketConnectResponse (secWebsocketKey : Bytes) : Bytes :=
  ascii "HTTP/1.1 101 Switching Protocols\r\nUpgrade: websocket\r\nConnection: Upgrade\r\n" ++
  (ascii "Sec-WebSocket-Accept: " ++
    (websocketGenerateSecWebsocketAccept secWebsocketKey).getD [] ++ ascii "\r\n\r\n")

/-- The lines of `websocket_connect_request` and the fields that are put behind them. -/
def upgradeRequest (secWebsocketKey targetAddress : Bytes) (udpField : Bytes) : Bytes :=
  ascii "GET " ++ env.overTlsPath ++ ascii " HTTP/1.1\r\n" ++
  (ascii "Host: " ++ env.overTlsServerDomain ++ ascii ":" ++ decimal env.remotePort ++ ascii "\r\n") ++
  ascii "Connection: Upgrade\r\nUpgrade: websocket\r\nSec-WebSocket-Version: 13\r\n" ++
  (ascii "Sec-WebSocket-Key: " ++ secWebsocketKey ++ ascii "\r\n") ++
  (ascii "Target-Address: " ++ targetAddress ++ ascii "\r\n") ++
  udpField ++ ascii "\r\n"

/-- The field with the target of a UDP tunnel. -/
def udpFieldOf (targetAddr : Socks5Address) : Option Bytes :=
  match urlSafeBase64EncodeAlloc targetAddr.binary with
  | .out b64str => some (ascii "UDP: " ++ b64str ++ ascii "\r\n")
  | _ => none

/-- `tls_cli_on_connection_established`; `key` is the key that it makes, and the result is `none` when
the process is lost. -/
def tlsCliOnConnectionEstablished (key : Bytes) (t : TlsTunnel σ ρ) (status : ℤ) :
    Option (TlsTunnel σ ρ × List Sent) :=
  if status < 0 then some (t.shutdown, [])
  else if t.isTerminated then some (t, [])
  else
    match t.udpDataCtx with
    | none =>
        match stdBase64EncodeAlloc t.targetAddressPkg with
        | .out b64addr =>
            some ({ t with secWebsocketKey := key, stage := .tlsWebsocketUpgrade },
              [.tls (upgradeRequest env key b64addr [])])
        | _ => none
    | some u =>
        let targetAddress := u.sendDeque.front.getD t.targetAddressPkg
        let u' := { u with sendDeque := if u.sendDeque.front = none then u.sendDeque else u.sendDeque.popFront }
        match stdBase64EncodeAlloc targetAddress, udpFieldOf u.targetAddr with
        | .out b64addr, some udpField =>
            some ({ t with
              secWebsocketKey := key
              stage := .tlsWebsocketUpgrade
              udpDataCtx := some u' }, [.tls (upgradeRequest env key b64addr udpField)])
        | _, _ => none

/-! ## Receiving -/

/-- `tunnel_tls_do_launch_streaming`. -/
def tunnelTlsDoLaunchStreaming (t : TlsTunnel σ ρ) : TlsTunnel σ ρ × List Sent :=
  if t.incomingResult < 0 then (t.shutdown, [])
  else
    let r := encryptAndSend env { t with firstClientPkg := [] } t.firstClientPkg
    if r.1.isTerminated then r else ({ r.1 with stage := .tlsStreaming }, r.2)

/-- The queue of a UDP tunnel, packet by packet; the result of the encryption is not looked at. -/
def drainSendDeque (masks : ℕ → ℕ → UInt8) :
    ℕ → σ × ℕ → Deque Bytes → (σ × ℕ) × Deque Bytes × List Bytes
  | 0, s, d => (s, d, [])
  | fuel + 1, s, d =>
      match d.front with
      | none => (s, d, [])
      | some udpPkg =>
          let r := sealFrame env masks s udpPkg
          let q := drainSendDeque masks fuel r.1 d.popFront
          (q.1, q.2.1, r.2 :: q.2.2)

/-- The response does not agree to the upgrade. -/
def Rejected (t : TlsTunnel σ ρ) (data : Bytes) : Prop :=
  (env.httpHeadersParse data).status ≠ some (ascii "Switching Protocols") ∨
  (env.httpHeadersParse data).secWebsocketAccept = none ∨
  websocketGenerateSecWebsocketAccept t.secWebsocketKey = none ∨
  (env.httpHeadersParse data).parsedLen ≠ data.length ∨
  (env.httpHeadersParse data).secWebsocketAccept ≠
    websocketGenerateSecWebsocketAccept t.secWebsocketKey

instance (t : TlsTunnel σ ρ) (data : Bytes) : Decidable (Rejected env t data) :=
  inferInstanceAs (Decidable (_ ∨ _ ∨ _ ∨ _ ∨ _))

/-- What `tls_cli_on_data_received` does in the upgrade stage. -/
def onUpgradeResponse (t : TlsTunnel σ ρ) (data : Bytes) : TlsTunnel σ ρ × List Sent :=
  if Rejected env t data then (t.shutdown, [])
  else
    match t.udpDataCtx with
    | some u =>
        let r := drainSendDeque env t.masks (u.sendDeque.count + 1) (t.eCtx, t.framesSent) u.sendDeque
        ({ t with
          stage := .tlsStreaming
          eCtx := r.1.1
          framesSent := r.1.2
          udpDataCtx := some { u with sendDeque := r.2.1 } }, r.2.2.map .tls)
    | none => tunnelTlsDoLaunchStreaming env t

/-- The loop over the frames in `server_delivery_cache`. -/
def receiveLoop : ℕ → TlsTunnel σ ρ → TlsTunnel σ ρ
  | 0, t => t
  | fuel + 1, t =>
      let cache := t.serverDeliveryCache
      match websocketRetrievePayload cache ⟨WS_OPCODE_BINARY, false, false, 0, 0, 0⟩ with
      | (none, _) => t
      | (some payload, info) =>
          let t := { t with
            serverDeliveryCache := shortenedTo cache info.frameSize (subSize cache.length info.frameSize) }
          if info.fin = true ∧ info.masking = false ∧ info.opcode = WS_OPCODE_CLOSE then
            { t with tlsIsEof := true }
          else
            -- an error of the decryption is not looked at
            let r := env.tunnelCipherClientDecrypt t.dCtx payload
            receiveLoop fuel { t with
              dCtx := r.1
              udpDataCtx := t.udpDataCtx.map fun u => { u with recvDeque := u.recvDeque.pushBack r.2.1 }
              localWriteCache := t.localWriteCache ++ r.2.1 }

/-- The datagrams in `recv_deque`, which go back to the UDP client one by one. -/
def drainRecvDeque : ℕ → Deque Bytes → Deque Bytes × List Bytes
  | 0, d => (d, [])
  | fuel + 1, d =>
      match d.front with
      | none => (d, [])
      | some udpPkg =>
          let q := drainRecvDeque fuel d.popFront
          (q.1, udpPkg :: q.2)

/-- What `tls_cli_on_data_received` does in the streaming stage. -/
def onStreamingData (t : TlsTunnel σ ρ) (data : Bytes) : TlsTunnel σ ρ × List Sent :=
  let t := { t with serverDeliveryCache := t.serverDeliveryCache ++ data }
  let t := receiveLoop env (t.serverDeliveryCache.length + 1) t
  if t.localWriteCache = [] ∧ t.tlsIsEof = true then (t.shutdown, [])
  else
    match t.udpDataCtx with
    | some u =>
        let r := drainRecvDeque (u.recvDeque.count + 1) u.recvDeque
        ({ t with udpDataCtx := some { u with recvDeque := r.1 }, localWriteCache := [] },
          r.2.map .udp)
    | none =>
        if t.localWriteCache = [] then (t, [])
        else ({ t with localWriteCache := [] }, [.incoming t.localWriteCache])

/-- `tls_cli_on_data_received`. -/
def tlsCliOnDataReceived (t : TlsTunnel σ ρ) (status : ℤ) (data : Bytes) :
    TlsTunnel σ ρ × List Sent :=
  if t.isTerminated then (t, [])
  else if status < 0 then (t.shutdown, [])
  else
    match t.stage with
    | .tlsWebsocketUpgrade => onUpgradeResponse env t data
    | .tlsStreaming => onStreamingData env t data
    | .tlsConnecting => (t, [])  -- nothing is read before the connection stands

/-! ## Plaintexts that are too long

The callbacks above say what happens as long as the cipher comes back.  A process whose
`aead_chunk_encrypt` is handed too long a plaintext is lost. -/

/-- What waits for the upgrade to be accepted: the queue of a UDP tunnel, or the first package. -/
def TlsTunnel.waiting (t : TlsTunnel σ ρ) : List Bytes :=
  match t.udpDataCtx with
  | some u => u.sendDeque.toList
  | none => [t.firstClientPkg]

/-- What `tls_cli_on_data_received` hands to the cipher. -/
def upgradePlaintexts (t : TlsTunnel σ ρ) (status : ℤ) (data : Bytes) : List Bytes :=
  if t.isTerminated = true ∨ status < 0 ∨ t.stage ≠ .tlsWebsocketUpgrade ∨ Rejected env t data ∨
      t.udpDataCtx.isNone = true ∧ t.incomingResult < 0 then []
  else t.waiting

/-- `tls_cli_on_data_received`, without a result when the process is lost. -/
def tlsCliOnDataReceivedChecked (t : TlsTunnel σ ρ) (status : ℤ) (data : Bytes) :
    Option (TlsTunnel σ ρ × List Sent) :=
  if ∀ p ∈ upgradePlaintexts env t status data, env.Takes p then
    some (tlsCliOnDataReceived env t status data)
  else none

end Callbacks

end Client
end SsrNative
