import SsrNative.Crypto
import SsrNative.Lib.Framing

/-!
# Tls12Ticket — the tls1.2_ticket obfuscation

The four directions of `obfs/tls1.2_ticket.c`: what the client and the server emit, and the two
decoders with their handshake phases.  `handshake_status` is a C `int` used both as a bit set and,
as `-1`, as the mark of a connection that was switched to pass-through; it is a `BitVec 32` here.

Random choices and the clock are arguments (`ClientDraws`, `ServerDraws`), so every statement over
all draws covers every random outcome.
-/

namespace SsrNative
namespace Obfs
namespace Tls12TicketAuth

open Bytes
open Lib.Framing

/-! ## Data -/

/-- `struct tls12_ticket_auth_global_data`: the client id that one client process keeps. -/
structure GlobalData where
  localClientId : Bytes
  localClientId_length : localClientId.length = 32

attribute [simp] GlobalData.localClientId_length

/-- The part of `struct server_info_t` that this plugin reads. -/
structure ServerInfo where
  key : Bytes
  host : Bytes
  extraParam : Bytes
  gData : GlobalData

/-- `struct tls12_ticket_auth_local_data`. -/
structure LocalData where
  handshakeStatus : BitVec 32
  recvBuffer : Bytes
  clientId : Bytes
  dataSentBuffer : List Bytes
  sendId : ℕ
  fastauth : Bool
deriving DecidableEq

/-- `tls12_ticket_auth_local_data_init`. -/
def localDataInit : LocalData := ⟨0, [], [], [], 0, false⟩

def SSR_BUFF_SIZE : ℕ := 2048
def OBFS_HMAC_SHA1_LEN : ℕ := 10

def tlsVersion : Bytes := [0x03, 0x03]

section Codec

variable (H : Mac 20) (info : ServerInfo)

def tls12Sha1Hmac (clientId msg : Bytes) : Bytes := H.run msg (info.key ++ clientId)

@[simp] theorem tls12Sha1Hmac_length (clientId msg : Bytes) :
    (tls12Sha1Hmac H info clientId msg).length = 20 := by
  simp [tls12Sha1Hmac]

/-- The first ten bytes of the digest, the part that goes on the wire. -/
def tag (clientId msg : Bytes) : Bytes :=
  (tls12Sha1Hmac H info clientId msg).take OBFS_HMAC_SHA1_LEN

@[simp] theorem tag_length (clientId msg : Bytes) : (tag H info clientId msg).length = 10 := by
  simp [tag, OBFS_HMAC_SHA1_LEN]

/-! ## Pieces of the messages -/

/-- `tls12_ticket_auth_sni`. -/
def sni (url : Bytes) : Bytes :=
  let len0 := 1 + 2 + url.length
  [0x00, 0x00] ++ be16 (len0 + 2) ++ be16 len0 ++ [0x00] ++ be16 url.length ++ url

/-- `tls12_ticket_pack_auth_data`: clock, 18 random bytes and a tag over these 22 bytes. -/
def packAuthData (clientId : Bytes) (time : ℕ) (rnd : ℕ → UInt8) : Bytes :=
  let outdata := be32 time ++ randBytes rnd 18
  outdata ++ tag H info clientId outdata

@[simp] theorem packAuthData_length (clientId : Bytes) (time : ℕ) (rnd : ℕ → UInt8) :
    (packAuthData H info clientId time rnd).length = 32 := by
  simp [packAuthData]

/-- `_pack_data`: one application-data record. -/
def packData (data : Bytes) : Bytes := [0x17, 0x03, 0x03] ++ be16 data.length ++ data

@[simp] theorem packData_length (data : Bytes) : (packData data).length = data.length + 5 := by
  simp [packData]; omega

/-! ## Client to server: encoding -/

/-- The random choices and the clock reading of one call of `client_encode`.  `rand_integer` takes the
absolute value of an `int`, which leaves the least one negative; as the number of a host it is a `size_t`. -/
structure ClientDraws where
  time : ℕ
  authBytes : ℕ → UInt8
  hostPick : ℕ
  ticketPick : ℤ
  ticketBytes : ℕ → UInt8
  finishBytes : ℕ → UInt8
  split : ℕ → ℕ

/-- The names of a comma-separated list. -/
def splitHosts : Bytes → List Bytes
  | [] => [[]]
  | c :: cs =>
      match splitHosts cs with
      | [] => [[]]
      | h :: hs => if c = 0x2c then [] :: h :: hs else (c :: h) :: hs

/-- The hosts that a ClientHello may name. -/
def phost : List Bytes :=
  splitHosts (cString (if (cString info.extraParam).length > 0 then info.extraParam else info.host))

/-- The host the ClientHello names. -/
def chosenHost (pick : ℕ) : Bytes := (phost info).getD (pick % (phost info).length) []

def ticketSize (d : ClientDraws) : ℤ := (32 + d.ticketPick.tmod (196 - 32)) * 2

def tlsData0 : Bytes :=
  [0x00, 0x1c, 0xc0, 0x2b, 0xc0, 0x2f, 0xcc, 0xa9, 0xcc, 0xa8, 0xcc, 0x14, 0xcc, 0x13, 0xc0, 0x0a,
    0xc0, 0x14, 0xc0, 0x09, 0xc0, 0x13, 0x00, 0x9c, 0x00, 0x35, 0x00, 0x2f, 0x00, 0x0a, 0x01, 0x00]

def tlsData1 : Bytes := [0xff, 0x01, 0x00, 0x01, 0x00]

def tlsData2 : Bytes := [0x00, 0x17, 0x00, 0x00, 0x00, 0x23]

def tlsData3 : Bytes :=
  [0x00, 0x0d, 0x00, 0x16, 0x00, 0x14, 0x06, 0x01, 0x06, 0x03, 0x05, 0x01, 0x05, 0x03, 0x04, 0x01,
    0x04, 0x03, 0x03, 0x01, 0x03, 0x03, 0x02, 0x01, 0x02, 0x03, 0x00, 0x05, 0x00, 0x05, 0x01, 0x00,
    0x00, 0x00, 0x00, 0x00, 0x12, 0x00, 0x00, 0x75, 0x50, 0x00, 0x00, 0x00, 0x0b, 0x00, 0x02, 0x01,
    0x00, 0x00, 0x0a, 0x00, 0x06, 0x00, 0x04, 0x00, 0x17, 0x00, 0x18]

/-- `ext_buf` of the ClientHello, before its length is put in front. -/
def helloExtensions (d : ClientDraws) : Bytes :=
  tlsData1 ++ sni (chosenHost info d.hostPick) ++ tlsData2 ++ be16 (ticketSize d).toNat ++
    randBytes d.ticketBytes (ticketSize d).toNat ++ tlsData3

/-- The ClientHello in its arrays: `phost` takes 128 names, and no ticket is allocated with a size below
zero. -/
structure HelloRoom (d : ClientDraws) : Prop where
  hosts : (phost info).length ≤ 128
  ticket : 0 ≤ ticketSize d

instance (d : ClientDraws) : Decidable (HelloRoom info d) :=
  decidable_of_iff ((phost info).length ≤ 128 ∧ 0 ≤ ticketSize d) ⟨fun h => ⟨h.1, h.2⟩, fun h => ⟨h.1, h.2⟩⟩

/-- The ClientHello after the client version. -/
def helloBody (d : ClientDraws) : Bytes :=
  packAuthData H info info.gData.localClientId d.time d.authBytes ++ [32] ++
    info.gData.localClientId ++ tlsData0 ++ be16 (helloExtensions info d).length ++
    helloExtensions info d

/-- The last block of `client_encode`: the ClientHello with its headers. -/
def clientHello (d : ClientDraws) : Bytes :=
  let result := tlsVersion ++ helloBody H info d
  let result := [0x01, 0x00] ++ be16 result.length ++ result
  [0x16, 0x03, 0x01] ++ be16 result.length ++ result

/-- ChangeCipherSpec and Finished as the client sends them (`finish_len_set` has one entry). -/
def clientFinish (d : ClientDraws) : Bytes :=
  let finishLen := 32
  let hmacData := [0x14, 0x03, 0x03, 0x00, 0x01, 0x01, 0x16, 0x03, 0x03] ++ be16 finishLen ++
    randBytes d.finishBytes (finishLen - 10)
  hmacData ++ tag H info info.gData.localClientId hmacData

/-- One splitting loop: as long as more than `limit` bytes are left, cut off `size i` of them (all
of them if there are fewer).  Returns the pieces, what is left, and the next random index. -/
def splitLoop (limit : ℕ) (size : ℕ → ℕ) : ℕ → ℕ → Bytes → List Bytes × Bytes × ℕ
  | 0, i, data => ([], data, i)
  | fuel + 1, i, data =>
      if limit < data.length then
        let len := min (size i) data.length
        let r := splitLoop limit size fuel (i + 1) (data.drop len)
        (data.take len :: r.1, r.2)
      else ([], data, i)

/-- The pieces into which the established client cuts its data. -/
def clientPieces (sendId : ℕ) (split : ℕ → ℕ) (data : Bytes) : List Bytes :=
  let r := if sendId ≤ 4 then splitLoop 256 (fun i => split i % 512 + 64) data.length 0 data
    else ([], data, 0)
  let q := splitLoop SSR_BUFF_SIZE (fun i => split i % 4096 + 100) r.2.1.length r.2.2 r.2.1
  r.1 ++ q.1 ++ (if 0 < q.2.1.length then [q.2.1] else [])

/-- `tls12_ticket_auth_client_encode`, in arrays that are large enough. -/
def clientEncode (d : ClientDraws) (l : LocalData) (buf : Bytes) : LocalData × Bytes :=
  if l.handshakeStatus = -1 then (l, buf)
  else if l.handshakeStatus &&& 4 = 4 then
    (l, ((clientPieces l.sendId d.split buf).map packData).flatten)
  else
    let l := if 0 < buf.length then { l with dataSentBuffer := l.dataSentBuffer ++ [packData buf] }
      else l
    if l.handshakeStatus &&& 3 ≠ 0 then
      let l :=
        if l.handshakeStatus &&& 2 = 0 then
          { l with
            dataSentBuffer := clientFinish H info d :: l.dataSentBuffer
            handshakeStatus := l.handshakeStatus ||| 2 }
        else l
      let r : LocalData × Bytes :=
        if buf.length = 0 ∨ l.fastauth = true then
          ({ l with dataSentBuffer := [] }, l.dataSentBuffer.flatten)
        else (l, [])
      (if buf.length = 0 then { r.1 with handshakeStatus := r.1.handshakeStatus ||| 4 } else r.1, r.2)
    else
      ({ l with handshakeStatus := l.handshakeStatus ||| 1 }, clientHello H info d)

/-- The same in its arrays: a ClientHello that leaves them is not emitted. -/
def clientEncodeChecked (d : ClientDraws) (l : LocalData) (buf : Bytes) : Option (LocalData × Bytes) :=
  if l.handshakeStatus &&& 4 ≠ 4 ∧ l.handshakeStatus &&& 3 = 0 ∧ ¬ HelloRoom info d then none
  else some (clientEncode H info d l buf)

/-! ## Server to client: encoding -/

/-- The random choices and the clock reading of one call of `server_encode`. -/
structure ServerDraws where
  time : ℕ
  authBytes : ℕ → UInt8
  ticketGate : ℕ
  ticketPick : ℕ
  ticketBytes : ℕ → UInt8
  finishPick : ℕ
  finishBytes : ℕ → UInt8
  split : ℕ → ℕ

/-- The pieces into which the server cuts its data. -/
def serverPieces (split : ℕ → ℕ) (data : Bytes) : List Bytes :=
  let q := splitLoop SSR_BUFF_SIZE (fun i => split i % 65536 % 4096 + 100) data.length 0 data
  q.1 ++ (if 0 < q.2.1.length then [q.2.1] else [])

/-- ServerHello: the first record of the server's answer. -/
def serverHelloRecord (clientId : Bytes) (d : ServerDraws) : Bytes :=
  let chunk1 := tlsVersion ++ packAuthData H info clientId d.time d.authBytes ++ [0x20] ++
    clientId ++ [0xc0, 0x2f, 0x00, 0x00, 0x05, 0xff, 0x01, 0x00, 0x01, 0x00]
  let chunk2 := [0x02, 0x00] ++ be16 chunk1.length ++ chunk1
  [0x16] ++ tlsVersion ++ be16 chunk2.length ++ chunk2

/-- The optional new session ticket. -/
def serverTicketRecord (d : ServerDraws) : Bytes :=
  if d.ticketGate % 8 < 1 then
    let size := d.ticketPick % 65536 % 164 * 2 + 64
    [0x16] ++ tlsVersion ++ be16 (size + 4) ++ [0x04, 0x00] ++ be16 size ++
      randBytes d.ticketBytes size
  else []

/-- Everything of the server's answer that its final tag covers. -/
def serverHelloData (clientId : Bytes) (d : ServerDraws) : Bytes :=
  let finishLen := d.finishPick % 8 + 32
  serverHelloRecord H info clientId d ++ serverTicketRecord d ++
    ([0x14] ++ tlsVersion ++ [0x00, 0x01, 0x01]) ++
    ([0x16] ++ tlsVersion ++ be16 finishLen ++ randBytes d.finishBytes (finishLen - 10))

def serverHello (clientId : Bytes) (d : ServerDraws) : Bytes :=
  serverHelloData H info clientId d ++ tag H info clientId (serverHelloData H info clientId d)

def serverRecords (d : ServerDraws) (buf : Bytes) : Bytes :=
  ((serverPieces d.split buf).map packData).flatten

def serverEncode (d : ServerDraws) (l : LocalData) (buf : Bytes) : LocalData × Bytes :=
  if l.handshakeStatus = -1 then (l, buf)
  else if l.handshakeStatus &&& 8 = 8 then (l, serverRecords d buf)
  else
    let l := { l with handshakeStatus := l.handshakeStatus ||| 8 }
    let data := serverHello H info l.clientId d
    -- The recursive call for a non-empty `buf` sees the status with bit 8 set.
    if 0 < buf.length then
      (l, data ++ (if l.handshakeStatus = -1 then buf else serverRecords d buf))
    else (l, data)

/-! ## Server to client: decoding -/

/-- One pass of the record loop of `client_decode`. -/
def clientRecordStep (s : Unit) (recv : Bytes) : Peel Unit UInt8 Unit :=
  if 5 < recv.length then
    if byteAt recv 0 ≠ 0x17 then .halt s ()
    else if rdBe16 recv 3 + 5 > recv.length then .more s
    else .took s (window recv 5 (rdBe16 recv 3)) (5 + rdBe16 recv 3)
  else .more s

/-- The walk over handshake records; `none` is an early exit that hands back the raw input. -/
def walkRecords (recv : Bytes) : ℕ → ℕ → Option ℕ
  | 0, headerlength => some headerlength
  | fuel + 1, headerlength =>
      if headerlength < recv.length ∧
          (byteAt recv headerlength = 0x14 ∨ byteAt recv headerlength = 0x16) then
        if recv.length ≤ headerlength + 5 then none
        else
          let next := headerlength + 5 + rdBe16 recv (headerlength + 3)
          if recv.length < next then none else walkRecords recv fuel next
      else some headerlength

/-- `client_decode` with bit 8 set: only data records are expected. -/
def clientDecodeStreaming (l : LocalData) (buf : Bytes) : LocalData × Option Bytes :=
  let r := feed clientRecordStep ((), l.recvBuffer) buf
  ({ l with recvBuffer := r.1.2 }, if r.2.2 = none then some r.2.1 else none)

/-- `client_decode`; the last component is `*needsendback`. -/
def clientDecode (l : LocalData) (buf : Bytes) : LocalData × Option Bytes × Bool :=
  if l.handshakeStatus &&& 8 = 8 then
    let r := clientDecodeStreaming l buf
    (r.1, r.2, false)
  else
    let recv := l.recvBuffer ++ buf
    let l := { l with recvBuffer := recv }
    let clientId := info.gData.localClientId
    let accept (headerlength : ℕ) : LocalData × Option Bytes × Bool :=
      let r := clientDecodeStreaming
        { l with
          recvBuffer := shortenedTo recv headerlength (subSize recv.length headerlength)
          handshakeStatus := l.handshakeStatus ||| 8 } []
      (r.1, r.2, true)
    if recv.length < 11 + 32 + 1 + 32 then (l, some [], false)
    else if window recv 33 10 ≠ tag H info clientId (window recv 11 22) then (l, none, false)
    else if window recv (recv.length - 10) 10 = tag H info clientId (recv.take (recv.length - 10)) then
      accept recv.length
    else
      match walkRecords recv recv.length 0 with
      | none => (l, some buf, false)
      | some headerlength =>
          -- For fewer than ten bytes the source reads outside the buffer; the model gives up.
          if headerlength < 10 then (l, none, false)
          else if window recv (headerlength - 10) 10 ≠
              tag H info clientId (recv.take (headerlength - 10)) then (l, none, false)
          else accept headerlength

/-! ## Client to server: decoding -/

/-- What `server_decode` hands back: its buffer (`none` is `NULL`) and the two flags. -/
structure Decoded where
  out : Option Bytes
  needDecrypt : Bool
  needFeedback : Bool
deriving DecidableEq

/-- The buffer full of `E` that answers a broken handshake. -/
def decodeErrorBuffer : Bytes := List.replicate SSR_BUFF_SIZE 0x45

/-- `decode_error_return`: the connection is switched to pass-through. -/
def decodeErrorReturn (l : LocalData) : LocalData × Decoded :=
  ({ l with handshakeStatus := -1 }, ⟨some decodeErrorBuffer, false, false⟩)

/-- One pass of the record loop of `server_decode`. -/
def serverRecordStep (s : Unit) (recv : Bytes) : Peel Unit UInt8 Unit :=
  if 5 < recv.length then
    if window recv 0 3 ≠ [0x17, 0x03, 0x03] then .halt s ()
    else if recv.length < rdBe16 recv 3 + 5 then .more s
    else .took s (window recv 5 (rdBe16 recv 3)) (rdBe16 recv 3 + 5)
  else .more s

/-- `server_decode` with bit 4 set: only data records are expected. -/
def serverDecodeStreaming (l : LocalData) (buf : Bytes) : LocalData × Decoded :=
  let r := feed serverRecordStep ((), l.recvBuffer) buf
  ({ l with recvBuffer := r.1.2 }, ⟨if r.2.2 = none then some r.2.1 else none, true, false⟩)

/-- `server_decode` with bit 1 set: ChangeCipherSpec and Finished are expected. -/
def serverDecodeFinish (l : LocalData) (buf : Bytes) : LocalData × Decoded :=
  let recv := l.recvBuffer ++ buf
  let l := { l with recvBuffer := recv }
  if recv.length < 11 then (l, ⟨none, true, false⟩)
  else if window recv 0 6 ≠ [0x14] ++ tlsVersion ++ [0x00, 0x01, 0x01] then (l, ⟨none, true, false⟩)
  else if window recv 6 4 ≠ [0x16] ++ tlsVersion ++ [0x00] then (l, ⟨none, true, false⟩)
  else
    let verifyLen := rdBe16 recv 9 + 1
    if recv.length < verifyLen + 10 then (l, ⟨some [], false, false⟩)
    else if tag H info l.clientId (recv.take verifyLen) ≠ window recv verifyLen 10 then
      (l, ⟨none, true, false⟩)
    else
      let l := { l with
        recvBuffer := recv.drop (verifyLen + OBFS_HMAC_SHA1_LEN)
        handshakeStatus := l.handshakeStatus ||| 4 }
      if l.handshakeStatus = -1 then (l, ⟨some [], true, false⟩) else serverDecodeStreaming l []

/-- The checks on a complete ClientHello.  `bufCopy` is the record without its five header bytes.
Returns the client id as the checks leave it, which is the session id as soon as that was read, and
whether all checks passed. -/
def checkClientHello (clientId bufCopy : Bytes) : Bytes × Bool :=
  if window bufCopy 0 2 ≠ [0x01, 0x00] then (clientId, false)
  else
    let bufCopy := shortenedTo bufCopy 2 (subSize bufCopy.length 2)
    if rdBe16 bufCopy 0 ≠ subSize bufCopy.length 2 then (clientId, false)
    else
      let bufCopy := shortenedTo bufCopy 2 (subSize bufCopy.length 2)
      if window bufCopy 0 2 ≠ tlsVersion then (clientId, false)
      else
        let bufCopy := shortenedTo bufCopy 2 (subSize bufCopy.length 2)
        let verifyid := window bufCopy 0 32
        let bufCopy := shortenedTo bufCopy 32 (subSize bufCopy.length 32)
        let sessionidLen := (byteAt bufCopy 0).toNat
        if sessionidLen < 32 then (clientId, false)
        else
          let sessionid := window bufCopy 1 sessionidLen
          (sessionid, tag H info sessionid (verifyid.take 22) == window verifyid 22 10)

/-- `server_decode` in the initial state: a ClientHello is expected. -/
def serverDecodeHello (l : LocalData) (buf : Bytes) : LocalData × Decoded :=
  let recv := l.recvBuffer ++ buf
  let l := { l with recvBuffer := recv }
  if recv.length < 3 then (l, ⟨some [], false, false⟩)
  else if window recv 0 3 ≠ [0x16, 0x03, 0x01] then decodeErrorReturn l
  else
    let bufCopy := shortenedTo recv 3 (subSize recv.length 3)
    let headerLen := rdBe16 bufCopy 0
    -- With three or four bytes the subtraction wraps around and this test passes.
    if headerLen > subSize bufCopy.length 2 then (l, ⟨some [], false, false⟩)
    else
      let r := checkClientHello H info l.clientId (shortenedTo bufCopy 2 headerLen)
      let l := { l with
        recvBuffer := shortenedTo recv (headerLen + 5) (subSize recv.length (headerLen + 5))
        handshakeStatus := 1
        clientId := r.1 }
      if r.2 = false then decodeErrorReturn l
      else if 11 ≤ l.recvBuffer.length then
        let q := serverDecodeFinish H info l []
        (q.1, ⟨q.2.out, true, true⟩)
      else (l, ⟨some [], false, true⟩)

def serverDecode (l : LocalData) (buf : Bytes) : LocalData × Decoded :=
  if l.handshakeStatus = -1 then (l, ⟨some buf, true, false⟩)
  else if l.handshakeStatus &&& 4 = 4 then serverDecodeStreaming l buf
  else if l.handshakeStatus &&& 1 = 1 then serverDecodeFinish H info l buf
  else serverDecodeHello H info l buf

end Codec

/-! ## A sample connection -/

/-- A client that names the host `a.b` and has the id `0, 1, …, 31`. -/
def sampleInfo : ServerInfo :=
  { key := [0x6b, 0x65, 0x79]
    host := [0x61, 0x2e, 0x62]
    extraParam := []
    gData := ⟨(List.range 32).map UInt8.ofNat, by simp⟩ }

def sampleDraws : ClientDraws :=
  { time := 1500000000
    authBytes := UInt8.ofNat
    hostPick := 0
    ticketPick := 0
    ticketBytes := UInt8.ofNat
    finishBytes := UInt8.ofNat
    split := fun _ => 0 }

def sampleServerDraws : ServerDraws :=
  { time := 1500000000
    authBytes := UInt8.ofNat
    ticketGate := 1
    ticketPick := 0
    ticketBytes := UInt8.ofNat
    finishPick := 0
    finishBytes := UInt8.ofNat
    split := fun _ => 0 }

end Tls12TicketAuth
end Obfs
end SsrNative
