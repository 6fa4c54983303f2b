import SsrNative.Bytes
import SsrNative.Lib.Search
import SsrNative.Lib.Segments

/-!
# HttpSimple — the http_simple, http_post and http_mix obfuscations

The first payload of each direction goes out behind an HTTP header, of which the client's carries a
part of the payload percent-encoded in its path.  Random choices are arguments (`RequestDraws`).
-/

namespace SsrNative
namespace Obfs
namespace HttpSimple

open Bytes
open Lib.Search
open Lib.Segments

/-! ## Data -/

/-- `struct http_simple_local_data`; `encode_buffer` is scratch space of one call. -/
structure LocalData where
  hasSentHeader : Bool
  hasRecvHeader : Bool
  recvBuffer : Bytes

def localDataInit : LocalData := ⟨false, false, []⟩

/-- The part of `struct server_info_t` that this plugin reads. -/
structure ServerInfo where
  host : Bytes
  port : ℕ
  headLen : ℕ
  extraParam : Bytes

def SSR_BUFF_SIZE : ℕ := 2048

def crlf : Bytes := ascii "\r\n"

def crlfcrlf : Bytes := ascii "\r\n\r\n"

@[simp] theorem crlfcrlf_length : crlfcrlf.length = 4 := by decide

/-- `strstr`: the search ends at the first NUL. -/
def strstr (hay needle : Bytes) : Option ℕ := findSub needle (cString hay)

/-! ## Percent encoding -/

/-- `http_simple_hex`. -/
def httpSimpleHex (c : UInt8) : UInt8 := if c < 10 then c + 48 else c - 10 + 97

def tolower (c : UInt8) : UInt8 := if 65 ≤ c ∧ c ≤ 90 then c + 32 else c

def fromHex (c : UInt8) : UInt8 := if 48 ≤ c ∧ c ≤ 57 then c - 48 else tolower c - 97 + 10

/-- `'%'`. -/
def percent : UInt8 := 0x25

def encodeHead (data : Bytes) : Bytes :=
  data.flatMap fun (c : UInt8) => [percent, httpSimpleHex (c >>> 4), httpSimpleHex (c &&& 0xF)]

/-- The loop of `get_data_from_http_header` from the `'%'` at `i` on. -/
def decodeHead (m : Bytes) : ℕ → ℕ → Bytes
  | 0, _ => []
  | fuel + 1, i =>
      (fromHex (byteAt m (i + 1)) <<< 4 ||| fromHex (byteAt m (i + 2))) ::
        if byteAt m (i + 3) = percent then decodeHead m fuel (i + 3) else []

def getDataFromHttpHeader (m : Bytes) : Bytes :=
  match strstr m [percent] with
  | some i => decodeHead m m.length i
  | none => []

/-! ## The client's header -/

def userAgents : List String :=
  ["Mozilla/5.0 (Windows NT 6.3; WOW64; rv:40.0) Gecko/20100101 Firefox/40.0",
    "Mozilla/5.0 (Windows NT 6.3; WOW64; rv:40.0) Gecko/20100101 Firefox/44.0",
    "Mozilla/5.0 (Windows NT 6.1) AppleWebKit/537.36 (KHTML, like Gecko) Chrome/41.0.2228.0 Safari/537.36",
    "Mozilla/5.0 (X11; Linux x86_64) AppleWebKit/535.11 (KHTML, like Gecko) Ubuntu/11.10 Chromium/27.0.1453.93 Chrome/27.0.1453.93 Safari/537.36",
    "Mozilla/5.0 (X11; Ubuntu; Linux x86_64; rv:35.0) Gecko/20100101 Firefox/35.0",
    "Mozilla/5.0 (compatible; WOW64; MSIE 10.0; Windows NT 6.2)",
    "Mozilla/5.0 (Windows; U; Windows NT 6.1; en-US) AppleWebKit/533.20.25 (KHTML, like Gecko) Version/5.0.4 Safari/533.20.27",
    "Mozilla/4.0 (compatible; MSIE 7.0; Windows NT 6.3; Trident/7.0; .NET4.0E; .NET4.0C)",
    "Mozilla/5.0 (Windows NT 6.3; Trident/7.0; rv:11.0) like Gecko",
    "Mozilla/5.0 (Linux; Android 4.4; Nexus 5 Build/BuildID) AppleWebKit/537.36 (KHTML, like Gecko) Version/4.0 Chrome/30.0.0.0 Mobile Safari/537.36",
    "Mozilla/5.0 (iPad; CPU OS 5_0 like Mac OS X) AppleWebKit/534.46 (KHTML, like Gecko) Version/5.1 Mobile/9A334 Safari/7534.48.3",
    "Mozilla/5.0 (iPhone; CPU iPhone OS 5_0 like Mac OS X) AppleWebKit/534.46 (KHTML, like Gecko) Version/5.1 Mobile/9A334 Safari/7534.48.3"]

/-- `request_path`, the texts before and after the encoded data. -/
def requestPath : List (String × String) :=
  [("", ""), ("login.php?redir=", ""), ("register.php?code=", ""), ("?keyword=", ""),
    ("search?src=typd&q=", "&lang=en"), ("s?ie=utf-8&f=8&rsv_bp=1&rsv_idx=1&ch=&bar=&wd=", "&rn="),
    ("post.php?id=", "&goto=view.php")]

/-- The random choices of one call; `userAgent` is the global `g_useragent_index`. -/
structure RequestDraws where
  headExt : ℕ
  hostPick : ℕ
  pathPick : ℕ
  userAgent : Fin 12
  boundary : ℕ → ℕ
  mixRate : ℕ
  mixPick : ℕ

def boundaryChars : Bytes :=
  ascii "ABCDEFGHIJKLMNOPQRSTUVWXYZabcdefghijklmnopqrstuvwxyz0123456789"

def boundary (draw : ℕ → ℕ) : Bytes :=
  (List.range 32).map fun i => byteAt boundaryChars (draw i % boundaryChars.length)

def headSize (info : ServerInfo) (d : RequestDraws) (buf : Bytes) : ℕ :=
  min (info.headLen + d.headExt % 64) buf.length

/-- `hosts`: `strncpy` from the obfuscation's parameter, or from the host when there is none. -/
def hostsText (info : ServerInfo) : Bytes :=
  (cString (if cString info.extraParam = [] then info.host else info.extraParam)).take 1023

/-- The names of the list, as `phost` points to them. -/
def splitHosts : Bytes → List Bytes
  | [] => [[]]
  | c :: s =>
      if c = 0x2c then [] :: splitHosts s
      else
        match splitHosts s with
        | [] => [[c]]
        | h :: hs => (c :: h) :: hs

/-- The text behind `'#'`: `\\` is a backslash, `\n` and a line feed are a line end, and any other
escaped character keeps its backslash.  The flag is `trans_char`. -/
def unescapeBody : Bool → Bytes → Bytes
  | _, [] => []
  | true, c :: s =>
      (if c = 0x5c then [c] else if c = 0x6e then crlf else [0x5c, c]) ++ unescapeBody false s
  | false, c :: s =>
      if c = 0x5c then unescapeBody true s
      else (if c = 0x0a then [0x0d, c] else [c]) ++ unescapeBody false s

def hostNames (info : ServerInfo) : List Bytes :=
  splitHosts ((hostsText info).takeWhile (· != 0x23))

def bodyBuffer (info : ServerInfo) : Option Bytes :=
  match (hostsText info).dropWhile (· != 0x23) with
  | [] => none
  | _ :: body => some (unescapeBody false body)

def hostport (info : ServerInfo) (d : RequestDraws) : Bytes :=
  let names := hostNames info
  let name := names.getD (d.hostPick % names.length) []
  if info.port = 80 then name else name ++ ascii ":" ++ decimal info.port

/-- The texts around the encoded data in the path. -/
def pathAround (d : RequestDraws) : Bytes × Bytes :=
  let pair := requestPath.getD (d.pathPick % requestPath.length) ("", "")
  (ascii pair.1, ascii pair.2)

def fakeRequestData (d : RequestDraws) (encoded : Bytes) : Bytes :=
  (pathAround d).1 ++ (encoded ++ (pathAround d).2)

/-- The header lines behind `Host` when the parameter has no body. -/
def defaultFields (d : RequestDraws) (extra : Bytes) : Bytes :=
  ascii "User-Agent: " ++ ascii (userAgents.getD d.userAgent "") ++
    ascii "\r\nAccept: text/html,application/xhtml+xml,application/xml;q=0.9,*/*;q=0.8\r\nAccept-Language: en-US,en;q=0.8\r\nAccept-Encoding: gzip, deflate\r\n" ++
    extra ++ ascii "DNT: 1\r\nConnection: keep-alive"

def requestFields (info : ServerInfo) (d : RequestDraws) (extra : Bytes) : Bytes :=
  match bodyBuffer info with
  | some body => body
  | none => defaultFields d extra

/-- The common body of the two encoders.  `fmtHost` and `fmtHead` say what `sprintf` or `snprintf`
keeps of the host and of the header. -/
def requestHeader (verb extra : Bytes) (fmtHost fmtHead : Bytes → Bytes) (info : ServerInfo)
    (d : RequestDraws) (buf : Bytes) : Bytes :=
  fmtHead
    (verb ++ (fakeRequestData d (encodeHead (buf.take (headSize info d buf))) ++
      (ascii " HTTP/1.1\r\nHost: " ++ (fmtHost (hostport info d) ++ (crlf ++
        (requestFields info d extra ++ crlfcrlf))))))

def getHeader (info : ServerInfo) (d : RequestDraws) (buf : Bytes) : Bytes :=
  requestHeader (ascii "GET /") [] id id info d buf

/-- The line that only `http_post` has. -/
def contentType (d : RequestDraws) : Bytes :=
  ascii "Content-Type: multipart/form-data; boundary=" ++ boundary d.boundary ++ crlf

/-- `http_post` writes with `snprintf`, into 128 and into `SSR_BUFF_SIZE` bytes. -/
def postHeader (info : ServerInfo) (d : RequestDraws) (buf : Bytes) : Bytes :=
  requestHeader (ascii "POST /") (contentType d) (List.take 127) (List.take (SSR_BUFF_SIZE - 1))
    info d buf

def encodeBehind (header : ServerInfo → RequestDraws → Bytes → Bytes) (info : ServerInfo)
    (d : RequestDraws) (l : LocalData) (buf : Bytes) : LocalData × Bytes :=
  if l.hasSentHeader = true then (l, buf)
  else ({ l with hasSentHeader := true }, header info d buf ++ buf.drop (headSize info d buf))

def httpSimpleClientEncode := encodeBehind getHeader

def httpPostClientEncode := encodeBehind postHeader

/-- Post once in three to seven calls. -/
def httpMixClientEncode (info : ServerInfo) (d : RequestDraws) (l : LocalData) (buf : Bytes) :
    LocalData × Bytes :=
  if d.mixPick % (d.mixRate % 4 + 3) = 0 then httpPostClientEncode info d l buf
  else httpSimpleClientEncode info d l buf

/-- The three plugins differ in `client_encode` only. -/
inductive Variant where
  | httpSimple
  | httpPost
  | httpMix
  deriving DecidableEq

def Variant.clientEncode : Variant → ServerInfo → RequestDraws → LocalData → Bytes → LocalData × Bytes
  | .httpSimple => httpSimpleClientEncode
  | .httpPost => httpPostClientEncode
  | .httpMix => httpMixClientEncode

/-! ## The arrays of the client -/

/-- Whether the call writes a `POST` header. -/
def usesPost (d : RequestDraws) : Variant → Bool
  | .httpSimple => false
  | .httpPost => true
  | .httpMix => d.mixPick % (d.mixRate % 4 + 3) = 0

/-- The parameter fits into `hosts` and its names into `phost`. -/
def HostListFits (info : ServerInfo) : Prop :=
  (hostsText info).length ≤ SSR_BUFF_SIZE / 2 - 2 ∧ (hostNames info).length ≤ 128

instance (info : ServerInfo) : Decidable (HostListFits info) :=
  inferInstanceAs (Decidable (_ ∧ _))

/-- The chosen host fits into `hostport`. -/
def HostPortFits (info : ServerInfo) (d : RequestDraws) : Prop := (hostport info d).length ≤ 127

instance (info : ServerInfo) (d : RequestDraws) : Decidable (HostPortFits info d) :=
  inferInstanceAs (Decidable (_ ≤ _))

/-- `fake_path` is printed up to a NUL.  Its buffer of `SSR_BUFF_SIZE` bytes has one only behind a shorter
text. -/
def PathEnds (info : ServerInfo) (d : RequestDraws) (buf : Bytes) : Prop :=
  (fakeRequestData d (encodeHead (buf.take (headSize info d buf)))).length < SSR_BUFF_SIZE

instance (info : ServerInfo) (d : RequestDraws) (buf : Bytes) : Decidable (PathEnds info d buf) :=
  inferInstanceAs (Decidable (_ < _))

/-- A header that `sprintf` writes, and the payload behind it, fit into `out_buffer`. -/
def OutBufferFits (info : ServerInfo) (d : RequestDraws) (buf : Bytes) : Prop :=
  (getHeader info d buf).length < buf.length + SSR_BUFF_SIZE ∧
    (getHeader info d buf).length + (buf.length - headSize info d buf) ≤ buf.length + SSR_BUFF_SIZE

instance (info : ServerInfo) (d : RequestDraws) (buf : Bytes) : Decidable (OutBufferFits info d buf) :=
  inferInstanceAs (Decidable (_ ∧ _))

/-- The first call stays in its arrays.  `snprintf` cuts where `sprintf` does not look. -/
def ArraysHold (v : Variant) (info : ServerInfo) (d : RequestDraws) (buf : Bytes) : Prop :=
  HostListFits info ∧ PathEnds info d buf ∧
    (usesPost d v = false → HostPortFits info d ∧ OutBufferFits info d buf)

instance (v : Variant) (info : ServerInfo) (d : RequestDraws) (buf : Bytes) :
    Decidable (ArraysHold v info d buf) :=
  inferInstanceAs (Decidable (_ ∧ _ ∧ _))

/-- `client_encode` with its arrays: a call that leaves one of them has no result. -/
def clientEncodeChecked (v : Variant) (info : ServerInfo) (d : RequestDraws) (l : LocalData) (buf : Bytes) :
    Option (LocalData × Bytes) :=
  if l.hasSentHeader = true ∨ ArraysHold v info d buf then some (v.clientEncode info d l buf) else none

/-! ## The server's side of the request -/

def matchHttpHeader (buf : Bytes) : Bool :=
  buf.length ≠ 0 && ([ascii "GET ", ascii "POST "].any fun h => window buf 0 h.length = h)

/-- The bytes that `server_decode` returns, and `need_decrypt`. -/
def serverDecode (l : LocalData) (buf : Bytes) : LocalData × (Bytes × Bool) :=
  if l.hasRecvHeader = true then (l, (buf, true))
  else
    let inBuf := l.recvBuffer ++ buf
    -- the flag is set before anything has been looked at
    let l := { l with hasRecvHeader := true, recvBuffer := inBuf }
    if inBuf.length ≤ 10 then (l, ([], true))
    else if matchHttpHeader inBuf = false then ({ l with recvBuffer := [] }, ([], true))
    else if 65536 < inBuf.length then ({ l with recvBuffer := [] }, ([], false))
    else
      match strstr inBuf crlfcrlf with
      | none => (l, ([], true))
      | some pos =>
          let ret := getDataFromHttpHeader (inBuf.set pos 0) ++ inBuf.drop (pos + 4)
          (l, (if ret.length < 13 then buf else ret, true))

/-! ## The server's header -/

/-- The broken-down time that `gmtime` returns; `year` is the calendar year. -/
structure Tm where
  wday : Fin 7
  mday : ℕ
  mon : Fin 12
  year : ℕ
  hour : ℕ
  min : ℕ
  sec : ℕ

def weekdays : List String := ["Sun", "Mon", "Tue", "Wed", "Thu", "Fri", "Sat"]

def months : List String :=
  ["Jan", "Feb", "Mar", "Apr", "May", "Jun", "Jul", "Aug", "Sep", "Oct", "Nov", "Dec"]

/-- `%02d`. -/
def twoDigits (n : ℕ) : Bytes := [UInt8.ofNat (48 + n / 10 % 10), UInt8.ofNat (48 + n % 10)]

/-- `strftime` with the format `%a, %d %b %Y %H:%M:%S GMT`. -/
def httpDate (t : Tm) : Bytes :=
  ascii (weekdays.getD t.wday "") ++ ascii ", " ++ twoDigits t.mday ++ ascii " " ++
    ascii (months.getD t.mon "") ++ ascii " " ++ decimal t.year ++ ascii " " ++ twoDigits t.hour ++
    ascii ":" ++ twoDigits t.min ++ ascii ":" ++ twoDigits t.sec ++ ascii " GMT"

def header1 : Bytes :=
  ascii "HTTP/1.1 200 OK\r\nConnection: keep-alive\r\nContent-Encoding: gzip\r\nContent-Type: text/html\r\nDate: "

def header2 : Bytes := ascii "\r\nServer: nginx\r\nVary: Accept-Encoding\r\n\r\n"

def responseHeader (t : Tm) : Bytes := header1 ++ httpDate t ++ header2

def serverEncode (t : Tm) (l : LocalData) (buf : Bytes) : LocalData × Bytes :=
  if l.hasSentHeader = true then (l, buf)
  else ({ l with hasSentHeader := true }, responseHeader t ++ buf)

def clientDecode (l : LocalData) (buf : Bytes) : LocalData × Bytes :=
  if l.hasRecvHeader = true then (l, buf)
  else
    match strstr buf crlfcrlf with
    | some pos =>
        let begin := pos + 4
        ({ l with hasRecvHeader := true }, shortenedTo buf begin (subSize buf.length begin))
    | none => (l, [])

end HttpSimple
end Obfs
end SsrNative
