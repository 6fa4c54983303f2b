import SsrNative.Base64Codec
import SsrNative.CString
import SsrNative.CipherNames

/-!
# QrCode — share links

`ssr_qr_code.c`: a configuration as `ss://` or `ssr://` text, and back.  The fixed arrays of `SSR_BUFF_SIZE`
bytes are `swap_buf` of `decode_ssr`, and `base64_buf`, `basic`, `optional` and `result` of
`ssr_qr_code_encode`; `plain_text` is as large as `url_safe_base64_decode_len` says.  The computations list what
these have to hold, and the assertions.
-/

namespace SsrNative
namespace QrCode

open Bytes
open CString
open Base64
open CipherNames
open Lib.Demand
open Lib.Demand.Demanding
open Lib.Search

/-! ## Data -/

/-- The part of `struct server_config` that is in a link. -/
structure ServerConfig where
  remarks : Option CText
  password : Option CText
  method : Option CText
  protocol : Option CText
  protocolParam : Option CText
  obfs : Option CText
  obfsParam : Option CText
  remoteHost : Option CText
  remotePort : UInt16
  overTlsEnable : Bool
  overTlsServerDomain : Option CText
  overTlsPath : Option CText
deriving DecidableEq

/-- `strdup` of a literal. -/
def literal (s : String) : Option CText := some (CText.ofBytes (ascii s))

def configCreate : ServerConfig where
  remarks := literal "Default"
  password := literal "password"
  method := literal "aes-128-ctr"
  protocol := literal "origin"
  protocolParam := literal ""
  obfs := literal "plain"
  obfsParam := literal ""
  remoteHost := literal ""
  remotePort := 443
  overTlsEnable := false
  overTlsServerDomain := literal ""
  overTlsPath := literal "/abcd1234/"

def SSR_BUFF_SIZE : ℕ := 2048

def ssHeader : Bytes := ascii "ss://"
def ssrHeader : Bytes := ascii "ssr://"
def obfsparam : Bytes := ascii "obfsparam"
def protoparam : Bytes := ascii "protoparam"
def remarks : Bytes := ascii "remarks"
def group : Bytes := ascii "group"
def udpport : Bytes := ascii "udpport"
def uot : Bytes := ascii "uot"
def otEnable : Bytes := ascii "ot_enable"
def otDomain : Bytes := ascii "ot_domain"
def otPath : Bytes := ascii "ot_path"

/-- `atoi`, and the cast of `strtol` to `int`. -/
def atoi (s : CText) : Int32 := Int32.ofInt (strtol s.chars)

/-- An `int` that is stored in an `unsigned short`. -/
def portOf (s : CText) : UInt16 := UInt16.ofInt (atoi s).toInt

/-! ## Percent encoding -/

def upperHex (n : UInt8) : UInt8 := if n < 10 then n + 48 else n - 10 + 65

/-- The characters whose entry in `uri_encode_tbl` is zero. -/
def isUnreserved (c : UInt8) : Bool :=
  isDigit c || (65 ≤ c && c ≤ 90) || (97 ≤ c && c ≤ 122) || c == 0x2d || c == 0x2e || c == 0x5f || c == 0x7e

def uriEncode (src : Bytes) : Bytes :=
  src.flatMap fun (c : UInt8) => if isUnreserved c then [c] else [0x25, upperHex (c >>> 4), upperHex (c &&& 0xf)]

def hexval (c : UInt8) : UInt8 :=
  if isDigit c then c - 48
  else if 65 ≤ c ∧ c ≤ 70 then c - 55
  else if 97 ≤ c ∧ c ≤ 102 then c - 87
  else 0xff

/-- `+` stands for a blank. -/
def copyChar (c : UInt8) : UInt8 := if c = 0x2b then 0x20 else c

/-- The loop of `uri_decode`. -/
def uriDecode : Bytes → Bytes
  | c :: v₁ :: v₂ :: src =>
      if c = 0x25 ∧ hexval v₁ ||| hexval v₂ ≠ 0xff then (hexval v₁ <<< 4 ||| hexval v₂) :: uriDecode src
      else copyChar c :: uriDecode (v₁ :: v₂ :: src)
  | c :: src => copyChar c :: uriDecode src
  | [] => []

/-! ## Base64 in an array -/

/-- What `url_safe_base64_decode` writes, the terminator included. -/
def urlSafeBase64Written (codedSrc : CText) : Option Bytes :=
  (strUrlSafeBase64ToStdBase64 codedSrc.chars).map fun newBuf =>
    (stdBase64DecodeIn (fun _ => 0) (newBuf ++ [0])).value.2

/-- `url_safe_base64_decode_len`. -/
def urlSafeBase64DecodeLen (codedSrc : CText) : Demanding ℕ :=
  match strUrlSafeBase64ToStdBase64 codedSrc.chars with
  | some newBuf => return stdBase64DecodeLen (newBuf ++ [0])
  | none => do
      require False
      return 0

/-- `url_safe_base64_decode` into an array of `capacity` bytes, and the text that is in it then. -/
def urlSafeBase64Decode (capacity : ℕ) (codedSrc : CText) : Demanding CText :=
  match urlSafeBase64Written codedSrc with
  | some written => do
      demand written.length capacity
      return CText.ofBytes written
  | none => do
      require False
      return CText.ofBytes []

/-- `len = (int) url_safe_base64_decode_len(..)`, and `plain_text` of `len + 1` bytes.  There is no array for a
negative `len`.  That `len + 1` overflows an `int` for the `len` of 2147483647 is not modelled. -/
def decodePlainText (codedSrc : CText) : Demanding CText := do
  let len ← urlSafeBase64DecodeLen codedSrc
  urlSafeBase64Decode (toInt32 len + 1).toNat codedSrc

/-- `url_safe_base64_encode(s, (int)strlen(s), base64_buf)`, and the text in `base64_buf`.  The length becomes a
`size_t` again in the call. -/
def urlSafeBase64Encode (s : Bytes) : Demanding Bytes := do
  let len := ofInt (toInt32 s.length)
  demand (stdBase64EncodeWrites len) SSR_BUFF_SIZE
  return cString (urlSafeBase64EncodeIn (byteAt (s.drop len)) (s.take len)).value

/-! ## Reading a link -/

/-- `strncmp` with a header, and the text behind it. -/
def behindHeader (header : Bytes) (text : CText) : Option CText :=
  if header <+: text.chars then some (CText.ofBytes (text.chars.drop header.length)) else none

/-! ### `ss://` -/

/-- What `decode_shadowsocks` finds out before it fills a configuration. -/
structure SsParts where
  method : CText
  password : CText
  hostname : CText
  port : CText
  isAead : Bool

/-- `strstr(contents, "/?")`: plugins are not supported. -/
def withoutPlugin (contents : CText) : CText :=
  match findSub (ascii "/?") contents.chars with
  | some plugin => CText.ofBytes (contents.chars.take plugin)
  | none => contents

/-- `userinfo "@" hostname ":" port`. -/
def ssUriParts (contents : CText) : Demanding (Option SsParts) :=
  match (withoutPlugin contents).cutAt 0x40 with
  | none => return none
  | some (contents, hostname) =>
      match hostname.cutAtLast 0x3a with
      | none => return none
      | some (hostname, port) => do
          let plainText ← decodePlainText contents
          match plainText.cutAt 0x3a with
          | none => return none
          | some (method, password) => return some ⟨method, password, hostname, port, true⟩

/-- The separators of `method:password@hostname:port`. -/
def legacyFields (plainText : CText) : Option SsParts := do
  let (method, password) ← plainText.cutAt 0x3a
  let (password, port) ← password.cutAtLast 0x3a
  let (password, hostname) ← password.cutAtLast 0x40
  return ⟨method, password, hostname, port, false⟩

/-- Everything in base64. -/
def legacyParts (contents : CText) : Demanding (Option SsParts) := do
  let plainText ← decodePlainText contents
  match legacyFields plainText with
  | none => return none
  | some parts => do
      let m ← ssCipherTypeOfName (some parts.method)
      return some { parts with isAead := isAead m }

/-- `strcspn(contents, "@:/?") != strlen(contents)`. -/
def IsSsUri (contents : CText) : Prop := ∃ c ∈ contents.chars, c ∈ ascii "@:/?"

instance (contents : CText) : Decidable (IsSsUri contents) :=
  List.decidableBEx (fun c : UInt8 => c ∈ ascii "@:/?") contents.chars

def ssParts (contents : CText) : Demanding (Option SsParts) :=
  if IsSsUri contents then ssUriParts contents else legacyParts contents

/-- What is in front of the `#` and what is behind it, if there is one. -/
def splitRemarks (text : CText) : CText × Option CText :=
  match text.cutAt 0x23 with
  | some (contents, remarks) => (contents, some remarks)
  | none => (text, none)

/-- The configuration that `decode_shadowsocks` fills. -/
def ssConfig (parts : SsParts) (remarks : Option CText) : ServerConfig :=
  { configCreate with
    method := some parts.method
    password := some parts.password
    remoteHost := some parts.hostname
    remotePort := portOf parts.port
    remarks :=
      match remarks with
      | some tag => some (if parts.isAead then CText.ofBytes (uriDecode tag.chars) else tag)
      | none => configCreate.remarks
    overTlsPath := literal ""
    protocol := literal "origin"
    obfs := literal "plain" }

/-- `decode_shadowsocks`. -/
def decodeShadowsocks (text : CText) : Demanding (Option ServerConfig) :=
  match behindHeader ssHeader text with
  | none => return none
  | some text => do
      let (contents, remarks) := splitRemarks text
      let parts ← ssParts contents
      match parts with
      | none => return none
      | some parts =>
          -- the terminator is no digit either
          return if isDigit (byteAt parts.port.chars 0) then some (ssConfig parts remarks) else none

/-! ### `ssr://` -/

/-- `host:port:protocol:method:obfs:base64pass`. -/
structure SsrParts where
  host : CText
  port : CText
  protocol : CText
  method : CText
  obfs : CText
  base64pass : CText

/-- The separators are looked for from the end. -/
def ssrParts (basic : CText) : Option SsrParts := do
  let (basic, base64pass) ← basic.cutAtLast 0x3a
  let (basic, obfs) ← basic.cutAtLast 0x3a
  let (basic, method) ← basic.cutAtLast 0x3a
  let (basic, protocol) ← basic.cutAtLast 0x3a
  let (basic, port) ← basic.cutAtLast 0x3a
  return ⟨basic, port, protocol, method, obfs, base64pass⟩

/-- `basic`, and `optional` behind the `/` and one `?`. -/
def splitOptional (plainText : CText) : CText × Option CText :=
  match plainText.cutAt 0x2f with
  | none => (plainText, none)
  | some (basic, optional) =>
      (basic, some (if byteAt optional.chars 0 = 0x3f then CText.ofBytes (optional.chars.drop 1) else optional))

/-- The indices of `params`. -/
inductive Param where
  | obfsparam
  | protoparam
  | remarks
  | group
  | udpport
  | uot
  | otEnable
  | otDomain
  | otPath
deriving DecidableEq

def params : List (Bytes × Param) :=
  [(obfsparam, .obfsparam), (protoparam, .protoparam), (remarks, .remarks), (group, .group), (udpport, .udpport),
    (uot, .uot), (otEnable, .otEnable), (otDomain, .otDomain), (otPath, .otPath)]

/-- `url_safe_base64_decode(value, swap_buf); string_safe_assign(&.., swap_buf)`. -/
def assignDecoded (value : CText) (assign : CText → ServerConfig) : Demanding ServerConfig := do
  let swapBuf ← urlSafeBase64Decode SSR_BUFF_SIZE value
  return assign swapBuf

/-- The `switch`. -/
def paramCase (config : ServerConfig) (value : CText) : Param → Demanding ServerConfig
  | .obfsparam => assignDecoded value fun swapBuf => { config with obfsParam := some swapBuf }
  | .protoparam => assignDecoded value fun swapBuf => { config with protocolParam := some swapBuf }
  | .remarks => assignDecoded value fun swapBuf => { config with remarks := some swapBuf }
  | .group => return config
  | .udpport => return config
  | .uot => return config
  | .otEnable => return { config with overTlsEnable := decide (atoi value ≠ 0) }
  | .otDomain => assignDecoded value fun swapBuf => { config with overTlsServerDomain := some swapBuf }
  | .otPath => assignDecoded value fun swapBuf => { config with overTlsPath := some swapBuf }

/-- One item of `optional`; an item without `=` and an unknown key are skipped. -/
def paramItem (config : ServerConfig) (item : CText) : Demanding ServerConfig :=
  match item.cutAt 0x3d with
  | none => return config
  | some (key, value) =>
      match params.lookup key.chars with
      | some i => paramCase config value i
      | none => return config

/-- The loop over `optional`; every round takes an `&` away. -/
def paramLoop : ℕ → ServerConfig → CText → Demanding ServerConfig
  | 0, config, _ => return config
  | fuel + 1, config, iter =>
      match iter.cutAt 0x26 with
      | none => paramItem config iter
      | some (item, next) => do
          let config ← paramItem config item
          paramLoop fuel config next

/-- `decode_ssr`. -/
def decodeSsr (text : CText) : Demanding (Option ServerConfig) :=
  match behindHeader ssrHeader text with
  | none => return none
  | some text => do
      let plainText ← decodePlainText text
      let (basic, optional) := splitOptional plainText
      match ssrParts basic with
      | none => return none
      | some parts => do
          let config := { configCreate with
            remoteHost := some parts.host
            remotePort := portOf parts.port
            protocol := some parts.protocol
            method := some parts.method
            obfs := some parts.obfs }
          let config ← assignDecoded parts.base64pass fun swapBuf => { config with password := some swapBuf }
          match optional with
          | none => return some config
          | some optional =>
              if optional.chars.length = 0 then return some config
              else do
                let config ← paramLoop (optional.chars.length + 1) config optional
                return some config

/-- `ssr_qr_code_decode`. -/
def ssrQrCodeDecode : Option CText → Demanding (Option ServerConfig)
  | none => return none
  | some text =>
      if text.chars.length = 0 then return none
      else if ssHeader <+: text.chars then decodeShadowsocks text
      else if ssrHeader <+: text.chars then decodeSsr text
      else return none

/-! ## Making a link -/

/-- The fields that a link cannot do without. -/
structure LinkFields where
  host : Bytes
  method : Bytes
  password : Bytes
  protocol : Bytes
  obfs : Bytes

def linkFields (config : ServerConfig) : Option LinkFields :=
  if config.remotePort = 0 then none
  else do
    let host ← config.remoteHost
    let method ← config.method
    let password ← config.password
    let protocol ← config.protocol
    let obfs ← config.obfs
    return ⟨host.chars, method.chars, password.chars, protocol.chars, obfs.chars⟩

/-- `%d` of an `unsigned short`. -/
def portText (config : ServerConfig) : Bytes := decimal config.remotePort.toNat

/-- What Shadowsocks can do as well. -/
def IsShadowsocks (config : ServerConfig) : Prop :=
  ssrProtocolTypeOfName config.protocol = some .origin ∧ ssrObfsTypeOfName config.obfs = some .plain ∧
    config.overTlsEnable = false

instance (config : ServerConfig) : Decidable (IsShadowsocks config) := by
  unfold IsShadowsocks
  infer_instance

/-- `generate_shadowsocks_uri`.  Its arrays are as long as the texts in them. -/
def generateShadowsocksUri (config : ServerConfig) (f : LinkFields) : Bytes :=
  let userinfo := f.method ++ ascii ":" ++ f.password
  let userinfoB64 := cString (urlSafeBase64EncodeIn (fun _ => 0) userinfo).value
  let res := ssHeader ++ userinfoB64 ++ ascii "@" ++ f.host ++ ascii ":" ++ portText config
  match config.remarks with
  | some remarks => if remarks.chars.length ≠ 0 then res ++ ascii "#" ++ uriEncode remarks.chars else res
  | none => res

/-- `sprintf` into an array of `SSR_BUFF_SIZE` bytes that holds `text` already. -/
def sprintf (text more : Bytes) : Demanding Bytes := do
  demand ((text ++ more).length + 1) SSR_BUFF_SIZE
  return text ++ more

/-- `sprintf(optional+len, len?fmt1:fmt0, key, value)`. -/
def appendItem (key value optional : Bytes) : Demanding Bytes :=
  sprintf optional ((if optional.length = 0 then [] else ascii "&") ++ key ++ ascii "=" ++ value)

/-- A field that is there and not empty is appended in base64. -/
def appendField (key : Bytes) (field : Option CText) (optional : Bytes) : Demanding Bytes :=
  match field with
  | none => return optional
  | some s =>
      if s.chars.length = 0 then return optional
      else do
        let base64Buf ← urlSafeBase64Encode s.chars
        appendItem key base64Buf optional

def appendOtEnable (overTlsEnable : Bool) (optional : Bytes) : Demanding Bytes :=
  if overTlsEnable = true then appendItem otEnable (ascii "1") optional else return optional

/-- `basic`. -/
def basicText (config : ServerConfig) (f : LinkFields) : Demanding Bytes := do
  let base64Buf ← urlSafeBase64Encode f.password
  sprintf [] (f.host ++ ascii ":" ++ portText config ++ ascii ":" ++ f.protocol ++ ascii ":" ++ f.method ++
    ascii ":" ++ f.obfs ++ ascii ":" ++ base64Buf)

/-- `optional`. -/
def optionalText (config : ServerConfig) : Demanding Bytes := do
  let optional ← appendField obfsparam config.obfsParam []
  let optional ← appendField protoparam config.protocolParam optional
  let optional ← appendField remarks config.remarks optional
  let optional ← appendOtEnable config.overTlsEnable optional
  let optional ← appendField otDomain config.overTlsServerDomain optional
  appendField otPath config.overTlsPath optional

/-- `ssr_qr_code_encode` behind its checks. -/
def ssrLink (config : ServerConfig) (f : LinkFields) : Demanding Bytes := do
  let basic ← basicText config f
  let optional ← optionalText config
  let result ← sprintf [] (basic ++ (if optional.length = 0 then ascii "/" else ascii "/?") ++ optional)
  let base64Buf ← urlSafeBase64Encode result
  sprintf [] (ssrHeader ++ base64Buf)

/-- `ssr_qr_code_encode`; `allocFn` says whether an allocator is given. -/
def ssrQrCodeEncode (config : Option ServerConfig) (allocFn : Bool) : Demanding (Option Bytes) :=
  match config with
  | none => return none
  | some config =>
      if allocFn = false then return none
      else
        match linkFields config with
        | none => return none
        | some f =>
            if IsShadowsocks config then return some (generateShadowsocksUri config f)
            else do
              let result ← ssrLink config f
              return some result

end QrCode
end SsrNative
