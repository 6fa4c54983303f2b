import SsrNative.Bytes
import SsrNative.Lib.Hash
import SsrNative.Lib.Transition

/-!
# Session — which datagrams share a UDP session

A listener finds the session of a datagram by comparing the bytes of two address unions.  One is
filled by copying a `struct sockaddr`, which is shorter than the address of an IPv6 peer; the other by
`udprelay_parse_header`, which leaves what it does not write as it was.
-/

namespace SsrNative
namespace Udp
namespace Session

open Bytes
open Lib.Transition

/-! ## Addresses -/

/-- The 128 bytes of `union sockaddr_universal`, by the offsets of its members: at 4 `sin_addr` or
`sin6_flowinfo`, at 8 `sin_zero` or the first half of `sin6_addr`, at 16 the second half, at 24
`sin6_scope_id`. -/
structure SockaddrUniversal where
  family : UInt16
  port : UInt16
  word4 : UInt32
  word8 : UInt64
  word16 : UInt64
  word24 : UInt32
  rest : Bytes
  deriving DecidableEq

/-- `memset`, `calloc`. -/
def SockaddrUniversal.zero : SockaddrUniversal := ⟨0, 0, 0, 0, 0, 0, List.replicate 100 0⟩

def AF_INET : UInt16 := 2

def AF_INET6 : UInt16 := 10

/-- The address of a host; the two halves of an IPv6 address. -/
inductive Ip where
  | v4 (addr : UInt32)
  | v6 (hi lo : UInt64)
  deriving DecidableEq

structure Endpoint where
  ip : Ip
  port : UInt16
  deriving DecidableEq

/-- The members that are written when an address is set. -/
def SockaddrUniversal.write (u : SockaddrUniversal) (e : Endpoint) : SockaddrUniversal :=
  match e.ip with
  | .v4 addr => { u with family := AF_INET, port := e.port, word4 := addr }
  | .v6 hi lo => { u with family := AF_INET6, port := e.port, word8 := hi, word16 := lo }

/-- The address that a union stands for. -/
def SockaddrUniversal.endpoint (u : SockaddrUniversal) : Option Endpoint :=
  if u.family = AF_INET then some ⟨.v4 u.word4, u.port⟩
  else if u.family = AF_INET6 then some ⟨.v6 u.word8 u.word16, u.port⟩
  else none

/-- Everything in a union except an address like `e`. -/
def SockaddrUniversal.without (u : SockaddrUniversal) (e : Endpoint) : SockaddrUniversal :=
  match e.ip with
  | .v4 _ => { u with family := 0, port := 0, word4 := 0 }
  | .v6 _ _ => { u with family := 0, port := 0, word8 := 0, word16 := 0 }

theorem write_endpoint (u : SockaddrUniversal) (e : Endpoint) : (u.write e).endpoint = some e := by
  obtain ⟨ip, port⟩ := e
  cases ip <;> rfl

theorem write_eq_iff {u u' : SockaddrUniversal} (e : Endpoint) :
    u.write e = u'.write e ↔ u.without e = u'.without e := by
  obtain ⟨ip, port⟩ := e
  cases ip with
  | v4 addr =>
      simp only [SockaddrUniversal.write, SockaddrUniversal.without, SockaddrUniversal.mk.injEq,
        true_and]
  | v6 hi lo =>
      simp only [SockaddrUniversal.write, SockaddrUniversal.without, SockaddrUniversal.mk.injEq,
        true_and]

theorem write_inj {u u' : SockaddrUniversal} {e e' : Endpoint} :
    u.write e = u'.write e' ↔ e = e' ∧ u.without e = u'.without e := by
  constructor
  · intro h
    have he : some e = some e' := by rw [← write_endpoint u e, h, write_endpoint]
    obtain rfl := Option.some.inj he
    exact ⟨rfl, (write_eq_iff e).1 h⟩
  · rintro ⟨rfl, h⟩
    exact (write_eq_iff e).2 h

/-! ## The header -/

def ADDRTYPE_MASK : UInt8 := 0xEF

def SOCKS5_ADDRTYPE_IPV4 : UInt8 := 1

def SOCKS5_ADDRTYPE_DOMAINNAME : UInt8 := 3

def SOCKS5_ADDRTYPE_IPV6 : UInt8 := 4

def readWord16 (b : Bytes) (i : ℕ) : UInt16 := UInt16.ofNat (rdLe16 b i)

def readWord32 (b : Bytes) (i : ℕ) : UInt32 := UInt32.ofNat (rdLe32 b i)

def readWord64 (b : Bytes) (i : ℕ) : UInt64 := UInt64.ofNat (Lib.Hash.wordLE (window b i 8))

/-- What `udprelay_parse_header` leaves in `storage`, and the length of the header, which is zero for
an invalid one.  `lookup` is `universal_address_from_string`. -/
def udprelayParseHeader (lookup : Bytes → Option Ip) (buf : Bytes) (storage : SockaddrUniversal) :
    SockaddrUniversal × ℕ :=
  let addrType := byteAt buf 0 &&& ADDRTYPE_MASK
  let r : SockaddrUniversal × ℕ :=
    if addrType = SOCKS5_ADDRTYPE_IPV4 then
      if 4 + 3 ≤ buf.length then
        (storage.write ⟨.v4 (readWord32 buf 1), readWord16 buf 5⟩, 1 + 4)
      else (storage, 1)
    else if addrType = SOCKS5_ADDRTYPE_DOMAINNAME then
      let nameLen := (byteAt buf 1).toNat
      if nameLen + 4 ≤ buf.length then
        match lookup (cString (window buf 2 nameLen)) with
        | some ip => (storage.write ⟨ip, readWord16 buf (2 + nameLen)⟩, 1 + (1 + nameLen))
        | none => (storage, 1 + (1 + nameLen))
      else (storage, 1)
    else if addrType = SOCKS5_ADDRTYPE_IPV6 then
      if 16 + 3 ≤ buf.length then
        (storage.write ⟨.v6 (readWord64 buf 1) (readWord64 buf 9), readWord16 buf 17⟩, 1 + 16)
      else (storage, 1)
    else (storage, 1)
  if r.2 = 1 then (r.1, 0) else (r.1, r.2 + 2)

/-- The target of a datagram: an address, or a name that was not found. -/
inductive Target where
  | addr (e : Endpoint)
  | name (name : Bytes) (port : UInt16)
  deriving DecidableEq

/-- The target that a header names. -/
def headerTarget (lookup : Bytes → Option Ip) (buf : Bytes) : Option Target :=
  let addrType := byteAt buf 0 &&& ADDRTYPE_MASK
  let nameLen := (byteAt buf 1).toNat
  if addrType = SOCKS5_ADDRTYPE_IPV4 ∧ 7 ≤ buf.length then
    some (.addr ⟨.v4 (readWord32 buf 1), readWord16 buf 5⟩)
  else if addrType = SOCKS5_ADDRTYPE_DOMAINNAME ∧ nameLen + 4 ≤ buf.length then
    let name := cString (window buf 2 nameLen)
    let port := readWord16 buf (2 + nameLen)
    match lookup name with
    | some ip => some (.addr ⟨ip, port⟩)
    | none => some (.name name port)
  else if addrType = SOCKS5_ADDRTYPE_IPV6 ∧ 19 ≤ buf.length then
    some (.addr ⟨.v6 (readWord64 buf 1) (readWord64 buf 9), readWord16 buf 17⟩)
  else none

/-- What is left in a union when a target has been written to it. -/
def SockaddrUniversal.set (u : SockaddrUniversal) : Target → SockaddrUniversal
  | .addr e => u.write e
  | .name _ _ => u

/-- The parser accepts the headers that name a target, and writes it. -/
theorem udprelayParseHeader_eq (lookup : Bytes → Option Ip) (buf : Bytes) (u : SockaddrUniversal) :
    (∃ t n, headerTarget lookup buf = some t ∧ udprelayParseHeader lookup buf u = (u.set t, n + 1)) ∨
      (headerTarget lookup buf = none ∧ udprelayParseHeader lookup buf u = (u, 0)) := by
  have h31 : SOCKS5_ADDRTYPE_DOMAINNAME ≠ SOCKS5_ADDRTYPE_IPV4 := by decide
  have h41 : SOCKS5_ADDRTYPE_IPV6 ≠ SOCKS5_ADDRTYPE_IPV4 := by decide
  have h43 : SOCKS5_ADDRTYPE_IPV6 ≠ SOCKS5_ADDRTYPE_DOMAINNAME := by decide
  unfold headerTarget udprelayParseHeader
  dsimp only
  generalize byteAt buf 0 &&& ADDRTYPE_MASK = addrType
  generalize (byteAt buf 1).toNat = nameLen
  -- by the type in the lower four bits, each with its own length check
  by_cases hv4 : addrType = SOCKS5_ADDRTYPE_IPV4
  · subst hv4
    by_cases hlen : 7 ≤ buf.length
    · exact .inl ⟨.addr ⟨.v4 (readWord32 buf 1), readWord16 buf 5⟩, 6, by simp [hlen],
        by simp [hlen, SockaddrUniversal.set]⟩
    · exact .inr ⟨by simp [hlen, h31.symm, h41.symm], by simp [hlen]⟩
  by_cases hname : addrType = SOCKS5_ADDRTYPE_DOMAINNAME
  · subst hname
    by_cases hlen : nameLen + 4 ≤ buf.length
    · have hoffset : ¬ 1 + (1 + nameLen) = 1 := by omega
      have hend : 1 + (1 + nameLen) + 2 = 3 + nameLen + 1 := by omega
      cases hlookup : lookup (cString (window buf 2 nameLen)) with
      | some ip =>
          exact .inl ⟨.addr ⟨ip, readWord16 buf (2 + nameLen)⟩, 3 + nameLen, by simp [h31, hlen],
            by simp only [h31, hlen, if_true, if_false, hoffset, hend, SockaddrUniversal.set]⟩
      | none =>
          exact .inl ⟨.name (cString (window buf 2 nameLen)) (readWord16 buf (2 + nameLen)), 3 + nameLen,
            by simp [h31, hlen],
            by simp only [h31, hlen, if_true, if_false, hoffset, hend, SockaddrUniversal.set]⟩
    · exact .inr ⟨by simp [h31, hlen, h43.symm], by simp [h31, hlen]⟩
  by_cases hv6 : addrType = SOCKS5_ADDRTYPE_IPV6
  · subst hv6
    by_cases hlen : 19 ≤ buf.length
    · exact .inl ⟨.addr ⟨.v6 (readWord64 buf 1) (readWord64 buf 9), readWord16 buf 17⟩, 18,
        by simp [h41, h43, hlen], by simp [h41, h43, hlen, SockaddrUniversal.set]⟩
    · exact .inr ⟨by simp [h41, h43, hlen], by simp [h41, h43, hlen]⟩
  · exact .inr ⟨by simp [hv4, hname, hv6], by simp [hv4, hname, hv6]⟩

/-! ## The listener -/

/-- What the system puts into the members of a source address beside the address. -/
structure Fill where
  sinZero : UInt64
  flowinfo : UInt32
  deriving DecidableEq

inductive Role where
  | client
  | server
  deriving DecidableEq

/-- A datagram that a listener receives: what the plugin and the cipher leave of it, what a name
lookup returns while it is handled, what the stack holds where `target_addr` is, and whether the
checks that do not look at addresses let it pass. -/
structure Datagram where
  source : Endpoint
  fill : Fill
  data : Bytes
  lookup : Bytes → Option Ip
  stack : SockaddrUniversal
  passes : Bool

variable (r : Role) (d : Datagram)

/-- `incoming_addr.addr = *addr`: sixteen bytes of the source address, in a union of zeros. -/
def incomingAddr : SockaddrUniversal :=
  match d.source.ip with
  | .v4 addr =>
      { SockaddrUniversal.zero with
        family := AF_INET, port := d.source.port, word4 := addr, word8 := d.fill.sinZero }
  | .v6 hi _ =>
      { SockaddrUniversal.zero with
        family := AF_INET6, port := d.source.port, word4 := d.fill.flowinfo, word8 := hi }

/-- The header; on the client it is behind three bytes of SOCKS5. -/
def header : Bytes :=
  match r with
  | .client => d.data.drop 3
  | .server => d.data

/-- `target_addr` before it is parsed; the server clears it. -/
def before : SockaddrUniversal :=
  match r with
  | .client => d.stack
  | .server => .zero

def parsed : SockaddrUniversal × ℕ := udprelayParseHeader d.lookup (header r d) (before r d)

def targetAddr : SockaddrUniversal := (parsed r d).1

/-- Whether the datagram is relayed; the client drops fragments and what goes to port 5353. -/
def accepts : Bool :=
  match r with
  | .client =>
      decide ((parsed r d).2 ≠ 0) && decide (rdBe16 (header r d) ((parsed r d).2 - 2) ≠ 5353) &&
        decide (byteAt d.data 2 = 0) && d.passes
  | .server => decide ((parsed r d).2 ≠ 0) && d.passes

/-- The addresses of `client_udp_remote_ctx` and `server_udp_remote_ctx`. -/
structure RemoteCtx where
  id : ℕ
  incomingAddr : SockaddrUniversal
  targetAddr : SockaddrUniversal

/-- The set `connections` of a listener, and which session each datagram has used so far. -/
structure Listener where
  connections : List RemoteCtx
  next : ℕ
  log : List (Datagram × ℕ)

/-- `find_matching_connection` in a traversal of the set. -/
def findMatchingConnection (connections : List RemoteCtx) (incoming target : SockaddrUniversal) :
    Option RemoteCtx :=
  connections.find? fun c => decide (c.incomingAddr = incoming ∧ c.targetAddr = target)

/-- `client_udp_listener_recv_cb` and `server_udp_listener_recv_cb`. -/
def listenerRecvCb (s : Listener) : Listener :=
  if accepts r d = true then
    match findMatchingConnection s.connections (incomingAddr d) (targetAddr r d) with
    | some c => { s with log := (d, c.id) :: s.log }
    | none =>
        { connections := ⟨s.next, incomingAddr d, targetAddr r d⟩ :: s.connections
          next := s.next + 1
          log := (d, s.next) :: s.log }
  else s

inductive Event where
  | recv (d : Datagram)
  /-- A session is shut down. -/
  | shutdown (id : ℕ)

def step (s : Listener) : Event → Listener
  | .recv d => listenerRecvCb r d s
  | .shutdown id => { s with connections := s.connections.filter fun c => decide (c.id ≠ id) }

def start : Listener := ⟨[], 0, []⟩

/-! ## Identity -/

/-- The target of a datagram. -/
def targetOf : Option Target := headerTarget d.lookup (header r d)

/-- The datagrams come from one address and go to one. -/
def SameFlow (d' : Datagram) : Prop := d.source = d'.source ∧ targetOf r d = targetOf r d'

def Live (s : Listener) (id : ℕ) : Prop := ∃ c ∈ s.connections, c.id = id

/-- Datagrams use the same live session exactly when their addresses are the same, and the address
that the session replies to is the one they come from. -/
structure Identity (s : Listener) : Prop where
  same : ∀ p ∈ s.log, ∀ q ∈ s.log, Live s p.2 → Live s q.2 → (p.2 = q.2 ↔ SameFlow r p.1 q.1)
  reply : ∀ p ∈ s.log, ∀ c ∈ s.connections, c.id = p.2 → c.incomingAddr.endpoint = some p.1.source

/-- What the system adds to a source address and is copied with it. -/
def copiedFill : UInt64 ⊕ UInt32 :=
  match d.source.ip with
  | .v4 _ => .inl d.fill.sinZero
  | .v6 _ _ => .inr d.fill.flowinfo

/-- What the parser leaves of `target_addr`. -/
def untouched : SockaddrUniversal :=
  match targetOf r d with
  | some (.addr e) => (before r d).without e
  | _ => before r d

def IsName : Option Target → Prop
  | some (.name _ _) => True
  | _ => False

/-- The second half of an IPv6 address is not copied. -/
def Whole : Ip → Prop
  | .v4 _ => True
  | .v6 _ lo => lo = 0

/-- A datagram whose addresses are told apart: its source is copied as a whole; against every live
session with datagrams of the same source, the bytes beside the addresses are the same if the target
is, and if the target is another one and one of them is a name that was not found, the bytes of the
unions differ. -/
def Distinct (s : Listener) : Prop :=
  accepts r d = true → Whole d.source.ip ∧ ∀ p ∈ s.log, Live s p.2 → p.1.source = d.source →
    (targetOf r p.1 = targetOf r d → copiedFill p.1 = copiedFill d ∧ untouched r p.1 = untouched r d) ∧
    (targetOf r p.1 ≠ targetOf r d → IsName (targetOf r p.1) ∨ IsName (targetOf r d) →
      ¬ (incomingAddr p.1 = incomingAddr d ∧ targetAddr r p.1 = targetAddr r d))

/-- Every datagram that arrives is one. -/
def Safe (s : Listener) : Event → Prop
  | .recv d => Distinct r d s
  | .shutdown _ => True

variable {r d} {d' : Datagram}

/-! ## The bytes that are compared -/

theorem incomingAddr_endpoint_iff : (incomingAddr d).endpoint = some d.source ↔ Whole d.source.ip := by
  unfold incomingAddr Whole
  cases hsource : d.source with
  | mk ip port =>
      cases ip with
      | v4 addr => exact iff_of_true rfl trivial
      | v6 hi lo =>
          constructor
          · intro h
            have heq : some (⟨.v6 hi 0, port⟩ : Endpoint) = some ⟨.v6 hi lo, port⟩ := h
            injection heq with heq
            injection heq with hip
            injection hip with _ hlo
            exact hlo.symm
          · rintro rfl
            rfl

/-- Sources that are copied as a whole. -/
theorem incomingAddr_eq_iff (hd : Whole d.source.ip) (hd' : Whole d'.source.ip) :
    incomingAddr d = incomingAddr d' ↔ d.source = d'.source ∧ copiedFill d = copiedFill d' := by
  constructor
  · intro h
    have hsource : some d.source = some d'.source := by
      rw [← incomingAddr_endpoint_iff.2 hd, h, incomingAddr_endpoint_iff.2 hd']
    refine ⟨Option.some.inj hsource, ?_⟩
    unfold incomingAddr at h
    unfold copiedFill
    rw [← Option.some.inj hsource] at h ⊢
    cases hip : d.source.ip with
    | v4 addr =>
        rw [hip] at h
        exact congrArg (fun u => Sum.inl (SockaddrUniversal.word8 u)) h
    | v6 hi lo =>
        rw [hip] at h
        exact congrArg (fun u => Sum.inr (SockaddrUniversal.word4 u)) h
  · rintro ⟨hsource, hfill⟩
    unfold copiedFill at hfill
    unfold incomingAddr
    rw [← hsource] at hfill ⊢
    cases hip : d.source.ip with
    | v4 addr =>
        rw [hip] at hfill
        rw [Sum.inl.inj hfill]
    | v6 hi lo =>
        rw [hip] at hfill
        rw [Sum.inr.inj hfill]

theorem accepts_parsed (hacc : accepts r d = true) : (parsed r d).2 ≠ 0 := by
  intro h
  cases r <;> simp [accepts, h] at hacc

/-- A datagram that is relayed has a target. -/
theorem accepts_target (hacc : accepts r d = true) :
    ∃ t, targetOf r d = some t ∧ targetAddr r d = (before r d).set t := by
  rcases udprelayParseHeader_eq d.lookup (header r d) (before r d) with ⟨t, n, ht, hparsed⟩ | ⟨-, hparsed⟩
  · exact ⟨t, ht, congrArg Prod.fst hparsed⟩
  · exact absurd (congrArg Prod.snd hparsed) (accepts_parsed hacc)

/-- Two datagrams with the same target. -/
theorem targetAddr_eq_iff (hacc : accepts r d = true) (hacc' : accepts r d' = true)
    (htarget : targetOf r d = targetOf r d') :
    targetAddr r d = targetAddr r d' ↔ untouched r d = untouched r d' := by
  obtain ⟨t, ht, haddr⟩ := accepts_target hacc
  obtain ⟨t', ht', haddr'⟩ := accepts_target hacc'
  obtain rfl : t = t' := Option.some.inj (ht.symm.trans (htarget.trans ht'))
  unfold untouched
  rw [haddr, haddr', ht, ht']
  cases t with
  | addr e => exact write_inj.trans (and_iff_right rfl)
  | name _ _ => exact Iff.rfl

/-- The bytes tell targets that are addresses apart. -/
theorem target_eq_of_targetAddr (hacc : accepts r d = true) (hacc' : accepts r d' = true)
    (hname : ¬ (IsName (targetOf r d) ∨ IsName (targetOf r d')))
    (h : targetAddr r d = targetAddr r d') : targetOf r d = targetOf r d' := by
  obtain ⟨t, ht, haddr⟩ := accepts_target hacc
  obtain ⟨t', ht', haddr'⟩ := accepts_target hacc'
  rw [haddr, haddr'] at h
  rw [ht, ht'] at hname ⊢
  cases t with
  | name _ _ => exact absurd (.inl trivial) hname
  | addr e =>
      cases t' with
      | name _ _ => exact absurd (.inr trivial) hname
      | addr e' => rw [(write_inj.1 h).1]

/-! ## The set of sessions -/

/-- Sessions have numbers and addresses of their own, and those of the datagrams that use them. -/
structure Inv (r : Role) (s : Listener) : Prop where
  id_lt : ∀ c ∈ s.connections, c.id < s.next
  id_iff : ∀ c ∈ s.connections, ∀ c' ∈ s.connections,
    c.id = c'.id ↔ c.incomingAddr = c'.incomingAddr ∧ c.targetAddr = c'.targetAddr
  log_lt : ∀ p ∈ s.log, p.2 < s.next
  log_accepts : ∀ p ∈ s.log, accepts r p.1 = true
  log_addr : ∀ p ∈ s.log, ∀ c ∈ s.connections, c.id = p.2 →
    c.incomingAddr = incomingAddr p.1 ∧ c.targetAddr = targetAddr r p.1

theorem inv_start : Inv r start := ⟨nofun, nofun, nofun, nofun, nofun⟩

/-- What a datagram that is relayed does: the session `c` with its addresses is in the set, or is added
to it, and is the one that it uses. -/
structure Uses (r : Role) (d : Datagram) (s s' : Listener) (c : RemoteCtx) : Prop where
  incoming : c.incomingAddr = incomingAddr d
  target : c.targetAddr = targetAddr r d
  log : s'.log = (d, c.id) :: s.log
  next_le : s.next ≤ s'.next
  id_lt : c.id < s'.next
  connections : ∀ c', c' ∈ s'.connections ↔ c' = c ∨ c' ∈ s.connections
  found : c ∈ s.connections ∨ (s.next ≤ c.id ∧ ∀ c' ∈ s.connections,
    ¬ (c'.incomingAddr = c.incomingAddr ∧ c'.targetAddr = c.targetAddr))

theorem listenerRecvCb_uses {s : Listener} (h : Inv r s) (hacc : accepts r d = true) :
    ∃ c, Uses r d s (listenerRecvCb r d s) c := by
  unfold listenerRecvCb
  rw [if_pos hacc]
  cases hfind : findMatchingConnection s.connections (incomingAddr d) (targetAddr r d) with
  | some c =>
      have hmem : c ∈ s.connections := List.mem_of_find?_eq_some hfind
      have hkey : c.incomingAddr = incomingAddr d ∧ c.targetAddr = targetAddr r d := by
        simpa using List.find?_some hfind
      refine ⟨c, hkey.1, hkey.2, rfl, Nat.le_refl _, h.id_lt c hmem, fun c' => ?_, .inl hmem⟩
      exact ⟨.inr, fun hc => hc.elim (fun heq => heq ▸ hmem) id⟩
  | none =>
      refine ⟨⟨s.next, incomingAddr d, targetAddr r d⟩, rfl, rfl, rfl, Nat.le_succ _, Nat.lt_succ_self _,
        fun c' => List.mem_cons, .inr ⟨Nat.le_refl _, fun c' hc' hkey => ?_⟩⟩
      have hnone := List.find?_eq_none.1 hfind c' hc'
      exact hnone (decide_eq_true hkey)

theorem Uses.inv {s s' : Listener} {c : RemoteCtx} (hu : Uses r d s s' c) (h : Inv r s)
    (hacc : accepts r d = true) : Inv r s' := by
  -- the connection in use is an old one, or it has a fresh id
  have hnew : ∀ c' ∈ s.connections,
      c'.id = c.id ↔ c'.incomingAddr = c.incomingAddr ∧ c'.targetAddr = c.targetAddr := by
    intro c' hc'
    rcases hu.found with hc | ⟨hle, hnone⟩
    · exact h.id_iff c' hc' c hc
    · have hlt := h.id_lt c' hc'
      exact iff_of_false (by omega) (hnone c' hc')
  refine ⟨?_, ?_, ?_, ?_, ?_⟩
  · intro c' hc'
    rcases (hu.connections c').1 hc' with rfl | hc'
    · exact hu.id_lt
    · exact Nat.lt_of_lt_of_le (h.id_lt c' hc') hu.next_le
  · intro c₁ hc₁ c₂ hc₂
    rcases (hu.connections c₁).1 hc₁ with rfl | hc₁
    · rcases (hu.connections c₂).1 hc₂ with rfl | hc₂
      · exact iff_of_true rfl ⟨rfl, rfl⟩
      · rw [eq_comm, hnew c₂ hc₂, eq_comm, eq_comm (a := c₂.targetAddr)]
    · rcases (hu.connections c₂).1 hc₂ with rfl | hc₂
      · exact hnew c₁ hc₁
      · exact h.id_iff c₁ hc₁ c₂ hc₂
  · intro p hp
    rw [hu.log] at hp
    rcases List.mem_cons.1 hp with rfl | hp
    · exact hu.id_lt
    · exact Nat.lt_of_lt_of_le (h.log_lt p hp) hu.next_le
  · intro p hp
    rw [hu.log] at hp
    rcases List.mem_cons.1 hp with rfl | hp
    · exact hacc
    · exact h.log_accepts p hp
  · intro p hp c' hc' hid
    rw [hu.log] at hp
    rcases List.mem_cons.1 hp with rfl | hold
    · rcases (hu.connections c').1 hc' with rfl | hc'
      · exact ⟨hu.incoming, hu.target⟩
      · obtain ⟨hin, htarget⟩ := (hnew c' hc').1 hid
        exact ⟨hin.trans hu.incoming, htarget.trans hu.target⟩
    · rcases (hu.connections c').1 hc' with rfl | hc'
      · rcases hu.found with hc | ⟨hle, -⟩
        · exact h.log_addr p hold c' hc hid
        · have hlt := h.log_lt p hold
          omega
      · exact h.log_addr p hold c' hc' hid

theorem step_inv (s : Listener) (e : Event) (h : Inv r s) : Inv r (step r s e) := by
  cases e with
  | recv d =>
      by_cases hacc : accepts r d = true
      · obtain ⟨c, hu⟩ := listenerRecvCb_uses h hacc
        exact hu.inv h hacc
      · have hsame : listenerRecvCb r d s = s := if_neg hacc
        exact (show Inv r (listenerRecvCb r d s) by rw [hsame]; exact h)
  | shutdown id =>
      have hsub : ∀ c ∈ s.connections.filter (fun c => decide (c.id ≠ id)), c ∈ s.connections :=
        fun c hc => List.mem_of_mem_filter hc
      exact ⟨fun c hc => h.id_lt c (hsub c hc),
        fun c hc c' hc' => h.id_iff c (hsub c hc) c' (hsub c' hc'), h.log_lt, h.log_accepts,
        fun p hp c hc => h.log_addr p hp c (hsub c hc)⟩

/-! ## Runs -/

theorem SameFlow.refl (d : Datagram) : SameFlow r d d := ⟨rfl, rfl⟩

theorem SameFlow.symm (h : SameFlow r d d') : SameFlow r d' d := ⟨h.1.symm, h.2.symm⟩

/-- The sources of the datagrams that use a session are copied as a whole. -/
theorem Identity.whole {s : Listener} (h : Identity r s) (hinv : Inv r s) {p : Datagram × ℕ}
    (hp : p ∈ s.log) (hlive : Live s p.2) : Whole p.1.source.ip := by
  obtain ⟨c, hc, hid⟩ := hlive
  rw [← incomingAddr_endpoint_iff, ← (hinv.log_addr p hp c hc hid).1]
  exact h.reply p hp c hc hid

theorem Uses.live_iff {s s' : Listener} {c : RemoteCtx} (hu : Uses r d s s' c) (h : Inv r s)
    {p : Datagram × ℕ} (hp : p ∈ s.log) : Live s' p.2 ↔ Live s p.2 := by
  constructor
  · rintro ⟨c', hc', hid⟩
    rcases (hu.connections c').1 hc' with rfl | hc'
    · rcases hu.found with hc | ⟨hle, -⟩
      · exact ⟨c', hc, hid⟩
      · have hlt := h.log_lt p hp
        omega
    · exact ⟨c', hc', hid⟩
  · rintro ⟨c', hc', hid⟩
    exact ⟨c', (hu.connections c').2 (.inr hc'), hid⟩

/-- A datagram uses the session of another one exactly when the bytes of their addresses are equal. -/
theorem Uses.id_eq_iff {s s' : Listener} {c : RemoteCtx} (hu : Uses r d s s' c) (h : Inv r s)
    (hacc : accepts r d = true) {p : Datagram × ℕ} (hp : p ∈ s.log) (hlive : Live s p.2) :
    p.2 = c.id ↔ incomingAddr p.1 = incomingAddr d ∧ targetAddr r p.1 = targetAddr r d := by
  obtain ⟨c', hc', hid⟩ := hlive
  obtain ⟨hin, htarget⟩ := h.log_addr p hp c' hc' hid
  have hinv := hu.inv h hacc
  rw [← hid, hinv.id_iff c' ((hu.connections c').2 (.inr hc')) c ((hu.connections c).2 (.inl rfl)),
    hin, htarget, hu.incoming, hu.target]

/-- A datagram that is told apart from those of the live sessions gets the session of its flow. -/
theorem Uses.id_iff_sameFlow {s s' : Listener} {c : RemoteCtx} (hu : Uses r d s s' c) (hinv : Inv r s)
    (h : Identity r s) (hacc : accepts r d = true) (hdistinct : Distinct r d s) {p : Datagram × ℕ}
    (hp : p ∈ s.log) (hlive : Live s p.2) : p.2 = c.id ↔ SameFlow r p.1 d := by
  obtain ⟨hwhole, hpairs⟩ := hdistinct hacc
  have hpwhole := h.whole hinv hp hlive
  have hpacc := hinv.log_accepts p hp
  rw [hu.id_eq_iff hinv hacc hp hlive]
  constructor
  · rintro ⟨hin, haddr⟩
    have hsource := ((incomingAddr_eq_iff hpwhole hwhole).1 hin).1
    refine ⟨hsource, ?_⟩
    -- equal bytes of different targets: excluded, or they were names that resolve alike
    by_contra htarget
    by_cases hname : IsName (targetOf r p.1) ∨ IsName (targetOf r d)
    · exact (hpairs p hp hlive hsource).2 htarget hname ⟨hin, haddr⟩
    · exact htarget (target_eq_of_targetAddr hpacc hacc hname haddr)
  · rintro ⟨hsource, htarget⟩
    obtain ⟨hfill, huntouched⟩ := (hpairs p hp hlive hsource).1 htarget
    exact ⟨(incomingAddr_eq_iff hpwhole hwhole).2 ⟨hsource, hfill⟩,
      (targetAddr_eq_iff hpacc hacc htarget).2 huntouched⟩

theorem Uses.identity {s s' : Listener} {c : RemoteCtx} (hu : Uses r d s s' c) (hinv : Inv r s)
    (h : Identity r s) (hacc : accepts r d = true) (hdistinct : Distinct r d s) : Identity r s' := by
  have hpair : ∀ p ∈ s.log, Live s p.2 → (p.2 = c.id ↔ SameFlow r p.1 d) :=
    fun p hp hlive => hu.id_iff_sameFlow hinv h hacc hdistinct hp hlive
  constructor
  · -- two log entries, each of them the new one or an older one
    intro p hp q hq hplive hqlive
    rw [hu.log] at hp hq
    rcases List.mem_cons.1 hp with rfl | hp
    · rcases List.mem_cons.1 hq with rfl | hq
      · exact iff_of_true rfl (SameFlow.refl _)
      · rw [eq_comm, hpair q hq ((hu.live_iff hinv hq).1 hqlive)]
        exact ⟨SameFlow.symm, SameFlow.symm⟩
    · rcases List.mem_cons.1 hq with rfl | hq
      · exact hpair p hp ((hu.live_iff hinv hp).1 hplive)
      · exact h.same p hp q hq ((hu.live_iff hinv hp).1 hplive) ((hu.live_iff hinv hq).1 hqlive)
  · intro p hp c' hc' hid
    rw [((hu.inv hinv hacc).log_addr p hp c' hc' hid).1, incomingAddr_endpoint_iff]
    rw [hu.log] at hp
    rcases List.mem_cons.1 hp with rfl | hp
    · exact (hdistinct hacc).1
    · exact h.whole hinv hp ((hu.live_iff hinv hp).1 ⟨c', hc', hid⟩)

theorem identity_recv_iff {s : Listener} (hinv : Inv r s) (h : Identity r s) (d : Datagram) :
    Identity r (listenerRecvCb r d s) ↔ Distinct r d s := by
  by_cases hacc : accepts r d = true
  · obtain ⟨c, hu⟩ := listenerRecvCb_uses hinv hacc
    have hmem : c ∈ (listenerRecvCb r d s).connections := (hu.connections c).2 (.inl rfl)
    have hlog : (d, c.id) ∈ (listenerRecvCb r d s).log := by
      rw [hu.log]
      exact List.mem_cons_self ..
    have hold : ∀ p ∈ s.log, p ∈ (listenerRecvCb r d s).log := fun p hp => by
      rw [hu.log]
      exact List.mem_cons_of_mem _ hp
    refine ⟨?_, fun hdistinct => hu.identity hinv h hacc hdistinct⟩
    intro hnew _
    have hwhole : Whole d.source.ip := by
      rw [← incomingAddr_endpoint_iff, ← hu.incoming]
      exact hnew.reply _ hlog c hmem rfl
    refine ⟨hwhole, fun p hp hlive hsource => ?_⟩
    have hid := hnew.same p (hold p hp) (d, c.id) hlog ((hu.live_iff hinv hp).2 hlive) ⟨c, hmem, rfl⟩
    rw [hu.id_eq_iff hinv hacc hp hlive] at hid
    have hpacc := hinv.log_accepts p hp
    refine ⟨fun htarget => ?_, fun htarget _ hbytes => htarget (hid.1 hbytes).2⟩
    obtain ⟨hin, haddr⟩ := hid.2 ⟨hsource, htarget⟩
    exact ⟨((incomingAddr_eq_iff (h.whole hinv hp hlive) hwhole).1 hin).2,
      (targetAddr_eq_iff hpacc hacc htarget).1 haddr⟩
  · have hsame : listenerRecvCb r d s = s := if_neg hacc
    rw [hsame]
    exact iff_of_true h fun hacc' => absurd hacc' hacc

theorem identity_shutdown {s : Listener} (h : Identity r s) (id : ℕ) :
    Identity r (step r s (.shutdown id)) := by
  have hsub : ∀ c ∈ (step r s (.shutdown id)).connections, c ∈ s.connections :=
    fun c hc => List.mem_of_mem_filter hc
  have hlive : ∀ i, Live (step r s (.shutdown id)) i → Live s i := by
    rintro i ⟨c, hc, hid⟩
    exact ⟨c, hsub c hc, hid⟩
  exact ⟨fun p hp q hq hplive hqlive => h.same p hp q hq (hlive _ hplive) (hlive _ hqlive),
    fun p hp c hc => h.reply p hp c (hsub c hc)⟩

/-- Over every run, on the client and on the server: sessions are those of the full addresses, and
reply to them, in every state exactly when every datagram that arrives is told apart from those of
the live sessions. -/
theorem session_identity_iff (r : Role) (es : List Event) :
    (∀ es', es' <+: es → Identity r (es'.foldl (step r) start)) ↔ Legal (Safe r) (step r) start es := by
  refine forall_prefix_iff (fun s e h _ => step_inv s e h) ?_ inv_start ⟨nofun, nofun⟩
    (legal_forall_iff.2 fun _ _ => trivial)
  intro s e hinv _ h
  cases e with
  | recv d => exact identity_recv_iff hinv h d
  | shutdown id => exact iff_of_true (identity_shutdown h id) trivial

/-- The server clears `target_addr`, so where the targets are found and the system fills the source
addresses in one way, only the second half of an IPv6 source matters. -/
theorem server_distinct_iff {s : Listener} (hname : ¬ IsName (targetOf .server d))
    (hnames : ∀ p ∈ s.log, ¬ IsName (targetOf .server p.1)) (hfill : ∀ p ∈ s.log, p.1.fill = d.fill) :
    Distinct .server d s ↔ (accepts .server d = true → Whole d.source.ip) := by
  refine forall_congr' fun _ => and_iff_left ?_
  intro p hp _ hsource
  refine ⟨fun htarget => ⟨?_, ?_⟩, fun _ hboth => (hboth.elim (hnames p hp) hname).elim⟩
  · unfold copiedFill
    rw [hsource, hfill p hp]
  · unfold untouched
    rw [htarget]
    rfl

/-- A datagram from an IPv6 peer to port 53 of an IPv4 host. -/
def sampleDatagram (lo word8 : UInt64) : Datagram where
  source := ⟨.v6 1 lo, 9⟩
  fill := ⟨0, 0⟩
  data := [1, 127, 0, 0, 1, 0, 53, 7]
  lookup _ := none
  stack := { SockaddrUniversal.zero with word8 := word8 }
  passes := true

/-- The same as an application sends it to the client. -/
def clientDatagram (word8 : UInt64) : Datagram :=
  { sampleDatagram 0 word8 with data := [0, 0, 0, 1, 127, 0, 0, 1, 0, 53, 7] }

/-- On the server two peers share a session if their addresses differ in the second half; on the
client what is left on the stack gives one peer two sessions. -/
theorem sessions_confused :
    ¬ Identity .server
      ([Event.recv (sampleDatagram 2 0), .recv (sampleDatagram 3 0)].foldl (step .server) start) ∧
    ¬ Identity .client
      ([Event.recv (clientDatagram 0), .recv (clientDatagram 1)].foldl (step .client) start) := by
  constructor
  · intro h
    have hsame := h.same (sampleDatagram 2 0, 0) (.tail _ (.head _)) (sampleDatagram 3 0, 0) (.head _)
      ⟨_, .head _, rfl⟩ ⟨_, .head _, rfl⟩
    have hsource := (hsame.1 rfl).1
    injection hsource with hip
    injection hip with _ hlo
    exact absurd hlo (by decide)
  · intro h
    have hsame := h.same (clientDatagram 0, 0) (.tail _ (.head _)) (clientDatagram 1, 1) (.head _)
      ⟨_, .tail _ (.head _), rfl⟩ ⟨_, .head _, rfl⟩
    exact absurd (hsame.2 ⟨rfl, rfl⟩) (by decide)

end Session
end Udp
end SsrNative
