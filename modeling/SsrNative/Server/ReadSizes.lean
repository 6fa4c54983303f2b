import SsrNative.Bytes

/-!
# ReadSizes — how much the server reads from the target at once

Before every read libuv asks for a buffer, and `tunnel_get_alloc_size` says how large it is to be: over
TLS less than a segment of the client's connection, otherwise at most `_recv_d_max_size`.  With an AEAD
method there is no plugin, so the fields that `do_prepare_parse` copies from one keep their values.
-/

namespace SsrNative
namespace Server

open Bytes

def TCP_BUF_SIZE_MAX : ℕ := 16 * 1024 - 1

def NETWORK_MTU : ℕ := 1500

def SS_TCP_MSS : ℕ := NETWORK_MTU - 40

/-- `get_fd_tcp_mss`; `mss` is what `getsockopt` leaves. -/
def getFdTcpMss (mss : ℤ) : ℕ := if 50 < mss ∧ mss ≤ NETWORK_MTU then mss.toNat else SS_TCP_MSS

/-- `socket_arrived_data_size`; `peeked` is what `recv` returns. -/
def socketArrivedDataSize (peeked : ℤ) (suggestedSize : ℕ) : ℕ :=
  -- an error of `recv` is a huge size
  let dataSize := (peeked % 2 ^ 64).toNat
  let dataSize := if dataSize = 0 then suggestedSize else dataSize
  if 65536 ≤ dataSize then 65536 / 2 else dataSize

/-- `websocket_frame_size`. -/
def websocketFrameSize (masking : Bool) (payloadLen : ℕ) : ℕ :=
  let lenSize := if payloadLen ≤ 125 then 0 else if payloadLen ≤ 0xffff then 2 else 8
  2 + lenSize + (if masking then 4 else 0) + payloadLen

/-- The fields of `struct server_ctx` that decide about the size of a read. -/
structure ReadSizes where
  tcpMss : ℕ
  overhead : ℕ
  recvBufferSize : ℕ
  recvDMaxSize : ℕ

namespace ReadSizes

/-- `_init_done_cb`. -/
def initDone : ReadSizes := ⟨0, 0, TCP_BUF_SIZE_MAX, 0⟩

/-- `do_init_package` and `do_tls_init_package`. -/
def initPackage (s : ReadSizes) (mss : ℤ) : ReadSizes := { s with tcpMss := getFdTcpMss mss }

/-- `do_prepare_parse`; `info` has `overhead` and `buffer_size` of the plugin, if there is one. -/
def prepareParse (s : ReadSizes) (info : Option (ℕ × ℕ)) : ReadSizes :=
  let s :=
    match info with
    | none => s
    | some (overhead, bufferSize) => { s with overhead := overhead, recvBufferSize := bufferSize }
  { s with recvDMaxSize := TCP_BUF_SIZE_MAX }

/-- `_get_read_size`. -/
def getReadSize (s : ReadSizes) (peeked : ℤ) (suggestedSize : ℕ) : ReadSizes × ℕ :=
  if s.overhead ≠ 0 then (s, suggestedSize)
  else
    let bufferSize := socketArrivedDataSize peeked suggestedSize
    let frameSize := subSize s.tcpMss s.overhead
    let bufferSize := min bufferSize s.recvDMaxSize
    let s := { s with recvDMaxSize := min (s.recvDMaxSize + frameSize) TCP_BUF_SIZE_MAX }
    if bufferSize = suggestedSize then (s, bufferSize)
    else if frameSize < bufferSize then (s, bufferSize / frameSize * frameSize)
    else (s, bufferSize)

/-- `_tls_get_read_size`. -/
def tlsGetReadSize (s : ReadSizes) (peeked : ℤ) (suggestedSize : ℕ) : ℕ :=
  let dataSize := socketArrivedDataSize peeked suggestedSize
  if s.tcpMss ≤ websocketFrameSize false dataSize then subSize s.tcpMss (2 + 2 + 0) else dataSize

/-- `tunnel_get_alloc_size` for the connection to the target. -/
def outgoingAllocSize (overTlsEnable : Bool) (s : ReadSizes) (peeked : ℤ) (suggestedSize : ℕ) :
    ReadSizes × ℕ :=
  if overTlsEnable then (s, s.tlsGetReadSize peeked suggestedSize)
  else s.getReadSize peeked s.recvBufferSize

/-- The sizes when something is read from the target, with an AEAD method: the first package and its
header have been seen, and some reads may have come before. -/
inductive Reading (overTlsEnable : Bool) : ReadSizes → Prop where
  | start (mss : ℤ) : Reading overTlsEnable ((initDone.initPackage mss).prepareParse none)
  | next {s : ReadSizes} (peeked : ℤ) (suggestedSize : ℕ) :
      Reading overTlsEnable s → Reading overTlsEnable (outgoingAllocSize overTlsEnable s peeked suggestedSize).1

/-- The bounds that the sizes keep. -/
structure Bounded (s : ReadSizes) : Prop where
  mss_pos : 50 < s.tcpMss
  mss_le : s.tcpMss ≤ NETWORK_MTU
  overhead : s.overhead = 0
  buffer : s.recvBufferSize = TCP_BUF_SIZE_MAX
  max_le : s.recvDMaxSize ≤ TCP_BUF_SIZE_MAX

theorem getFdTcpMss_bounds (mss : ℤ) : 50 < getFdTcpMss mss ∧ getFdTcpMss mss ≤ NETWORK_MTU := by
  unfold getFdTcpMss
  split_ifs with h
  · unfold NETWORK_MTU at h ⊢
    omega
  · exact ⟨by decide, by decide⟩

theorem bounded_start (mss : ℤ) : Bounded ((initDone.initPackage mss).prepareParse none) := by
  obtain ⟨hpos, hle⟩ := getFdTcpMss_bounds mss
  exact ⟨hpos, hle, rfl, rfl, Nat.le_refl _⟩

theorem le_websocketFrameSize (n : ℕ) : n ≤ websocketFrameSize false n := by
  unfold websocketFrameSize
  exact Nat.le_add_left _ _

theorem Bounded.getReadSize {s : ReadSizes} (h : Bounded s) (peeked : ℤ) (suggestedSize : ℕ) :
    Bounded (s.getReadSize peeked suggestedSize).1 ∧
      (s.getReadSize peeked suggestedSize).2 ≤ TCP_BUF_SIZE_MAX := by
  have hmax : min (socketArrivedDataSize peeked suggestedSize) s.recvDMaxSize ≤ TCP_BUF_SIZE_MAX :=
    Nat.le_trans (Nat.min_le_right _ _) h.max_le
  have hnext : Bounded { s with
      recvDMaxSize := min (s.recvDMaxSize + subSize s.tcpMss s.overhead) TCP_BUF_SIZE_MAX } :=
    ⟨h.mss_pos, h.mss_le, h.overhead, h.buffer, Nat.min_le_right _ _⟩
  unfold ReadSizes.getReadSize
  rw [if_neg (not_not.2 h.overhead)]
  dsimp only
  split_ifs
  · exact ⟨hnext, hmax⟩
  · exact ⟨hnext, Nat.le_trans (Nat.div_mul_le_self _ _) hmax⟩
  · exact ⟨hnext, hmax⟩

theorem Bounded.tlsGetReadSize_le {s : ReadSizes} (h : Bounded s) (peeked : ℤ) (suggestedSize : ℕ) :
    s.tlsGetReadSize peeked suggestedSize ≤ NETWORK_MTU := by
  have hpos := h.mss_pos
  have hle := h.mss_le
  unfold tlsGetReadSize
  dsimp only
  split_ifs with hframe
  · rw [subSize_of_le (by omega)]
    omega
  · have hdata := le_websocketFrameSize (socketArrivedDataSize peeked suggestedSize)
    omega

theorem Bounded.outgoingAllocSize {s : ReadSizes} (h : Bounded s) (overTlsEnable : Bool) (peeked : ℤ)
    (suggestedSize : ℕ) :
    Bounded (s.outgoingAllocSize overTlsEnable peeked suggestedSize).1 ∧
      (s.outgoingAllocSize overTlsEnable peeked suggestedSize).2 ≤ TCP_BUF_SIZE_MAX := by
  cases overTlsEnable with
  | true => exact ⟨h, Nat.le_trans (h.tlsGetReadSize_le peeked suggestedSize) (by decide)⟩
  | false => exact h.getReadSize peeked s.recvBufferSize

theorem Reading.bounded {overTlsEnable : Bool} {s : ReadSizes} (h : Reading overTlsEnable s) :
    Bounded s := by
  induction h with
  | start mss => exact bounded_start mss
  | next peeked suggestedSize _ ih => exact (ih.outgoingAllocSize _ peeked suggestedSize).1

end ReadSizes
end Server
end SsrNative
