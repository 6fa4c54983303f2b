import SsrNative.Lib.ByteOrder
import SsrNative.Lib.Transition
import SsrNative.SsrBuffer
import SsrNative.Obfs.AuthChainOutBuffer
import SsrNative.Obfs.PackBuffers

/-!
# GlobalBlock — the block that all connections of a client share

`auth.c` and `auth_chain.c` keep a client id and the number of the last connection in one block of
memory.  Each authentication frame counts the number up; above `0xFF000000` both are drawn anew.  The
two files declare client ids of different sizes, and both draw eight bytes for it.
-/

namespace SsrNative
namespace Obfs
namespace GlobalBlock

open Bytes
open Lib.ByteOrder (Order)
open Lib.Segments (run)
open Lib.Transition

/-! ## The block in memory -/

/-- `local_client_id[idSize]` with `connection_id` behind it. -/
structure Layout where
  idSize : ℕ
  four_le : 4 ≤ idSize
  le_eight : idSize ≤ 8

/-- `auth_simple_global_data`. -/
def authSimple : Layout := ⟨8, by decide, by decide⟩

/-- `struct auth_chain_global_data`. -/
def authChain : Layout := ⟨4, by decide, by decide⟩

/-- What `rand_bytes` writes: up to eight bytes for the client id, and four that are read as a number. -/
structure Draws where
  clientId : ℕ → UInt8
  connectionId : ℕ

section Memory

variable (host : Order) (L : Layout)

def connectionId (mem : Bytes) : ℕ := host.value (window mem L.idSize 4)

def setConnectionId (mem : Bytes) (n : ℕ) : Bytes := writeAt mem L.idSize (host.lay 4 n)

/-- `rand_bytes(&connection_id, 4); connection_id &= 0xFFFFFF`. -/
def drawConnectionId (mem : Bytes) (d : Draws) : Bytes :=
  let mem := setConnectionId host L mem d.connectionId
  setConnectionId host L mem (connectionId host L mem &&& 0xFFFFFF)

/-- The block as it is allocated and drawn first; `behind` is what the heap has there. -/
def initBlock (d : Draws) (behind : Bytes) : Bytes :=
  let mem := List.replicate (L.idSize + 4) 0 ++ behind
  let mem := writeAt mem 0 (randBytes d.clientId L.idSize)
  drawConnectionId host L mem d

/-- Another client id: eight bytes, whatever the size of the array. -/
def renew (mem : Bytes) (d : Draws) : Bytes :=
  let mem := writeAt mem 0 (randBytes d.clientId 8)
  drawConnectionId host L mem d

/-- `++connection_id > 0xFF000000`. -/
def Renews (mem : Bytes) : Prop :=
  0xFF000000 < connectionId host L (setConnectionId host L mem (connectionId host L mem + 1))

instance (mem : Bytes) : Decidable (Renews host L mem) := inferInstanceAs (Decidable (_ < _))

/-- What every authentication frame does to the block. -/
def nextConnection (mem : Bytes) (d : Draws) : Bytes :=
  let mem' := setConnectionId host L mem (connectionId host L mem + 1)
  if Renews host L mem then renew host L mem' d else mem'

/-- The block with these fields. -/
def block (id : Bytes) (n : ℕ) (behind : Bytes) : Bytes := id ++ (host.lay 4 n ++ behind)

variable {host L}

theorem connectionId_block {id behind : Bytes} {n : ℕ} (hid : id.length = L.idSize) (hn : n < 4294967296) :
    connectionId host L (block host id n behind) = n := by
  rw [connectionId, block, window_field hid (Order.lay_length _ _ _), Order.value_lay]
  exact Nat.mod_eq_of_lt hn

theorem setConnectionId_field {id old behind : Bytes} (hid : id.length = L.idSize) (hold : old.length = 4)
    (n : ℕ) : setConnectionId host L (id ++ (old ++ behind)) n = block host id n behind :=
  writeAt_field hid (hold.trans (Order.lay_length _ _ _).symm)

theorem setConnectionId_block {id behind : Bytes} {n m : ℕ} (hid : id.length = L.idSize) :
    setConnectionId host L (block host id n behind) m = block host id m behind :=
  setConnectionId_field hid (Order.lay_length _ _ _) m

/-- The mask leaves 24 bits of the draw. -/
theorem drawConnectionId_field {id old behind : Bytes} (hid : id.length = L.idSize) (hold : old.length = 4)
    (d : Draws) :
    drawConnectionId host L (id ++ (old ++ behind)) d =
      block host id (d.connectionId % 0x1000000) behind := by
  have hmask : d.connectionId % 256 ^ 4 &&& 0xFFFFFF = d.connectionId % 0x1000000 := by
    rw [show 0xFFFFFF = 2 ^ 24 - 1 by rfl, Nat.and_two_pow_sub_one_eq_mod]
    omega
  have hread : connectionId host L (block host id d.connectionId behind) = d.connectionId % 256 ^ 4 := by
    rw [connectionId, block, window_field hid (Order.lay_length _ _ _), Order.value_lay]
  rw [drawConnectionId, setConnectionId_field hid hold, setConnectionId_block hid, hread, hmask]

theorem initBlock_eq (d : Draws) (behind : Bytes) :
    initBlock host L d behind =
      block host (randBytes d.clientId L.idSize) (d.connectionId % 0x1000000) behind := by
  have hfirst : writeAt (List.replicate (L.idSize + 4) 0 ++ behind) 0 (randBytes d.clientId L.idSize) =
      randBytes d.clientId L.idSize ++ (List.replicate 4 0 ++ behind) := by
    rw [List.replicate_add, List.append_assoc]
    exact writeAt_field (a := []) rfl (by simp)
  rw [initBlock, hfirst, drawConnectionId_field (randBytes_length _ _) List.length_replicate]

/-- Eight bytes do not reach what stands behind the block: what is not client id is written over. -/
theorem renew_block {id behind : Bytes} {n : ℕ} (hid : id.length = L.idSize) (d : Draws) :
    renew host L (block host id n behind) d =
      block host (randBytes d.clientId L.idSize) (d.connectionId % 0x1000000) behind := by
  have hfour := L.four_le
  have height := L.le_eight
  have htake : (randBytes d.clientId 8).take L.idSize = randBytes d.clientId L.idSize := by
    rw [randBytes, randBytes, ← List.map_take, List.take_range, Nat.min_eq_left height]
  have hsplit := List.take_append_drop L.idSize (randBytes d.clientId 8)
  rw [htake] at hsplit
  have hover : writeAt (block host id n behind) 0 (randBytes d.clientId 8) =
      randBytes d.clientId L.idSize ++
        (((randBytes d.clientId 8).drop L.idSize ++ (host.lay 4 n).drop (8 - L.idSize)) ++ behind) := by
    rw [writeAt, List.take_zero, List.nil_append, Nat.zero_add, randBytes_length, block, List.drop_append,
      List.drop_eq_nil_of_le (by omega), List.nil_append, hid, List.drop_append, Order.lay_length,
      Nat.sub_eq_zero_of_le (by omega : 8 - L.idSize ≤ 4), List.drop_zero]
    conv_lhs => rw [← hsplit]
    simp only [List.append_assoc]
  rw [renew, hover, drawConnectionId_field (randBytes_length _ _)]
  rw [List.length_append, List.length_drop, List.length_drop, randBytes_length, Order.lay_length]
  omega

/-- Every memory with room for the block has one. -/
theorem exists_block {mem : Bytes} (h : L.idSize + 4 ≤ mem.length) :
    ∃ id n, id.length = L.idSize ∧ mem = block host id n (mem.drop (L.idSize + 4)) := by
  have hid : (mem.take L.idSize).length = L.idSize := by
    rw [List.length_take]
    omega
  have hnumber : ((mem.drop L.idSize).take 4).length = 4 := by
    rw [List.length_take, List.length_drop]
    omega
  refine ⟨mem.take L.idSize, host.value ((mem.drop L.idSize).take 4), hid, ?_⟩
  rw [block, Order.lay_value_of_length host hnumber, ← List.drop_drop, List.take_append_drop,
    List.take_append_drop]

/-- A renewal writes to the two fields and to nothing else. -/
theorem renew_frame {mem : Bytes} (h : L.idSize + 4 ≤ mem.length) (d : Draws) :
    (renew host L mem d).length = mem.length ∧
      (renew host L mem d).drop (L.idSize + 4) = mem.drop (L.idSize + 4) := by
  have hblock : ∃ id n, id.length = L.idSize ∧ mem = block host id n (mem.drop (L.idSize + 4)) := exists_block h
  rcases hblock with ⟨id, n, hid, hmem⟩
  have hlen : ∀ (id : Bytes) n, id.length = L.idSize →
      (id ++ host.lay 4 n).length = L.idSize + 4 := by
    intro id n hid
    rw [List.length_append, hid, Order.lay_length]
  rw [hmem, renew_block hid, ← hmem]
  constructor
  · rw [block, ← List.append_assoc, List.length_append, hlen _ _ (randBytes_length _ _), List.length_drop]
    omega
  · rw [block, ← List.append_assoc]
    exact List.drop_left' (hlen _ _ (randBytes_length _ _))

/-! ## Counting -/

theorem renews_block {id behind : Bytes} {n : ℕ} (hid : id.length = L.idSize) (hn : n ≤ 0xFF000000) :
    Renews host L (block host id n behind) ↔ n = 0xFF000000 := by
  rw [Renews, connectionId_block hid (by omega), setConnectionId_block hid,
    connectionId_block hid (by omega)]
  omega

theorem nextConnection_block {id behind : Bytes} {n : ℕ} (hid : id.length = L.idSize)
    (hn : n ≤ 0xFF000000) (d : Draws) :
    nextConnection host L (block host id n behind) d =
      if n = 0xFF000000 then
        block host (randBytes d.clientId L.idSize) (d.connectionId % 0x1000000) behind
      else block host id (n + 1) behind := by
  rw [nextConnection, connectionId_block hid (by omega), setConnectionId_block hid]
  simp only [renews_block hid hn, renew_block hid]

/-- The block between two calls. -/
def Counted (host : Order) (L : Layout) (mem : Bytes) : Prop :=
  ∃ id n behind, id.length = L.idSize ∧ n ≤ 0xFF000000 ∧ mem = block host id n behind

theorem initBlock_counted (d : Draws) (behind : Bytes) : Counted host L (initBlock host L d behind) := by
  have hlow : d.connectionId % 0x1000000 < 0x1000000 := Nat.mod_lt _ (by decide)
  exact ⟨_, _, behind, randBytes_length _ _, by omega, initBlock_eq d behind⟩

theorem nextConnection_counted {mem : Bytes} (h : Counted host L mem) (d : Draws) :
    Counted host L (nextConnection host L mem d) := by
  rcases h with ⟨id, n, behind, hid, hn, rfl⟩
  rw [nextConnection_block hid hn]
  by_cases hlast : n = 0xFF000000
  · have hlow : d.connectionId % 0x1000000 < 0x1000000 := Nat.mod_lt _ (by decide)
    rw [if_pos hlast]
    exact ⟨_, _, behind, randBytes_length _ _, by omega, rfl⟩
  · rw [if_neg hlast]
    exact ⟨id, n + 1, behind, hid, by omega, rfl⟩

theorem Counted.connectionId_le {mem : Bytes} (h : Counted host L mem) :
    connectionId host L mem ≤ 0xFF000000 := by
  rcases h with ⟨id, n, behind, hid, hn, rfl⟩
  rw [connectionId_block hid (by omega)]
  exact hn

/-- What a frame shows of the block. -/
def shown (host : Order) (L : Layout) (mem : Bytes) : Bytes × ℕ :=
  (window mem 0 4, connectionId host L mem)

/-- As long as nothing is drawn anew, the client id stays and the number goes up with each call. -/
theorem foldl_nextConnection {ds : List Draws} {id behind : Bytes} {n : ℕ} (hid : id.length = L.idSize)
    (hn : n ≤ 0xFF000000)
    (hkeep : Legal (fun mem _ => ¬ Renews host L mem) (nextConnection host L) (block host id n behind) ds) :
    ds.foldl (nextConnection host L) (block host id n behind) = block host id (n + ds.length) behind ∧
      n + ds.length ≤ 0xFF000000 := by
  induction ds generalizing n with
  | nil => exact ⟨rfl, hn⟩
  | cons d ds ih =>
      have hlast : n ≠ 0xFF000000 := fun h => hkeep.1 ((renews_block hid hn).2 h)
      have hnext : nextConnection host L (block host id n behind) d = block host id (n + 1) behind := by
        rw [nextConnection_block hid hn, if_neg hlast]
      have hrest := hkeep.2
      rw [hnext] at hrest
      have hcount := ih (by omega) hrest
      rw [List.foldl_cons, hnext, hcount.1, List.length_cons, Nat.add_assoc, Nat.add_comm 1]
      exact ⟨rfl, by omega⟩

theorem shown_ne {mem : Bytes} (h : Counted host L mem) {ds : List Draws} (hne : ds ≠ [])
    (hkeep : Legal (fun mem _ => ¬ Renews host L mem) (nextConnection host L) mem ds) :
    shown host L mem ≠ shown host L (ds.foldl (nextConnection host L) mem) := by
  rcases h with ⟨id, n, behind, hid, hn, rfl⟩
  have hcount := foldl_nextConnection hid hn hkeep
  have hpos := List.length_pos_iff.2 hne
  intro heq
  have hnumber := congrArg Prod.snd heq
  rw [shown, shown, hcount.1] at hnumber
  dsimp only at hnumber
  rw [connectionId_block hid (by omega), connectionId_block hid (by omega)] at hnumber
  omega

end Memory

/-! ## Runs -/

section Runs

variable {host : Order} {L : Layout} {C : Type*}

/-- Two frames of a run show different pairs, unless the block was drawn anew behind the first of them
and not later than with the second. -/
def DistinctBetweenRenewals (host : Order) (L : Layout) (call : Bytes → C → Bytes × Bytes)
    (pair : C → Bytes → Bytes × ℕ) (mem : Bytes) : Prop :=
  ∀ before c between c',
    let mem := (run call mem before).1
    let first := call mem c
    let second := call (run call first.1 between).1 c'
    Legal (fun mem _ => ¬ Renews host L mem) (fun mem c => (call mem c).1) first.1 (between ++ [c']) →
      pair c first.2 ≠ pair c' second.2

/-- The number fits into its 32 bits at every call, counted up once more. -/
def NeverWraps (host : Order) (L : Layout) (call : Bytes → C → Bytes × Bytes) (mem : Bytes) : Prop :=
  ∀ calls, connectionId host L (run call mem calls).1 + 1 < 4294967296

variable {call : Bytes → C → Bytes × Bytes} {draws : C → Draws} {pair : C → Bytes → Bytes × ℕ}
  (hmem : ∀ mem c, (call mem c).1 = nextConnection host L mem (draws c))
include hmem

theorem run_counted {mem : Bytes} (h : Counted host L mem) (calls : List C) :
    Counted host L (run call mem calls).1 := by
  refine Lib.Segments.run_invariant (fun mem c hc => ?_) h calls
  rw [hmem]
  exact nextConnection_counted hc (draws c)

theorem run_mem (mem : Bytes) (calls : List C) :
    (run call mem calls).1 = (calls.map draws).foldl (nextConnection host L) mem := by
  induction calls generalizing mem with
  | nil => rfl
  | cons c calls ih => rw [Lib.Segments.run_cons, ih, hmem, List.map_cons, List.foldl_cons]

theorem legal_draws {mem : Bytes} {calls : List C}
    (h : Legal (fun mem _ => ¬ Renews host L mem) (fun mem c => (call mem c).1) mem calls) :
    Legal (fun mem _ => ¬ Renews host L mem) (nextConnection host L) mem (calls.map draws) := by
  induction calls generalizing mem with
  | nil => trivial
  | cons c calls ih =>
      have hrest := ih h.2
      dsimp only at hrest
      rw [hmem] at hrest
      exact ⟨h.1, hrest⟩

theorem neverWraps {mem : Bytes} (h : Counted host L mem) : NeverWraps host L call mem := by
  intro calls
  have hle := (run_counted hmem h calls).connectionId_le
  omega

theorem distinctBetweenRenewals {mem : Bytes} (h : Counted host L mem)
    (hpair : ∀ mem c, Counted host L (call mem c).1 → pair c (call mem c).2 = shown host L (call mem c).1) :
    DistinctBetweenRenewals host L call pair mem := by
  intro before c between c' mem' first second hkeep
  have hfirst : Counted host L first.1 := by
    have hcounted := run_counted hmem h (before ++ [c])
    rwa [Lib.Segments.run_append] at hcounted
  -- the calls from behind the first frame to the second
  have hlast : second.1 = (run call first.1 (between ++ [c'])).1 := by
    rw [Lib.Segments.run_append]
    rfl
  have hsecond : Counted host L second.1 := by
    rw [hlast]
    exact run_counted hmem hfirst _
  have hne : (between ++ [c']).map draws ≠ [] := by simp
  rw [hpair mem' c hfirst, hpair _ c' hsecond, hlast, run_mem hmem]
  exact shown_ne hfirst hne (legal_draws hmem hkeep)

end Runs

/-! ## The frames of the two files -/

/-- The client id and the number in the sixteen bytes that are encrypted. -/
def placed (head : Bytes) : Bytes × ℕ := (window head 4 4, rdLe32 head 8)

/-- Both files put them behind the time. -/
theorem placed_head {host : Order} {L : Layout} {id : Bytes} (hid : id.length = L.idSize) {n : ℕ}
    (hn : n < 4294967296) (behind : Bytes) (time : ℕ) (l : Bytes) :
    placed (le32 time ++ (window id 0 4 ++ (le32 n ++ l))) = shown host L (block host id n behind) := by
  have hfour : 0 + 4 ≤ id.length := hid ▸ L.four_le
  have hnumber : rdLe32 (le32 time ++ (window id 0 4 ++ (le32 n ++ l))) 8 = n := by
    rw [← List.append_assoc, rdLe32_field (by simp), Nat.mod_eq_of_lt hn]
  rw [placed, window_field (le32_length _) (window_length _ _ _), hnumber, shown, connectionId_block hid hn,
    block, window_append_left hfour]

section AuthAes128

open AuthAes128 (ServerInfo LocalData AuthDraws GlobalData Suite authFrame clientUser encKey authPlain
  packAuthData)

/-- One authentication frame of one of the connections. -/
structure Aes128Call where
  info : ServerInfo
  l : LocalData
  uid_length : l.uid.length = 4
  d : AuthDraws
  data : Bytes

def Aes128Call.draws (c : Aes128Call) : Draws := ⟨c.d.clientId, c.d.connectionId⟩

/-- The fields as they are read. -/
def aes128Global (host : Order) (mem : Bytes) : GlobalData :=
  ⟨window mem 0 8, connectionId host authSimple mem⟩

/-- `auth_aes128_sha1_pack_auth_data` on the block in memory. -/
def aes128PackAuthData (host : Order) (S : Suite) (mem : Bytes) (c : Aes128Call) : Bytes × Bytes :=
  let mem := nextConnection host authSimple mem c.draws
  (mem, authFrame S (c.info.iv ++ c.info.key) (clientUser S c.info c.l c.d) (aes128Global host mem) c.d
    c.data)

/-- What the server decrypts of a frame. -/
def aes128Head (S : Suite) (c : Aes128Call) (frame : Bytes) : Bytes :=
  S.aes.decrypt (encKey S (clientUser S c.info c.l c.d).2) (window frame 11 16)

variable {host : Order} {S : Suite}

theorem aes128Global_block {id behind : Bytes} {n : ℕ} (hid : id.length = authSimple.idSize)
    (hn : n < 4294967296) : aes128Global host (block host id n behind) = ⟨id, n⟩ := by
  have height : id.length = 8 := hid
  rw [aes128Global, connectionId_block hid hn, block, window_zero_append height]

/-- The memory follows the data of `packAuthData`. -/
theorem aes128PackAuthData_block {g : GlobalData} (hid : g.localClientId.length = authSimple.idSize)
    (hn : g.connectionId ≤ 0xFF000000) (behind : Bytes) (c : Aes128Call) :
    let r := packAuthData S c.info g c.l c.d c.data
    aes128PackAuthData host S (block host g.localClientId g.connectionId behind) c =
      (block host r.1.1.localClientId r.1.1.connectionId behind, r.2) := by
  have hlow : c.d.connectionId % 0x1000000 < 0x1000000 := Nat.mod_lt _ (by decide)
  rw [aes128PackAuthData, nextConnection_block hid hn, packAuthData, AuthAes128.nextConnection]
  by_cases hlast : g.connectionId = 0xFF000000
  · have habove : 0xFF000000 < g.connectionId + 1 := by omega
    rw [if_pos hlast, if_pos habove, aes128Global_block (randBytes_length _ _) (by omega)]
    rfl
  · have hbelow : ¬ 0xFF000000 < g.connectionId + 1 := by omega
    rw [if_neg hlast, if_neg hbelow, aes128Global_block hid (by omega)]

theorem placed_aes128Head (mem : Bytes) (c : Aes128Call)
    (h : Counted host authSimple (aes128PackAuthData host S mem c).1) :
    placed (aes128Head S c (aes128PackAuthData host S mem c).2) =
      shown host authSimple (aes128PackAuthData host S mem c).1 := by
  rcases h with ⟨id, n, behind, hid, hn, hblock⟩
  have hn' : n < 4294967296 := by omega
  have huser : (clientUser S c.info c.l c.d).1.length = 4 := PackBuffers.aesClientUser_length c.uid_length c.d
  have hframe : (aes128PackAuthData host S mem c).2 =
      authFrame S (c.info.iv ++ c.info.key) (clientUser S c.info c.l c.d) ⟨id, n⟩ c.d c.data := by
    have hglobal : aes128Global host (block host id n behind) = ⟨id, n⟩ := aes128Global_block hid hn'
    rw [← hglobal, ← hblock]
    rfl
  have hhead : aes128Head S c (aes128PackAuthData host S mem c).2 = authPlain ⟨id, n⟩ c.d c.data := by
    have hfields : authFrame S (c.info.iv ++ c.info.key) (clientUser S c.info c.l c.d) ⟨id, n⟩ c.d c.data ++
        [] = _ := AuthAes128.authFrame_fields _ []
    have hcipher := S.aes.encrypt_length (encKey S (clientUser S c.info c.l c.d).2)
      (authPlain ⟨id, n⟩ c.d c.data)
    have hcheck : ((S.hmac.run [c.d.first] (c.info.iv ++ c.info.key)).take 6).length = 6 := by
      rw [List.length_take, Mac.run_length]
      exact Nat.min_eq_left S.size_le
    rw [List.append_nil] at hfields
    rw [aes128Head, hframe, hfields, ← List.append_assoc, ← List.append_assoc,
      window_field (by simp only [List.length_append, List.length_singleton, hcheck, huser]) hcipher]
    exact S.aes.decrypt_encrypt _ _ (AuthAes128.authPlain_length _ _ _)
  rw [hhead, hblock]
  exact placed_head hid hn' behind _ _

end AuthAes128

section AuthChain

open AuthChain (ServerInfo Context SendDraws GlobalData Suite Variant authHead authHeader authContext
  clientUser encKey maskedUid packAuthData packClientData)

/-- One authentication frame of one of the connections. -/
structure ChainCall (S : Suite) where
  info : ServerInfo
  l : Context S
  uid_length : l.uid.length = 4
  d : SendDraws
  data : Bytes

def ChainCall.draws {S : Suite} (c : ChainCall S) : Draws := ⟨c.d.auth.clientId, c.d.auth.connectionId⟩

def chainGlobal (host : Order) (mem : Bytes) : GlobalData :=
  ⟨window mem 0 4, connectionId host authChain mem⟩

/-- `auth_chain_a_pack_auth_data` on the block in memory. -/
def chainPackAuthData (host : Order) (V : Variant) (S : Suite) (mem : Bytes) (c : ChainCall S) :
    Bytes × Bytes :=
  let mem := nextConnection host authChain mem c.draws
  let g := chainGlobal host mem
  let header := authHeader V S (c.info.iv ++ c.info.key) (randBytes c.d.auth.head 4)
    (clientUser S c.info c.l c.d.auth) (authHead g c.d.auth.time c.info.overhead)
  (mem, header ++ (packClientData V S (authContext V S c.info g c.l c.d.auth) (c.d.pad 0) c.data).2)

/-- What the server decrypts of a frame. -/
def chainHead (V : Variant) (S : Suite) (c : ChainCall S) (frame : Bytes) : Bytes :=
  S.aes.decrypt (encKey V (clientUser S c.info c.l c.d.auth).2) (window frame 16 16)

variable {host : Order} {V : Variant} {S : Suite}

theorem chainGlobal_block {id behind : Bytes} {n : ℕ} (hid : id.length = authChain.idSize)
    (hn : n < 4294967296) : chainGlobal host (block host id n behind) = ⟨id, n⟩ := by
  have hfour : id.length = 4 := hid
  rw [chainGlobal, connectionId_block hid hn, block, window_zero_append hfour]

/-- The memory follows the data of `packAuthData`; the eight bytes that are drawn for four make no
difference. -/
theorem chainPackAuthData_block {g : GlobalData} (hid : g.localClientId.length = authChain.idSize)
    (hn : g.connectionId ≤ 0xFF000000) (behind : Bytes) (c : ChainCall S) :
    let r := packAuthData V S c.info g c.l c.d c.data
    chainPackAuthData host V S (block host g.localClientId g.connectionId behind) c =
      (block host r.1.1.localClientId r.1.1.connectionId behind, r.2) := by
  have hlow : c.d.auth.connectionId % 0x1000000 < 0x1000000 := Nat.mod_lt _ (by decide)
  rw [chainPackAuthData, nextConnection_block hid hn, packAuthData, AuthChain.nextConnection]
  by_cases hlast : g.connectionId = 0xFF000000
  · have habove : 0xFF000000 < g.connectionId + 1 := by omega
    rw [if_pos hlast, if_pos habove, chainGlobal_block (randBytes_length _ _) (by omega)]
    rfl
  · have hbelow : ¬ 0xFF000000 < g.connectionId + 1 := by omega
    rw [if_neg hlast, if_neg hbelow, chainGlobal_block hid (by omega)]

theorem placed_chainHead (mem : Bytes) (c : ChainCall S)
    (h : Counted host authChain (chainPackAuthData host V S mem c).1) :
    placed (chainHead V S c (chainPackAuthData host V S mem c).2) =
      shown host authChain (chainPackAuthData host V S mem c).1 := by
  rcases h with ⟨id, n, behind, hid, hn, hblock⟩
  have hn' : n < 4294967296 := by omega
  have huser := AuthChain.clientUser_uid_length c.uid_length c.info c.d.auth
  have hglobal : chainGlobal host (nextConnection host authChain mem c.draws) = ⟨id, n⟩ := by
    have hshown : chainGlobal host (block host id n behind) = ⟨id, n⟩ := chainGlobal_block hid hn'
    rw [← hshown, ← hblock]
    rfl
  have hhead : chainHead V S c (chainPackAuthData host V S mem c).2 =
      authHead ⟨id, n⟩ c.d.auth.time c.info.overhead := by
    have hplain : (authHead ⟨id, n⟩ c.d.auth.time c.info.overhead).length = 16 := by simp [authHead]
    have hcipher := S.aes.encrypt_length (encKey V (clientUser S c.info c.l c.d.auth).2)
      (authHead ⟨id, n⟩ c.d.auth.time c.info.overhead)
    have hhash : ∀ msg key, ((S.hmac.run msg key).take 8).length = 8 := by
      intro msg key
      rw [List.length_take, Mac.run_length]
      decide
    rw [chainHead, chainPackAuthData, hglobal, authHeader]
    simp only [List.append_assoc]
    rw [← List.append_assoc, ← List.append_assoc,
      window_field (by simp only [List.length_append, randBytes_length, hhash, maskedUid,
        Lib.Hash.xorWith_length, huser]) hcipher]
    exact S.aes.decrypt_encrypt _ _ hplain
  rw [hhead, hblock]
  exact placed_head hid hn' behind _ _

end AuthChain

/-- From the block as it is drawn first: in every run of connections of one client, the pairs in the
frames differ between two renewals, and the number never wraps; and a renewal leaves everything but the
two fields as it is. -/
theorem connection_ids_distinct (host : Order) (d : Draws) (behind : Bytes) :
    (∀ S, DistinctBetweenRenewals host authSimple (aes128PackAuthData host S)
        (fun c frame => placed (aes128Head S c frame)) (initBlock host authSimple d behind) ∧
      NeverWraps host authSimple (aes128PackAuthData host S) (initBlock host authSimple d behind)) ∧
    (∀ V S, DistinctBetweenRenewals host authChain (chainPackAuthData host V S)
        (fun c frame => placed (chainHead V S c frame)) (initBlock host authChain d behind) ∧
      NeverWraps host authChain (chainPackAuthData host V S) (initBlock host authChain d behind)) ∧
    ∀ (L : Layout) (mem : Bytes) (d : Draws), L.idSize + 4 ≤ mem.length →
      (renew host L mem d).length = mem.length ∧
        (renew host L mem d).drop (L.idSize + 4) = mem.drop (L.idSize + 4) := by
  refine ⟨fun S => ?_, fun V S => ?_, fun L mem d hroom => renew_frame hroom d⟩
  · have hinit : Counted host authSimple (initBlock host authSimple d behind) := initBlock_counted d behind
    have hmem : ∀ mem c, (aes128PackAuthData host S mem c).1 = nextConnection host authSimple mem c.draws :=
      fun _ _ => rfl
    exact ⟨distinctBetweenRenewals hmem hinit placed_aes128Head, neverWraps hmem hinit⟩
  · have hinit : Counted host authChain (initBlock host authChain d behind) := initBlock_counted d behind
    have hmem : ∀ mem c, (chainPackAuthData host V S mem c).1 = nextConnection host authChain mem c.draws :=
      fun _ _ => rfl
    exact ⟨distinctBetweenRenewals hmem hinit placed_chainHead, neverWraps hmem hinit⟩

def sampleCall : Aes128Call :=
  ⟨AuthAes128.sampleInfo, AuthAes128.localDataInit 0, rfl, AuthAes128.sampleDraws.auth, [7]⟩

def sampleChainCall : ChainCall AuthChain.suite where
  info := ⟨List.replicate 16 1, List.replicate 16 2, List.replicate 16 3, 4, none⟩
  l := AuthChain.contextInit AuthChain.suite 1460
  uid_length := rfl
  d := ⟨⟨fun _ => 7, 1500000000, fun _ => 1, fun _ => 2, 3⟩, fun _ _ => 9⟩
  data := [7]

theorem connection_ids_distinct_two :
    (let call := aes128PackAuthData .little AuthAes128.authAes128Md5
      let first := call (initBlock .little authSimple ⟨fun _ => 1, 5⟩ []) sampleCall
      placed (aes128Head AuthAes128.authAes128Md5 sampleCall first.2) ≠
        placed (aes128Head AuthAes128.authAes128Md5 sampleCall (call first.1 sampleCall).2)) ∧
    (let call := chainPackAuthData .little AuthChain.authChainA AuthChain.suite
      let first := call (initBlock .little authChain ⟨fun _ => 1, 5⟩ []) sampleChainCall
      placed (chainHead AuthChain.authChainA AuthChain.suite sampleChainCall first.2) ≠
        placed (chainHead AuthChain.authChainA AuthChain.suite sampleChainCall (call first.1 sampleChainCall).2)) :=
  ⟨((connection_ids_distinct .little ⟨fun _ => 1, 5⟩ []).1 AuthAes128.authAes128Md5).1 [] sampleCall []
      sampleCall ⟨by decide, trivial⟩,
    ((connection_ids_distinct .little ⟨fun _ => 1, 5⟩ []).2.1 AuthChain.authChainA AuthChain.suite).1 []
      sampleChainCall [] sampleChainCall ⟨by decide, trivial⟩⟩

end GlobalBlock
end Obfs
end SsrNative
