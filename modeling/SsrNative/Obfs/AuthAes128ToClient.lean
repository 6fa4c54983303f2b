import SsrNative.Obfs.AuthAes128Stream

/-!
# AuthAes128ToClient — segmentation of the auth_aes128 streams, server to client

The client's receive loop differs from the server's in its bound on the length of a frame; on the
frames that the server makes both behave alike.  What the client carries over is less than a frame,
so reads of 2048 bytes stay within the limit of its buffer.
-/

namespace SsrNative
namespace Obfs
namespace AuthAes128

open Bytes
open Lib.Segments
open Lib.Framing

/-! ## Passes of the receive loop -/

section Step

variable {S : Suite} {userKey : Bytes} {id : UInt32} {randLen : ℕ} {pad : ℕ → UInt8} {data : Bytes}

/-- The client's loop follows the server's wherever the length is one that it accepts. -/
theorem clientRecvStep_of_recvStep {b : Bytes} (hlength : 4 < b.length → 8 ≤ rdLe16 b 0) :
    (∀ s, recvStep S userKey (id, false) b = .more s → clientRecvStep S userKey id b = .more id) ∧
      ∀ s out n, recvStep S userKey (id, false) b = .took s out n →
        clientRecvStep S userKey id b = .took (id + 1) out n := by
  unfold recvStep clientRecvStep
  by_cases hshort : b.length ≤ 4
  · rw [if_pos hshort, if_pos hshort]
    exact ⟨fun _ _ => rfl, fun _ _ _ h => by cases h⟩
  · have h8 := hlength (by omega)
    have hsize : (8192 ≤ rdLe16 b 0 ∨ rdLe16 b 0 < 8) ↔ (8192 ≤ rdLe16 b 0 ∨ rdLe16 b 0 < 7) := by
      omega
    have hsub : rdLe16 b 0 - payloadPos b - 4 = rdLe16 b 0 - 4 - payloadPos b := by omega
    rw [if_neg hshort, if_neg hshort]
    dsimp only
    simp only [hsize, hsub]
    split
    · exact ⟨fun _ h => (by cases h), fun _ _ _ h => (by cases h)⟩
    · split
      · exact ⟨fun _ h => (by cases h), fun _ _ _ h => (by cases h)⟩
      · split
        · exact ⟨fun _ _ => rfl, fun _ _ _ h => (by cases h)⟩
        · split
          · exact ⟨fun _ h => (by cases h), fun _ _ _ h => (by cases h)⟩
          · split
            · exact ⟨fun _ h => (by cases h), fun _ _ _ h => (by cases h)⟩
            · refine ⟨fun _ h => (by cases h), fun _ _ _ h => ?_⟩
              cases h
              rfl

/-- The length that stands in front of a frame. -/
theorem rdLe16_of_frame (hfits : FrameFits randLen data) {key b r t : Bytes}
    (hcat : b ++ r = dataFrame S key randLen pad data ++ t) (hlen : 2 ≤ b.length) :
    rdLe16 b 0 = randLen + data.length + 8 := by
  have hsize := hfits.size_lt
  rw [← rdLe16_append_left (l := r) (by omega), hcat, dataFrame_eq, frameBody, List.append_assoc,
    List.append_assoc, rdLe16_le16_append]
  omega

theorem clientRecvStep_takes (hfits : FrameFits randLen data) (pad : ℕ → UInt8) (t : Bytes) :
    Takes (clientRecvStep S userKey) Eq (fun _ => True) (fun _ => True) id
      (dataFrame S (frameKey userKey id) randLen pad data) t data (id + 1) := by
  have hflen := dataFrame_length S (frameKey userKey id) pad data hfits.rand_pos
  refine takes_of_waits ?_ ?_
  · intro s₀ hs₀ l
    subst s₀
    obtain ⟨sendback, hstep⟩ : ∃ sendback, recvStep S userKey (id, false)
        (dataFrame S (frameKey userKey id) randLen pad data ++ l) =
          .took (id + 1, sendback) data (dataFrame S (frameKey userKey id) randLen pad data).length :=
      recvStep_full hfits l
    have hsize := rdLe16_of_frame hfits (List.append_nil (dataFrame S (frameKey userKey id) randLen
      pad data ++ l)) (by rw [List.length_append]; omega)
    exact ⟨id + 1, (clientRecvStep_of_recvStep (fun _ => by omega)).2 _ _ _ hstep, rfl⟩
  · intro s₀ hs₀ p l hp hl
    subst s₀
    have hstep : recvStep S userKey (id, false) p = .more (id, false) := recvStep_wait hfits hp hl
    rw [← List.append_nil (dataFrame _ _ _ _ _)] at hp
    refine ⟨id, (clientRecvStep_of_recvStep fun hlen => ?_).1 _ hstep, rfl⟩
    have hsize := rdLe16_of_frame hfits hp (by omega)
    omega

/-- The client's receive loop takes the frames one by one. -/
theorem Frames.client_parses {id' : UInt32} {stream out : Bytes}
    (h : Frames S userKey id stream out id') :
    Parses (clientRecvStep S userKey) Eq (fun _ => True) (fun _ => True) id stream out id' [] := by
  induction h with
  | nil id => exact .rest (waits_nil trivial fun s₀ h => ⟨s₀, by simp [clientRecvStep], h⟩)
  | cons pad hfits _ ih =>
      exact .frame (dataFrame_ne_nil S _ hfits pad) (clientRecvStep_takes hfits pad _) ih

/-- The client waits on less than a frame. -/
theorem clientRecvStep_more_length {b : Bytes} {s' : UInt32}
    (h : clientRecvStep S userKey id b = .more s') : b.length < 8192 := by
  unfold clientRecvStep at h
  split at h
  · omega
  · dsimp only at h
    split at h
    · cases h
    · split at h
      · cases h
      · split at h
        · omega
        · split at h
          · cases h
          · split at h <;> cases h

theorem clientRecvStep_took_length {b out : Bytes} {s' : UInt32} {n : ℕ}
    (h : clientRecvStep S userKey id b = .took s' out n) : 0 < n ∧ n ≤ b.length := by
  unfold clientRecvStep at h
  split at h
  · cases h
  · dsimp only at h
    split at h
    · cases h
    · split at h
      · cases h
      · split at h
        · cases h
        · split at h
          · cases h
          · split at h
            · cases h
            · cases h
              omega

end Step

/-! ## The server's stream -/

/-- The server's calls on one connection. -/
def serverRun (S : Suite) (info : ServerInfo) (l : LocalData)
    (sends : List ((ℕ → FrameDraws) × Bytes)) : LocalData × List Bytes :=
  run (fun l s => serverPreEncrypt S info l s.1 s.2) l sends

/-- The server emits data frames only. -/
theorem serverRun_frames (S : Suite) (info : ServerInfo) (l : LocalData)
    (sends : List ((ℕ → FrameDraws) × Bytes)) :
    Frames S l.userKey l.packId (serverRun S info l sends).2.flatten (sends.map Prod.snd).flatten
      (serverRun S info l sends).1.packId := by
  induction sends generalizing l with
  | nil => exact .nil _
  | cons s sends ih =>
      obtain ⟨draws, buf⟩ := s
      have hkey : (serverPreEncrypt S info l draws buf).1.userKey = l.userKey :=
        (packUnits_fields S info draws buf.length (buf.length + 1) 0 l buf).1
      have hrec := ih (serverPreEncrypt S info l draws buf).1
      rw [hkey] at hrec
      exact packUnits_frames S info draws buf.length (Nat.lt_succ_self _) hrec

/-! ## The client's calls -/

section Client

variable {S : Suite}

/-- The number of the next frame and the carried bytes, which are less than a frame. -/
structure Receives (userKey : Bytes) (l : LocalData) (t : UInt32 × Bytes) : Prop where
  userKey : l.userKey = userKey
  recvId : l.recvId = t.1
  recvBuffer : l.recvBuffer = t.2
  carried : t.2.length < 8192

/-- Behind the check of the length, the client's calls are passes of its receive loop. -/
theorem receive_follows (userKey : Bytes) :
    Follows (receive S) id Returned.items? (clientRecvStep S userKey) (fun _ => True)
      (Receives userKey) where
  next := by
    rintro l t seg ⟨rfl, hid, hbuf, -⟩ - hok
    simp only [feed, id] at hok ⊢
    have hcarry := drain_rest_lt clientRecvStep_more_length clientRecvStep_took_length
      (Nat.lt_succ_self (t.2 ++ seg).length) hok
    simp only [receive, hbuf, hid, hok]
    exact ⟨⟨rfl, rfl, rfl, hcarry⟩, rfl⟩

/-- The segment fits into `recv_buffer`. -/
def Fits (l : LocalData) (seg : Bytes) : Prop := l.recvBuffer.length + seg.length ≤ 16384

theorem clientPostDecrypt_fits {l : LocalData} {seg : Bytes} (h : Fits l seg) :
    clientPostDecrypt S l seg = receive S l seg := by
  rw [clientPostDecrypt, if_neg (Nat.not_lt.2 h)]

end Client

/-! ## Segmentation -/

theorem Frames.of_nil {S : Suite} {userKey : Bytes} {id id' : UInt32} {stream out : Bytes}
    (h : Frames S userKey id stream out id') (hnil : stream = []) : out = [] ∧ id' = id := by
  cases h with
  | nil id => exact ⟨rfl, rfl⟩
  | cons pad hfits _ =>
      exact absurd (List.append_eq_nil_iff.1 hnil).1 (dataFrame_ne_nil S _ hfits pad)

/-- Segmentation independence, server to client: as long as the segments fit into `recv_buffer`, no
call reports an error, the buffers arrive and the counters agree in the end; and segments of the
client's read size always fit. -/
theorem server_stream_segmentation (S : Suite) (info : ServerInfo) (sv cl : LocalData)
    (sends : List ((ℕ → FrameDraws) × Bytes)) (segs : List Bytes) (hkey : cl.userKey = sv.userKey)
    (hid : cl.recvId = sv.packId) (hbuf : cl.recvBuffer = [])
    (hcat : segs.flatten = (serverRun S info sv sends).2.flatten) :
    (Along Fits (clientPostDecrypt S) cl segs →
      (∀ r ∈ (run (clientPostDecrypt S) cl segs).2, r.items? ≠ none) ∧
        delivered ((run (clientPostDecrypt S) cl segs).2.map Returned.items?) =
          (sends.map Prod.snd).flatten ∧
        (run (clientPostDecrypt S) cl segs).1.recvId = (serverRun S info sv sends).1.packId) ∧
    ((∀ s ∈ segs, s.length ≤ 2048) → Along Fits (clientPostDecrypt S) cl segs) := by
  have hframes := serverRun_frames S info sv sends
  rw [← hkey, ← hid, ← hcat] at hframes
  by_cases hne : segs = []
  · subst hne
    obtain ⟨hout, hlast⟩ := hframes.of_nil rfl
    exact ⟨fun _ => ⟨by simp, hout.symm, hlast.symm⟩, fun _ => trivial⟩
  · have hrecv : Receives cl.userKey cl (cl.recvId, []) :=
      ⟨rfl, rfl, hbuf, Nat.zero_lt_succ _⟩
    have hp := hframes.client_parses
    rw [← List.map_id segs] at hp
    have hcuts : CutsOk (fun _ => True) (segs.map id) := cutsOk_of_forall (fun _ => trivial) _
    constructor
    · intro hfits
      obtain ⟨s₂, hR, hE, hnone, hout⟩ := (receive_follows cl.userKey).run_complete hrecv
        (fun _ _ => trivial) hp rfl hcuts hne
      rw [run_congr (fun l seg => clientPostDecrypt_fits) hfits]
      exact ⟨hnone, hout, hR.recvId.trans hE⟩
    · intro hsegs
      have halong := (receive_follows cl.userKey).along_complete hrecv (fun _ _ => trivial) hp rfl
        hcuts hne
      have hfits : Along Fits (receive S) cl segs := by
        refine halong.imp ?_
        rintro l seg hseg ⟨t, hR⟩
        have hread := hsegs seg hseg
        have hcarry := hR.carried
        rw [← hR.recvBuffer] at hcarry
        unfold Fits
        omega
      exact along_congr (fun l seg h => (clientPostDecrypt_fits h).symm) hfits

def sampleDraw : ℕ → FrameDraws := fun i => ⟨i, fun _ => 3⟩

/-- The state of both peers behind the authentication frame. -/
def samplePeer : LocalData := { localDataInit 0 with userKey := sampleInfo.key }

def sampleReply : Bytes :=
  (serverRun authAes128Sha1 sampleInfo samplePeer [(sampleDraw, [1, 2, 3])]).2.flatten

/-- One buffer, cut inside the length of its frame. -/
theorem server_stream_segmentation_sample :
    delivered ((run (clientPostDecrypt authAes128Sha1) samplePeer
      [sampleReply.take 1, sampleReply.drop 1]).2.map Returned.items?) = [1, 2, 3] := by
  have hlen : sampleReply.length = 12 := by
    have hflen := dataFrame_length authAes128Sha1 (frameKey sampleInfo.key 1) (fun _ => 3) [1, 2, 3]
      (Nat.le_refl 1)
    rw [sampleReply]
    refine Eq.trans ?_ hflen
    rw [← List.append_nil (dataFrame _ _ _ _ _)]
    rfl
  have hmain := server_stream_segmentation authAes128Sha1 sampleInfo samplePeer samplePeer
    [(sampleDraw, [1, 2, 3])] [sampleReply.take 1, sampleReply.drop 1] rfl rfl rfl
    (by simp only [List.flatten_cons, List.flatten_nil, List.append_nil, List.take_append_drop]; rfl)
  refine (hmain.1 (hmain.2 ?_)).2.1
  intro s hs
  simp only [List.mem_cons, List.not_mem_nil, or_false] at hs
  rcases hs with rfl | rfl <;> simp only [List.length_take, List.length_drop] <;> omega

end AuthAes128
end Obfs
end SsrNative
