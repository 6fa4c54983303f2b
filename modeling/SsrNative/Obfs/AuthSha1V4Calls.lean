import SsrNative.Obfs.PackBuffers

/-!
# AuthSha1V4Calls — the connections of auth_sha1_v4

The client's encoder counts its frames in an `int`: a call whose frames are longer than `INT_MAX` does not
hand them on.  The server's encoder and both decoders count in a `size_t`.
-/

namespace SsrNative
namespace Obfs
namespace AuthSha1V4

open Bytes
open Lib.Segments
open Lib.Framing
open AuthAes128 (GlobalData MAX_TIME_DIF)
open ChecksumFrames (intLength)
open PackBuffers (sentLength unitsLength le_unitsLength v4Over authSha1V2HeadOver authSha1V4ClientPacked
  authSha1V4Client_length v4SentLength_le intLength_eq_iff)

/-! ## The calls of the client -/

/-- `auth_sha1_v4_client_pre_encrypt` as its caller sees it: as many bytes as it returns.  It has no result when
a negative length reaches `memmove`. -/
def clientPreEncryptReturned (H : Mac 20) (info : ServerInfo) (st : GlobalData × LocalData)
    (s : SendDraws × Bytes) : Option ((GlobalData × LocalData) × Bytes) :=
  let r := clientPreEncrypt H info st s.1 s.2
  (authSha1V4ClientPacked H info st s.1 s.2).returned.map fun len => (r.1, r.2.take len)

/-- The length of the frames of a call, which follows from the length of the data and the padding drawn. -/
def callLength (st : GlobalData × LocalData) (s : SendDraws × Bytes) : ℕ :=
  sentLength (fun i m => v4Over (s.1.frame i) m) (authSha1V2HeadOver s.1.auth) st.2.hasSentHeader
    (PackBuffers.headSize s.2) s.2.length

/-- An `int` holds it. -/
def CallFits (st : GlobalData × LocalData) (s : SendDraws × Bytes) : Prop := callLength st s < 2147483648

instance (st : GlobalData × LocalData) (s : SendDraws × Bytes) : Decidable (CallFits st s) :=
  inferInstanceAs (Decidable (_ < _))

/-- A call, and what it leaves behind when it fits. -/
def clientCall (H : Mac 20) (info : ServerInfo) (st : GlobalData × LocalData) (s : SendDraws × Bytes) :
    (GlobalData × LocalData) × Bytes :=
  clientPreEncrypt H info st s.1 s.2

section Calls

variable {H : Mac 20} {info : ServerInfo}

theorem clientPreEncryptReturned_eq (st : GlobalData × LocalData) (s : SendDraws × Bytes) :
    clientPreEncryptReturned H info st s =
      (intLength (callLength st s)).map fun len =>
        ((clientCall H info st s).1, (clientCall H info st s).2.take len) := by
  rw [callLength, ← authSha1V4Client_length H info st s.1 s.2]
  rfl

/-- All frames are handed on. -/
theorem clientPreEncryptReturned_of_fits (st : GlobalData × LocalData) (s : SendDraws × Bytes)
    (h : CallFits st s) : clientPreEncryptReturned H info st s = some (clientCall H info st s) := by
  have hlen : (clientCall H info st s).2.length = callLength st s :=
    authSha1V4Client_length H info st s.1 s.2
  rw [clientPreEncryptReturned_eq, (intLength_eq_iff _).2 h, Option.map_some,
    List.take_of_length_le hlen.le]

/-- A length that does not wrap is negative or fits. -/
theorem fits_of_clientPreEncryptReturned (st : GlobalData × LocalData) (s : SendDraws × Bytes)
    (r : (GlobalData × LocalData) × Bytes) (hwrap : callLength st s < 4294967296)
    (h : clientPreEncryptReturned H info st s = some r) : CallFits st s ∧ r = clientCall H info st s := by
  have hfits : CallFits st s := by
    by_contra hlong
    have hnone : intLength (callLength st s) = none := by
      rw [intLength, Nat.mod_eq_of_lt hwrap]
      exact if_neg hlong
    rw [clientPreEncryptReturned_eq, hnone] at h
    cases h
  rw [clientPreEncryptReturned_of_fits st s hfits, Option.some.injEq] at h
  exact ⟨hfits, h.symm⟩

end Calls

/-! ## Segmentation -/

section Connection

variable (H : Mac 20) (cinfo sinfo : ServerInfo) (g : GlobalData)

/-- Every call of a new client meets `P`. -/
def UpCalls (P : GlobalData × LocalData → SendDraws × Bytes → Prop) (up : List (SendDraws × Bytes)) : Prop :=
  Along P (clientCall H cinfo) (g, localDataInit) up

/-- What a new client hands on. -/
def upRun (up : List (SendDraws × Bytes)) : Option ((GlobalData × LocalData) × List Bytes) :=
  runChecked (clientPreEncryptReturned H cinfo) (g, localDataInit) up

/-- The client's calls return, no call of the server reports an error, and the payloads arrive. -/
def UpDelivered (up : List (SendDraws × Bytes)) (calls : List (ℕ × Bytes)) : Prop :=
  (upRun H cinfo g up).isSome = true ∧
    (∀ r ∈ (run (serverPostDecrypt H sinfo) localDataInit calls).2, bytes? r ≠ none) ∧
    delivered ((run (serverPostDecrypt H sinfo) localDataInit calls).2.map bytes?) =
      (up.map Prod.snd).flatten

variable {H cinfo sinfo g}

theorem upRun_of_fits {up : List (SendDraws × Bytes)} (h : UpCalls H cinfo g CallFits up) :
    upRun H cinfo g up = some (clientRun H cinfo (g, localDataInit) up) :=
  runChecked_of_along clientPreEncryptReturned_of_fits h

theorem fits_of_upRun {up : List (SendDraws × Bytes)}
    (hwrap : UpCalls H cinfo g (fun st s => callLength st s < 4294967296) up)
    (h : (upRun H cinfo g up).isSome = true) : UpCalls H cinfo g CallFits up :=
  along_of_runChecked fits_of_clientPreEncryptReturned hwrap h

/-- Segmentation independence in both directions of a connection.  Towards the server no call reports an error
and the payloads arrive when the frames of every call of the client are at most `INT_MAX` bytes long, and only
then, as far as none of these lengths wraps around; towards the client they always do.  The peers share the
key and the IV, the clocks differ by at most a day, and the client reads at most 2048 bytes at a time; its two
halves share nothing, so its state in the second direction is any with an empty `recv_buffer`. -/
theorem stream_segmentation (H : Mac 20) (cinfo sinfo : ServerInfo) (g : GlobalData) (cl : LocalData)
    (hiv : sinfo.recvIv = cinfo.iv) (hkey : sinfo.key = cinfo.key) (hbuf : cl.recvBuffer = [])
    (up : List (SendDraws × Bytes)) (calls : List (ℕ × Bytes)) (down : List ((ℕ → ℕ) × Bytes))
    (segs : List Bytes)
    (hclock : ∀ s ∈ up.head?, ∀ c ∈ calls, ((c.1 : ℤ) - s.1.auth.time).natAbs ≤ MAX_TIME_DIF)
    (hup : ∀ s ∈ up, s.2 ≠ []) (hcalls : ∀ c ∈ calls, c.2 ≠ [])
    (hcat : ∀ r, upRun H cinfo g up = some r → (calls.map Prod.snd).flatten = r.2.flatten)
    (hread : ∀ s ∈ segs, s.length ≤ 2048)
    (hcat' : segs.flatten = (down.map fun s => serverPreEncrypt s.1 s.2).flatten) :
    ((UpCalls H cinfo g CallFits up → UpDelivered H cinfo sinfo g up calls) ∧
      (UpCalls H cinfo g (fun st s => callLength st s < 4294967296) up →
        UpDelivered H cinfo sinfo g up calls → UpCalls H cinfo g CallFits up)) ∧
    (∀ r ∈ (run clientPostDecrypt cl segs).2, r.items? ≠ none) ∧
      delivered ((run clientPostDecrypt cl segs).2.map Returned.items?) =
        (down.map Prod.snd).flatten := by
  refine ⟨⟨fun hfits => ?_, fun hwrap hdelivered => fits_of_upRun hwrap hdelivered.1⟩,
    server_frames_delivered hbuf hread hcat'⟩
  have hrun := upRun_of_fits hfits
  have hframes := client_frames_delivered H hiv hkey g hclock hup hcalls (hcat _ hrun)
  exact ⟨by rw [hrun]; rfl, hframes⟩

end Connection

def sampleInfo : ServerInfo :=
  ⟨List.replicate 16 1, List.replicate 16 1, List.replicate 16 2⟩

def sampleGlobal : GlobalData := ⟨List.replicate 8 1, 77⟩

def sampleDraws : SendDraws := ⟨⟨300, 1500000000, fun _ => 1, 5⟩, fun i => i⟩

def sampleStream : Bytes :=
  (clientRun hmacSha1 sampleInfo (sampleGlobal, localDataInit)
    [(sampleDraws, [1, 2, 3]), (sampleDraws, [4])]).2.flatten

def sampleReply : Bytes := serverPreEncrypt (fun _ => 200) [5, 6]

/-- Both encodings of the length of the padding, and cuts inside the guard of a length. -/
theorem stream_segmentation_sample :
    UpDelivered hmacSha1 sampleInfo sampleInfo sampleGlobal [(sampleDraws, [1, 2, 3]), (sampleDraws, [4])]
      [(1500000010, sampleStream.take 3), (1500000020, sampleStream.drop 3)] ∧
    delivered ((run clientPostDecrypt localDataInit
        [sampleReply.take 3, sampleReply.drop 3]).2.map Returned.items?) = [5, 6] := by
  have hlen : sampleReply.length = 211 := dataFrame_length [5, 6] (getRandLen_pos 2 200)
  have hlong : 3 < sampleStream.length := by
    obtain ⟨n, -, hfirst⟩ := clientPreEncrypt_first hmacSha1 sampleInfo
      (sampleGlobal, localDataInit) rfl sampleDraws (show ([1, 2, 3] : Bytes) ≠ [] by simp)
    rw [sampleStream, clientRun, run_cons, List.flatten_cons, List.length_append, hfirst,
      List.length_append, authFrame_length, authSize]
    omega
  have hfits : UpCalls hmacSha1 sampleInfo sampleGlobal CallFits
      [(sampleDraws, [1, 2, 3]), (sampleDraws, [4])] := by
    refine ⟨?_, ?_, trivial⟩
    · exact (v4SentLength_le sampleDraws false [1, 2, 3]).trans_lt (by decide)
    · exact (v4SentLength_le sampleDraws _ [4]).trans_lt (by decide)
  have hmain := stream_segmentation hmacSha1 sampleInfo sampleInfo sampleGlobal localDataInit rfl rfl rfl
    [(sampleDraws, [1, 2, 3]), (sampleDraws, [4])]
    [(1500000010, sampleStream.take 3), (1500000020, sampleStream.drop 3)]
    [(fun _ => 200, [5, 6])] [sampleReply.take 3, sampleReply.drop 3] ?_ (by simp) ?_ ?_ ?_ ?_
  · exact ⟨hmain.1.1 hfits, hmain.2.2⟩
  · intro s hs c hc
    simp only [List.head?_cons, Option.mem_def, Option.some.injEq] at hs
    subst hs
    simp only [List.mem_cons, List.not_mem_nil, or_false] at hc
    rcases hc with rfl | rfl <;> decide
  · intro c hc
    refine List.length_pos_iff.1 ?_
    simp only [List.mem_cons, List.not_mem_nil, or_false] at hc
    rcases hc with rfl | rfl <;> simp only [List.length_take, List.length_drop] <;> omega
  · intro r hr
    rw [upRun_of_fits hfits, Option.some.injEq] at hr
    simp only [List.map_cons, List.map_nil, List.flatten_cons, List.flatten_nil, List.append_nil,
      List.take_append_drop, ← hr]
    rfl
  · refine List.forall_mem_cons.2 ⟨?_, List.forall_mem_cons.2 ⟨?_, by simp⟩⟩
    · rw [List.length_take]
      omega
    · rw [List.length_drop]
      omega
  · simp only [List.map_cons, List.map_nil, List.flatten_cons, List.flatten_nil, List.append_nil,
      List.take_append_drop]
    rfl

/-- The longest padding. -/
def longDraws : SendDraws := ⟨⟨1023, 1500000000, fun _ => 1, 5⟩, fun i => i⟩

/-- A first call whose frames are a little longer than `INT_MAX`. -/
theorem upRun_of_long (H : Mac 20) (info : ServerInfo) (g : GlobalData) {data : Bytes}
    (hfirst : byteAt data 0 = 0) (hlen : data.length = 2147482598) : upRun H info g [(longDraws, data)] = none := by
  -- the authentication frame takes 30 bytes, and the data frames what is left
  have hhead : PackBuffers.headSize data = 30 := by
    have hshort : ¬ data.length < 2 := by omega
    have hsize : getS5HeadSize data 30 = 30 := by
      rw [getS5HeadSize, if_neg hshort, hfirst]
      rfl
    rw [PackBuffers.headSize, hsize]
    exact Nat.min_eq_left (by omega)
  have hle := v4SentLength_le longDraws false data
  have hge := le_unitsLength (fun i m => v4Over (longDraws.frame i) m) (i := 0)
    (Nat.lt_add_one (data.length - 30))
  have hover : authSha1V2HeadOver longDraws.auth 30 = 1052 := by decide
  have hnone : intLength (callLength (g, localDataInit) (longDraws, data)) = none := by
    have hopen : 0 < data.length ∧ (localDataInit.hasSentHeader = false) := ⟨by omega, rfl⟩
    have hcall : callLength (g, localDataInit) (longDraws, data) = 30 + authSha1V2HeadOver longDraws.auth 30 +
        unitsLength (fun i m => v4Over (longDraws.frame i) m) (data.length - 30 + 1) 0 (data.length - 30) := by
      rw [callLength, sentLength, if_pos hopen, hhead]
    rw [sentLength, if_pos ⟨hopen.1, rfl⟩, hhead] at hle
    rw [hcall, intLength]
    refine if_neg ?_
    omega
  refine runChecked_cons_none ?_ _
  rw [clientPreEncryptReturned_eq, hnone]
  rfl

theorem byteAt_zeros (n : ℕ) : byteAt (List.replicate n 0) 0 = 0 := by
  cases n with
  | zero => rfl
  | succ n => rfl

/-- A payload of 2147482598 bytes, which no cut delivers. -/
theorem stream_segmentation_int :
    ¬ ∃ calls, UpDelivered hmacSha1 sampleInfo sampleInfo sampleGlobal
      [(longDraws, List.replicate 2147482598 0)] calls := by
  rintro ⟨calls, hreturned, -⟩
  rw [upRun_of_long hmacSha1 sampleInfo sampleGlobal (byteAt_zeros _) List.length_replicate] at hreturned
  cases hreturned

end AuthSha1V4
end Obfs
end SsrNative
