import Mathlib
import SsrNative.Lib.Passes
import SsrNative.Obfs.ChecksumFrames

/-!
# ChecksumBounds — the sizes that the receivers of the checksum protocols compute

Anyone can make a frame whose checksum is right.  The receivers compare the length of a frame with
constants and with what has arrived, but the size of its padding with nothing, so the size of the
data stays inside the frame exactly when the padding and the checksum fit into the length.
-/

namespace SsrNative
namespace Obfs

open Bytes
open Checksums
open Lib.Segments
open Lib.Framing

namespace ChecksumFrames

/-! ## The four older protocols -/

/-- The frame at the front of `b` passes all checks. -/
structure FrameAccepted (check : Bytes → ℕ → Bool) (b : Bytes) : Prop where
  arrived : 2 < b.length
  least_le : 7 ≤ rdBe16 b 0
  lt_limit : rdBe16 b 0 < 8192
  whole : rdBe16 b 0 ≤ b.length
  checked : check b (rdBe16 b 0) = true

/-- The padding of that frame and its checksum fit into its length. -/
def PaddingFits (pos : Bytes → ℕ) (b : Bytes) : Prop := pos b + 4 ≤ rdBe16 b 0

/-- The data of that frame. -/
def frameData (pos : Bytes → ℕ) (b : Bytes) : Bytes := (b.drop (pos b)).take (rdBe16 b 0 - 4 - pos b)

/-- What is left to do with a frame that passes its checks. -/
theorem recvStep_of_accepted {check : Bytes → ℕ → Bool} {b : Bytes} (h : FrameAccepted check b)
    (pos : Bytes → ℕ) (s : Unit) :
    recvStep check pos s b =
      if rdBe16 b 0 - 4 < pos b then .halt () .overrun else .took () (frameData pos b) (rdBe16 b 0) := by
  obtain ⟨harrived, hleast, hlimit, hwhole, hchecked⟩ := h
  have hnot : ¬ check b (rdBe16 b 0) = false := by simp [hchecked]
  unfold recvStep
  dsimp only
  rw [if_neg (Nat.not_le.2 harrived), if_neg (by omega), if_neg (Nat.not_lt.2 hwhole), if_neg hnot]
  rfl

theorem recvStep_guarded (check : Bytes → ℕ → Bool) (pos : Bytes → ℕ) :
    Guarded (recvStep check pos) .overrun (fun _ b => FrameAccepted check b)
      (fun _ b => PaddingFits pos b) (fun _ b => frameData pos b) (fun _ b => rdBe16 b 0) where
  refuse := by
    intro s b h
    unfold recvStep
    dsimp only
    split_ifs with harrived hlength hwhole hcheck hpos
    · exact .inl ⟨(), rfl⟩
    · exact .inr ⟨(), _, rfl, nofun⟩
    · exact .inl ⟨(), rfl⟩
    · exact .inr ⟨(), _, rfl, nofun⟩
    all_goals
      exact absurd ⟨by omega, by omega, by omega, by omega, (Bool.not_eq_false _).mp hcheck⟩ h
  overrun := by
    intro s b h hfits
    have hleast := h.least_le
    unfold PaddingFits at hfits
    rw [recvStep_of_accepted h]
    exact ⟨(), if_pos (by omega)⟩
  take := by
    intro s b h hfits
    have hleast := h.least_le
    unfold PaddingFits at hfits
    rw [recvStep_of_accepted h]
    exact ⟨(), if_neg (by omega)⟩
  inside := by
    intro s b h _
    have hleast := h.least_le
    refine ⟨by omega, h.whole, ?_⟩
    rw [frameData, List.length_take]
    omega

/-- In one call: every frame that passes its checks has room for its padding and its checksum. -/
def Sized (check : Bytes → ℕ → Bool) (pos : Bytes → ℕ) (recvBuffer seg : Bytes) : Prop :=
  recvBuffer.length + seg.length ≤ 16384 →
    ∀ s b, Visits (recvStep check pos) () (recvBuffer ++ seg) s b →
      FrameAccepted check b → PaddingFits pos b

/-- The calls that stay inside what they received. -/
abbrev Within (f : Bytes → Bytes → Bytes × Returned UInt8) : Bytes → Bytes → Prop :=
  WithinReceived f List.length List.length (fun r => r = .crash) Returned.items?

theorem clientPostDecrypt_within_iff (check : Bytes → ℕ → Bool) (pos : Bytes → ℕ)
    (recvBuffer seg : Bytes) :
    Within (clientPostDecrypt check pos) recvBuffer seg ↔ Sized check pos recvBuffer seg := by
  refine (recvStep_guarded check pos).limited_within_iff ?_ List.length_append ?_ ?_
  · intro hlimit
    have hcall : clientPostDecrypt check pos recvBuffer seg = (recvBuffer, .error) := if_pos hlimit
    rw [hcall]
    exact ⟨nofun, rfl⟩
  all_goals
    intro hle
    have hcall : clientPostDecrypt check pos recvBuffer seg = receive check pos recvBuffer seg :=
      if_neg (Nat.not_lt.2 hle)
    rw [hcall]
    unfold receive
    dsimp only
    cases hstop : (drain (recvStep check pos) ((recvBuffer ++ seg).length + 1) ()
      (recvBuffer ++ seg) []).stop with
    | none => simp [Returned.items?]
    | some e => cases e <;> simp [Returned.items?]

end ChecksumFrames

namespace AuthSha1V4

/-! ## auth_sha1_v4 -/

variable {H : Mac 20} {info : ServerInfo}

/-- The frame at the front of `b` passes all checks. -/
structure FrameAccepted (b : Bytes) : Prop where
  arrived : 4 < b.length
  guard : (crc32Imp (b.take 2)).toNat % 65536 = rdLe16 b 2
  least_le : 7 ≤ rdBe16 b 0
  lt_limit : rdBe16 b 0 < 8192
  whole : rdBe16 b 0 ≤ b.length
  checked : checkAdler32 b (rdBe16 b 0) = true

def PaddingFits (b : Bytes) : Prop := dataPos b 4 + 4 ≤ rdBe16 b 0

def frameData (b : Bytes) : Bytes := (b.drop (dataPos b 4)).take (rdBe16 b 0 - 4 - dataPos b 4)

/-- What is left to do with a frame that passes its checks. -/
theorem recvStep_of_accepted {b : Bytes} (h : FrameAccepted b) (sendback : Bool) :
    recvStep sendback b =
      if rdBe16 b 0 - 4 < dataPos b 4 then .halt sendback .overrun
      else .took (sendback || dataPos b 4 == rdBe16 b 0 - 4) (frameData b) (rdBe16 b 0) := by
  obtain ⟨harrived, hguard, hleast, hlimit, hwhole, hchecked⟩ := h
  have hnot : ¬ checkAdler32 b (rdBe16 b 0) = false := by simp [hchecked]
  unfold recvStep
  dsimp only
  rw [if_neg (Nat.not_le.2 harrived), if_neg (not_not.2 hguard), if_neg (by omega),
    if_neg (Nat.not_lt.2 hwhole), if_neg hnot]
  rfl

theorem recvStep_guarded :
    Guarded recvStep .overrun (fun _ b => FrameAccepted b) (fun _ b => PaddingFits b)
      (fun _ b => frameData b) (fun _ b => rdBe16 b 0) where
  refuse := by
    intro s b h
    unfold recvStep
    dsimp only
    split_ifs with harrived hguard hlength hwhole hcheck hpos
    · exact .inl ⟨s, rfl⟩
    · exact .inr ⟨s, _, rfl, nofun⟩
    · exact .inr ⟨s, _, rfl, nofun⟩
    · exact .inl ⟨s, rfl⟩
    · exact .inr ⟨s, _, rfl, nofun⟩
    all_goals
      exact absurd ⟨by omega, not_not.1 hguard, by omega, by omega, by omega,
        (Bool.not_eq_false _).mp hcheck⟩ h
  overrun := by
    intro s b h hfits
    have hleast := h.least_le
    unfold PaddingFits at hfits
    rw [recvStep_of_accepted h]
    exact ⟨s, if_pos (by omega)⟩
  take := by
    intro s b h hfits
    have hleast := h.least_le
    unfold PaddingFits at hfits
    rw [recvStep_of_accepted h]
    exact ⟨_, if_neg (by omega)⟩
  inside := by
    intro s b h _
    have hleast := h.least_le
    refine ⟨by omega, h.whole, ?_⟩
    rw [frameData, List.length_take]
    omega

/-- The authentication frame at the front of `b` has a length that has room for its keyed hash, and,
if that is right, for its padding and the hash. -/
def HeaderSized (H : Mac 20) (info : ServerInfo) (b : Bytes) : Prop :=
  let length := rdBe16 b 0
  6 < b.length → (sizeCheck info.key (b.take 2)).toNat = rdLe32 b 2 → length ≤ b.length →
    10 ≤ length ∧
      ((H.run (b.take (length - 10)) (info.recvIv ++ info.key)).take 10 = window b (length - 10) 10 →
        dataPos b 6 + 10 ≤ length)

/-- In one call of the client: every frame that passes its checks has room for its padding and its
checksum. -/
def ClientSized (l : LocalData) (seg : Bytes) : Prop :=
  l.recvBuffer.length + seg.length ≤ 16384 →
    ∀ s b, Visits recvStep false (l.recvBuffer ++ seg) s b → FrameAccepted b → PaddingFits b

/-- In one call of the server: so does the authentication frame, if it is still to come. -/
def ServerSized (H : Mac 20) (info : ServerInfo) (l : LocalData) (call : ℕ × Bytes) : Prop :=
  let l := { l with recvBuffer := l.recvBuffer ++ call.2 }
  let Frames (l : LocalData) (sendback : Bool) : Prop :=
    ∀ s b, Visits recvStep sendback l.recvBuffer s b → FrameAccepted b → PaddingFits b
  if l.hasRecvHeader = true then Frames l false
  else
    HeaderSized H info l.recvBuffer ∧
      ∀ l' out, readHeader H info call.1 l = .done l' out → Frames l' true

theorem readHeader_crash_iff (H : Mac 20) (info : ServerInfo) (now : ℕ) (l : LocalData) :
    readHeader H info now l = .crash ↔ ¬ HeaderSized H info l.recvBuffer := by
  unfold readHeader HeaderSized
  dsimp only
  split_ifs with hshort hcheck hwhole hlength hmac hpos htwelve htime
  · exact iff_of_false nofun (not_not.2 fun h => absurd h (Nat.not_lt.2 hshort))
  · exact iff_of_false nofun (not_not.2 fun _ h => absurd h hcheck)
  · exact iff_of_false nofun (not_not.2 fun _ _ h => absurd h (Nat.not_le.2 hwhole))
  · refine iff_of_true rfl fun h => ?_
    have hten := h (Nat.not_le.1 hshort) (not_not.1 hcheck) (Nat.not_lt.1 hwhole)
    exact absurd hten.1 (Nat.not_le.2 hlength)
  · refine iff_of_false nofun (not_not.2 fun _ _ _ => ⟨Nat.not_lt.1 hlength, fun h => ?_⟩)
    exact absurd h hmac
  · refine iff_of_true rfl fun h => ?_
    have hfits := (h (Nat.not_le.1 hshort) (not_not.1 hcheck) (Nat.not_lt.1 hwhole)).2
      (not_not.1 hmac)
    omega
  all_goals
    refine iff_of_false nofun (not_not.2 fun _ _ _ => ⟨Nat.not_lt.1 hlength, fun _ => ?_⟩)
    omega

/-- What the authentication frame carries and what it leaves are together no more than what had
arrived. -/
theorem readHeader_length_le {now : ℕ} {l l' : LocalData} {out : Bytes}
    (h : readHeader H info now l = .done l' out) :
    out.length + l'.recvBuffer.length ≤ l.recvBuffer.length := by
  unfold readHeader at h
  dsimp only at h
  split_ifs at h with hshort hcheck hwhole hlength hmac hpos htwelve htime
  cases h
  dsimp only
  rw [shortenedTo_drop (Nat.not_lt.1 hwhole), shortenedTo_drop (Nat.not_lt.1 htwelve),
    List.length_drop, List.length_take, List.length_drop, List.length_drop]
  omega

/-- The calls of the client that stay inside what they received. -/
abbrev ClientWithin : LocalData → Bytes → Prop :=
  WithinReceived clientPostDecrypt (fun l => l.recvBuffer.length) List.length (fun r => r = .crash)
    Returned.items?

/-- The calls of the server that do. -/
abbrev ServerWithin (H : Mac 20) (info : ServerInfo) : LocalData → ℕ × Bytes → Prop :=
  WithinReceived (serverPostDecrypt H info) (fun l => l.recvBuffer.length)
    (fun call => call.2.length) (fun r => r.1 = .crash) (fun r => r.1.items?)

theorem clientPostDecrypt_within_iff (l : LocalData) (seg : Bytes) :
    ClientWithin l seg ↔ ClientSized l seg := by
  refine recvStep_guarded.limited_within_iff ?_ List.length_append ?_ ?_
  · intro hlimit
    have hcall : clientPostDecrypt l seg = (l, .error) := if_pos hlimit
    rw [hcall]
    exact ⟨nofun, rfl⟩
  all_goals
    intro hle
    have hcall : clientPostDecrypt l seg = receive l seg := if_neg (Nat.not_lt.2 hle)
    rw [hcall]
    unfold receive
    dsimp only
    cases hstop : (drain recvStep ((l.recvBuffer ++ seg).length + 1) false
      (l.recvBuffer ++ seg) []).stop with
    | none => simp [Returned.items?]
    | some e => cases e <;> simp [Returned.items?]

/-- A call of the server in which the loop runs. -/
theorem server_within_iff {l l' : LocalData} {call : ℕ × Bytes} {first : Bytes} {sendback : Bool}
    (h : serverPostDecrypt H info l call = recvLoop l' first sendback)
    (hle : first.length + l'.recvBuffer.length ≤ l.recvBuffer.length + call.2.length) :
    ServerWithin H info l call ↔
      ∀ s b, Visits recvStep sendback l'.recvBuffer s b → FrameAccepted b → PaddingFits b := by
  refine recvStep_guarded.within_iff first hle ?_ ?_
  all_goals
    rw [h]
    unfold recvLoop
    dsimp only
    cases hstop : (drain recvStep (l'.recvBuffer.length + 1) sendback l'.recvBuffer first).stop with
    | none => simp [Returned.items?]
    | some e => cases e <;> simp [Returned.items?]

theorem serverPostDecrypt_within_iff (H : Mac 20) (info : ServerInfo) (l : LocalData)
    (call : ℕ × Bytes) : ServerWithin H info l call ↔ ServerSized H info l call := by
  have hlength : (l.recvBuffer ++ call.2).length = l.recvBuffer.length + call.2.length :=
    List.length_append
  by_cases hheader : l.hasRecvHeader = true
  · rw [server_within_iff (if_pos hheader) (by rw [← hlength, List.length_nil, Nat.zero_add])]
    unfold ServerSized
    exact (if_pos hheader ▸ Iff.rfl)
  · have hcrash := readHeader_crash_iff H info call.1 { l with recvBuffer := l.recvBuffer ++ call.2 }
    have hcall : serverPostDecrypt H info l call = _ := if_neg hheader
    have hsized : ServerSized H info l call = _ := if_neg hheader
    rw [hsized]
    cases h : readHeader H info call.1 { l with recvBuffer := l.recvBuffer ++ call.2 } with
    | wait =>
        rw [h] at hcrash hcall
        refine iff_of_true ⟨by rw [hcall]; nofun, ?_⟩ ⟨not_not.1 fun hn => (nomatch hcrash.2 hn), nofun⟩
        intro out hout
        rw [hcall] at hout ⊢
        cases hout
        simp
    | bad =>
        rw [h] at hcrash hcall
        exact iff_of_true (.of_refused (by rw [hcall]; nofun) (by rw [hcall]; rfl))
          ⟨not_not.1 fun hn => (nomatch hcrash.2 hn), nofun⟩
    | crash =>
        rw [h] at hcall
        exact iff_of_false (fun hw => hw.no_crash (by rw [hcall])) fun hs => hcrash.1 h hs.1
    | done l' out =>
        rw [h] at hcrash hcall
        rw [server_within_iff hcall (hlength ▸ readHeader_length_le h)]
        constructor
        · intro hframes
          refine ⟨not_not.1 fun hn => (nomatch hcrash.2 hn), ?_⟩
          rintro _ _ ⟨⟩
          exact hframes
        · rintro ⟨-, hframes⟩
          exact hframes l' out rfl

end AuthSha1V4

/-! ## All receivers -/

open ChecksumFrames in
/-- Over every stream, however it is cut: no size that a receiver computes falls below zero or reaches
behind the bytes it has, exactly when the padding and the checksum of every frame that passes its
checks fit into its length.  At the server of auth_sha1_v4 this includes the authentication frame. -/
theorem checksum_receivers_within_iff (H : Mac 20) (info : AuthSha1V4.ServerInfo)
    (recvBuffer : Bytes) (cl sl : AuthSha1V4.LocalData) (segs : List Bytes)
    (calls : List (ℕ × Bytes)) :
    (Along (Within verifySimpleClientPostDecrypt) verifySimpleClientPostDecrypt recvBuffer segs ↔
      Along (Sized checkCrc32 shortPos) verifySimpleClientPostDecrypt recvBuffer segs) ∧
    (Along (Within authSimpleClientPostDecrypt) authSimpleClientPostDecrypt recvBuffer segs ↔
      Along (Sized checkCrc32 shortPos) authSimpleClientPostDecrypt recvBuffer segs) ∧
    (Along (Within authSha1ClientPostDecrypt) authSha1ClientPostDecrypt recvBuffer segs ↔
      Along (Sized checkAdler32 shortPos) authSha1ClientPostDecrypt recvBuffer segs) ∧
    (Along (Within authSha1V2ClientPostDecrypt) authSha1V2ClientPostDecrypt recvBuffer segs ↔
      Along (Sized checkAdler32 fun b => AuthSha1V4.dataPos b 2) authSha1V2ClientPostDecrypt
        recvBuffer segs) ∧
    (Along AuthSha1V4.ClientWithin AuthSha1V4.clientPostDecrypt cl segs ↔
      Along AuthSha1V4.ClientSized AuthSha1V4.clientPostDecrypt cl segs) ∧
    (Along (AuthSha1V4.ServerWithin H info) (AuthSha1V4.serverPostDecrypt H info) sl calls ↔
      Along (AuthSha1V4.ServerSized H info) (AuthSha1V4.serverPostDecrypt H info) sl calls) :=
  ⟨along_iff (clientPostDecrypt_within_iff _ _) recvBuffer segs,
    along_iff (clientPostDecrypt_within_iff _ _) recvBuffer segs,
    along_iff (clientPostDecrypt_within_iff _ _) recvBuffer segs,
    along_iff (clientPostDecrypt_within_iff _ _) recvBuffer segs,
    along_iff AuthSha1V4.clientPostDecrypt_within_iff cl segs,
    along_iff (AuthSha1V4.serverPostDecrypt_within_iff H info) sl calls⟩

/-- Frames with a good checksum that state two bytes of padding where there is room for one. -/
theorem checksum_receivers_outside :
    ¬ Along (ChecksumFrames.Within ChecksumFrames.verifySimpleClientPostDecrypt)
        ChecksumFrames.verifySimpleClientPostDecrypt [] [[0, 7, 2, 6, 209, 241, 161]] ∧
    ¬ Along (ChecksumFrames.Within ChecksumFrames.authSha1V2ClientPostDecrypt)
        ChecksumFrames.authSha1V2ClientPostDecrypt [] [[0, 7, 2, 10, 0, 19, 0]] ∧
    ¬ Along AuthSha1V4.ClientWithin AuthSha1V4.clientPostDecrypt AuthSha1V4.localDataInit
        [[0, 9, 91, 170, 2, 17, 1, 144, 2]] := by
  refine ⟨fun h => ?_, fun h => ?_, fun h => ?_⟩
  · have hsized := (ChecksumFrames.clientPostDecrypt_within_iff _ _ _ _).1 h.1
    have hfits := hsized (by decide) () _ (.here _ _)
      ⟨by decide, by decide, by decide, by decide, by decide +kernel⟩
    exact absurd hfits (Nat.not_le.2 (by decide))
  · have hsized := (ChecksumFrames.clientPostDecrypt_within_iff _ _ _ _).1 h.1
    have hfits := hsized (by decide) () _ (.here _ _)
      ⟨by decide, by decide, by decide, by decide, by decide⟩
    exact absurd hfits (Nat.not_le.2 (by decide))
  · have hsized := (AuthSha1V4.clientPostDecrypt_within_iff _ _).1 h.1
    have hfits := hsized (by decide) false _ (.here _ _)
      ⟨by decide, by decide +kernel, by decide, by decide, by decide, by decide +kernel⟩
    exact absurd hfits (Nat.not_le.2 (by decide))

end Obfs
end SsrNative
