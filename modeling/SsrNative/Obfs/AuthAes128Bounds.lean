import Mathlib
import SsrNative.Lib.Passes
import SsrNative.Obfs.AuthAes128

/-!
# AuthAes128Bounds — the sizes that the auth_aes128 receivers compute

A peer that knows the key chooses the length of a frame, the size of its padding and the length in
the header freely.  The receivers compare each with a constant, but not with one another, so a size
stays inside the bytes received exactly when the fields of every frame that passes its checks fit
together.  The keyed hash and the block cipher are those of an arbitrary `Suite`.
-/

namespace SsrNative
namespace Obfs
namespace AuthAes128

open Bytes
open Lib.Segments
open Lib.Framing

variable {S : Suite} {info : ServerInfo}

/-! ## Data frames -/

/-- The frame at the front of `b` passes all checks of a receive loop that asks for `least` bytes. -/
structure FrameAccepted (S : Suite) (least : ℕ) (macKey b : Bytes) : Prop where
  arrived : 4 < b.length
  guard : (S.hmac.run (b.take 2) macKey).take 2 = window b 2 2
  least_le : least ≤ rdLe16 b 0
  lt_limit : rdLe16 b 0 < 8192
  whole : rdLe16 b 0 ≤ b.length
  check : (S.hmac.run (b.take (rdLe16 b 0 - 4)) macKey).take 4 = window b (rdLe16 b 0 - 4) 4

/-- The padding of that frame and its final check fit into its length. -/
def PaddingFits (b : Bytes) : Prop := payloadPos b + 4 ≤ rdLe16 b 0

/-- The payload of that frame. -/
def framePayload (b : Bytes) : Bytes := (b.drop (payloadPos b)).take (rdLe16 b 0 - 4 - payloadPos b)

theorem FrameAccepted.inside {least : ℕ} {macKey b : Bytes} (h : FrameAccepted S least macKey b)
    (hleast : 7 ≤ least) :
    0 < rdLe16 b 0 ∧ rdLe16 b 0 ≤ b.length ∧ (framePayload b).length ≤ rdLe16 b 0 := by
  have hle := h.least_le
  refine ⟨by omega, h.whole, ?_⟩
  rw [framePayload, List.length_take]
  omega

/-- The checks that both receive loops make in front of what they do with a frame. -/
def frameGuards {σ : Type} (S : Suite) (least : ℕ) (reset : Bool) (macKey : Bytes) (s : σ) (b : Bytes)
    (body : Peel σ UInt8 RecvError) : Peel σ UInt8 RecvError :=
  if b.length ≤ 4 then .more s
  else if (S.hmac.run (b.take 2) macKey).take 2 ≠ window b 2 2 then .halt s (.invalid reset)
  else if 8192 ≤ rdLe16 b 0 ∨ rdLe16 b 0 < least then .halt s (.invalid true)
  else if b.length < rdLe16 b 0 then .more s
  else if (S.hmac.run (b.take (rdLe16 b 0 - 4)) macKey).take 4 ≠ window b (rdLe16 b 0 - 4) 4 then
    .halt s (.invalid true)
  else body

section Guards

variable {σ : Type} {least : ℕ} {macKey b : Bytes}

theorem frameGuards_of_accepted (h : FrameAccepted S least macKey b) (reset : Bool) (s : σ)
    (body : Peel σ UInt8 RecvError) : frameGuards S least reset macKey s b body = body := by
  obtain ⟨harrived, hguard, hleast, hlimit, hwhole, hcheck⟩ := h
  unfold frameGuards
  rw [if_neg (Nat.not_le.2 harrived), if_neg (not_not.2 hguard), if_neg (by omega),
    if_neg (Nat.not_lt.2 hwhole), if_neg (not_not.2 hcheck)]

theorem frameGuards_of_not_accepted (h : ¬ FrameAccepted S least macKey b) (reset : Bool) (s : σ)
    (body : Peel σ UInt8 RecvError) :
    frameGuards S least reset macKey s b body = .more s ∨
      ∃ reset', frameGuards S least reset macKey s b body = .halt s (.invalid reset') := by
  unfold frameGuards
  split_ifs with harrived hguard hlength hwhole hcheck
  · exact .inl rfl
  · exact .inr ⟨reset, rfl⟩
  · exact .inr ⟨true, rfl⟩
  · exact .inl rfl
  · exact .inr ⟨true, rfl⟩
  · exact absurd ⟨by omega, not_not.1 hguard, by omega, by omega, by omega, not_not.1 hcheck⟩ h

end Guards

theorem recvStep_eq_guards (S : Suite) (userKey : Bytes) (st : UInt32 × Bool) (b : Bytes) :
    recvStep S userKey st b =
      frameGuards S 7 false (frameKey userKey st.1) st b
        (if rdLe16 b 0 - 4 < payloadPos b then .halt st .overrun
        else
          .took (st.1 + 1, st.2 || payloadPos b == rdLe16 b 0 - 4)
            ((b.drop (payloadPos b)).take (rdLe16 b 0 - 4 - payloadPos b)) (rdLe16 b 0)) := rfl

theorem clientRecvStep_eq_guards (S : Suite) (userKey : Bytes) (id : UInt32) (b : Bytes) :
    clientRecvStep S userKey id b =
      frameGuards S 8 true (frameKey userKey id) id b
        (if rdLe16 b 0 - 4 < payloadPos b then .halt (id + 1) .overrun
        else .took (id + 1) ((b.drop (payloadPos b)).take (rdLe16 b 0 - payloadPos b - 4)) (rdLe16 b 0)) :=
  rfl

theorem recvStep_guarded (S : Suite) (userKey : Bytes) :
    Guarded (recvStep S userKey) .overrun
      (fun st b => FrameAccepted S 7 (frameKey userKey st.1) b) (fun _ b => PaddingFits b)
      (fun _ b => framePayload b) (fun _ b => rdLe16 b 0) where
  refuse := by
    intro st b h
    rw [recvStep_eq_guards]
    rcases frameGuards_of_not_accepted h false st _ with hmore | ⟨reset, hhalt⟩
    · exact .inl ⟨st, hmore⟩
    · exact .inr ⟨st, _, hhalt, nofun⟩
  overrun := by
    intro st b h hfits
    have hleast := h.least_le
    unfold PaddingFits at hfits
    rw [recvStep_eq_guards, frameGuards_of_accepted h]
    exact ⟨st, if_pos (by omega)⟩
  take := by
    intro st b h hfits
    have hleast := h.least_le
    unfold PaddingFits at hfits
    rw [recvStep_eq_guards, frameGuards_of_accepted h]
    exact ⟨_, if_neg (by omega)⟩
  inside := fun h _ => h.inside (Nat.le_refl _)

theorem clientRecvStep_guarded (S : Suite) (userKey : Bytes) :
    Guarded (clientRecvStep S userKey) .overrun
      (fun id b => FrameAccepted S 8 (frameKey userKey id) b) (fun _ b => PaddingFits b)
      (fun _ b => framePayload b) (fun _ b => rdLe16 b 0) where
  refuse := by
    intro id b h
    rw [clientRecvStep_eq_guards]
    rcases frameGuards_of_not_accepted h true id _ with hmore | ⟨reset, hhalt⟩
    · exact .inl ⟨id, hmore⟩
    · exact .inr ⟨id, _, hhalt, nofun⟩
  overrun := by
    intro id b h hfits
    have hleast := h.least_le
    unfold PaddingFits at hfits
    rw [clientRecvStep_eq_guards, frameGuards_of_accepted h]
    exact ⟨id + 1, if_pos (by omega)⟩
  take := by
    intro id b h hfits
    have hleast := h.least_le
    unfold PaddingFits at hfits
    rw [clientRecvStep_eq_guards, frameGuards_of_accepted h, if_neg (by omega), Nat.sub_right_comm]
    exact ⟨id + 1, rfl⟩
  inside := fun h _ => h.inside (by decide)

/-! ## The header -/

/-- The header at the front of `b` has arrived and passes its checks. -/
structure HeaderChecked (S : Suite) (info : ServerInfo) (b : Bytes) : Prop where
  first : (S.hmac.run (b.take 1) (info.recvIv ++ info.key)).take (min b.length 7 - 1) =
    window b 1 (min b.length 7 - 1)
  arrived : 31 ≤ b.length
  check : (S.hmac.run (window b 7 20) (info.recvIv ++ info.key)).take 4 = window b 27 4

/-- The key for the rest of the authentication frame. -/
def headerUserKey (S : Suite) (info : ServerInfo) (b : Bytes) : Bytes :=
  serverUserKey S info (window b 7 4)

/-- The decrypted header. -/
def headerPlain (S : Suite) (info : ServerInfo) (b : Bytes) : Bytes :=
  S.aes.decrypt (encKey S (headerUserKey S info b)) (window b 11 16)

/-- The whole authentication frame has arrived and passes its checks, too. -/
structure AuthAccepted (S : Suite) (info : ServerInfo) (now : ℕ) (b : Bytes) (length : ℕ) : Prop where
  check : (S.hmac.run (b.take (length - 4)) (headerUserKey S info b)).take 4 =
    window b (length - 4) 4
  fresh : timeDiff now (rdLe32 (headerPlain S info b) 0) ≤ MAX_TIME_DIF

/-- A header that passes its checks states a length that has room for the final check, and for the
header and the padding if the frame passes its checks, too. -/
def HeaderSized (S : Suite) (info : ServerInfo) (now : ℕ) (b : Bytes) : Prop :=
  let length := rdLe16 (headerPlain S info b) 12
  HeaderChecked S info b → length ≤ b.length →
    4 ≤ length ∧ (AuthAccepted S info now b length →
      31 + rdLe16 (headerPlain S info b) 14 + 4 ≤ length)

theorem readHeader_crash_iff (S : Suite) (info : ServerInfo) (now : ℕ) (l : LocalData) :
    (∃ l', readHeader S info now l = .crash l') ↔ ¬ HeaderSized S info now l.recvBuffer := by
  unfold readHeader HeaderSized
  dsimp only
  split_ifs with hfirst hshort hcheck hwait hwhole hlength hmac htime hpos
  · refine iff_of_false nofun (not_not.2 fun h _ => absurd h.first hfirst.2)
  · exact iff_of_false nofun (not_not.2 fun h _ => absurd h.arrived (Nat.not_le.2 hshort))
  · exact iff_of_false nofun (not_not.2 fun h _ => absurd h.check hcheck)
  · exact iff_of_false nofun (not_not.2 fun h _ => absurd h.check hcheck)
  · exact iff_of_false nofun (not_not.2 fun _ hle => absurd hle (Nat.not_le.2 hwhole))
  · refine iff_of_true ⟨_, rfl⟩ fun h => ?_
    have hfour := h ⟨by_contra fun hne => hfirst ⟨.inl (by omega), hne⟩, by omega,
      not_not.1 hcheck⟩ (Nat.not_lt.1 hwhole)
    exact absurd hfour.1 (Nat.not_le.2 hlength)
  · refine iff_of_false nofun (not_not.2 fun _ _ => ⟨Nat.not_lt.1 hlength, fun h => ?_⟩)
    exact absurd h.check hmac
  · refine iff_of_false nofun (not_not.2 fun _ _ => ⟨Nat.not_lt.1 hlength, fun h => ?_⟩)
    exact absurd h.fresh (Nat.not_le.2 htime)
  · refine iff_of_true ⟨_, rfl⟩ fun h => ?_
    have hfits := (h ⟨by_contra fun hne => hfirst ⟨.inl (by omega), hne⟩, by omega,
      not_not.1 hcheck⟩ (Nat.not_lt.1 hwhole)).2 ⟨not_not.1 hmac, Nat.not_lt.1 htime⟩
    dsimp only [headerPlain, headerUserKey] at hfits
    omega
  · refine iff_of_false nofun (not_not.2 fun _ _ => ⟨Nat.not_lt.1 hlength, fun _ => ?_⟩)
    dsimp only [headerPlain, headerUserKey]
    omega

/-- What the header carries and what it leaves are together no more than what had arrived. -/
theorem readHeader_length_le {now : ℕ} {l l' : LocalData} {out : Bytes}
    (h : readHeader S info now l = .done l' out) :
    out.length + l'.recvBuffer.length ≤ l.recvBuffer.length := by
  unfold readHeader at h
  dsimp only at h
  split_ifs at h with hfirst hshort hcheck hwait hwhole hlength hmac htime hpos
  cases h
  dsimp only
  rw [shortenedTo_drop (Nat.not_lt.1 hwhole), List.length_take, List.length_drop, List.length_drop]
  omega

/-! ## Calls -/

/-- In one call of the server: the header that comes first, if it is still to come, and every frame
that passes its checks have sizes that fit together. -/
def ServerSized (S : Suite) (info : ServerInfo) (l : LocalData) (call : ℕ × Bytes) : Prop :=
  let l := { l with recvBuffer := l.recvBuffer ++ call.2 }
  let Frames (l : LocalData) (sendback : Bool) : Prop :=
    ∀ st b, Visits (recvStep S l.userKey) (l.recvId, sendback) l.recvBuffer st b →
      FrameAccepted S 7 (frameKey l.userKey st.1) b → PaddingFits b
  if l.hasRecvHeader = true then Frames l false
  else
    HeaderSized S info call.1 l.recvBuffer ∧
      ∀ l' out, readHeader S info call.1 l = .done l' out → Frames l' true

/-- In one call of the client: every frame that passes its checks has sizes that fit together. -/
def ClientSized (S : Suite) (l : LocalData) (seg : Bytes) : Prop :=
  l.recvBuffer.length + seg.length ≤ 16384 →
    ∀ id b, Visits (clientRecvStep S l.userKey) l.recvId (l.recvBuffer ++ seg) id b →
      FrameAccepted S 8 (frameKey l.userKey id) b → PaddingFits b

/-- The server's loop crashes when its last pass does. -/
theorem recvLoop_crash (S : Suite) (l : LocalData) (first : Bytes) (sendback : Bool) :
    (recvLoop S l first sendback).2 = .crash ↔
      (drain (recvStep S l.userKey) (l.recvBuffer.length + 1) (l.recvId, sendback)
        l.recvBuffer first).stop = some .overrun := by
  unfold recvLoop
  dsimp only
  cases hstop : (drain (recvStep S l.userKey) (l.recvBuffer.length + 1) (l.recvId, sendback)
      l.recvBuffer first).stop with
  | none => exact iff_of_false nofun nofun
  | some e =>
      cases e with
      | invalid reset => exact iff_of_false nofun nofun
      | overrun => exact iff_of_true rfl rfl

theorem recvLoop_bytes {l : LocalData} {first : Bytes} {sendback : Bool} {out : Bytes}
    (h : (recvLoop S l first sendback).2.bytes? = some out) :
    out = (drain (recvStep S l.userKey) (l.recvBuffer.length + 1) (l.recvId, sendback)
        l.recvBuffer first).out ∧
      (recvLoop S l first sendback).1.recvBuffer.length =
        (drain (recvStep S l.userKey) (l.recvBuffer.length + 1) (l.recvId, sendback)
          l.recvBuffer first).rest.length := by
  unfold recvLoop at h ⊢
  dsimp only at h ⊢
  cases hstop : (drain (recvStep S l.userKey) (l.recvBuffer.length + 1) (l.recvId, sendback)
      l.recvBuffer first).stop with
  | none =>
      rw [hstop] at h
      cases h
      exact ⟨rfl, rfl⟩
  | some e =>
      rw [hstop] at h
      cases e <;> cases h

/-- The calls of the server that stay inside what they received. -/
abbrev ServerWithin (S : Suite) (info : ServerInfo) : LocalData → ℕ × Bytes → Prop :=
  WithinReceived (serverPostDecrypt S info) (fun l => l.recvBuffer.length) (fun call => call.2.length)
    (fun r => r = .crash) PostDecrypt.bytes?

/-- The calls of the client that do. -/
abbrev ClientWithin (S : Suite) : LocalData → Bytes → Prop :=
  WithinReceived (clientPostDecrypt S) (fun l => l.recvBuffer.length) List.length
    (fun r => r = .crash) Returned.items?

theorem readHeader_wait_recvBuffer {now : ℕ} {l l' : LocalData}
    (h : readHeader S info now l = .wait l') : l'.recvBuffer = l.recvBuffer := by
  unfold readHeader at h
  dsimp only at h
  split_ifs at h <;> cases h <;> rfl

/-- A call of the server in which the loop runs. -/
theorem server_within_iff {l l' : LocalData} {call : ℕ × Bytes} {first : Bytes} {sendback : Bool}
    (h : serverPostDecrypt S info l call = recvLoop S l' first sendback)
    (hle : first.length + l'.recvBuffer.length ≤ l.recvBuffer.length + call.2.length) :
    ServerWithin S info l call ↔
      ∀ st b, Visits (recvStep S l'.userKey) (l'.recvId, sendback) l'.recvBuffer st b →
        FrameAccepted S 7 (frameKey l'.userKey st.1) b → PaddingFits b := by
  refine (recvStep_guarded S l'.userKey).within_iff first hle ?_ ?_
  · rw [h]
    exact recvLoop_crash S l' first sendback
  · intro out hout
    rw [h] at hout ⊢
    exact recvLoop_bytes hout

theorem serverPostDecrypt_within_iff (S : Suite) (info : ServerInfo) (l : LocalData)
    (call : ℕ × Bytes) : ServerWithin S info l call ↔ ServerSized S info l call := by
  have hlength : (l.recvBuffer ++ call.2).length = l.recvBuffer.length + call.2.length :=
    List.length_append
  by_cases hheader : l.hasRecvHeader = true
  · rw [server_within_iff (if_pos hheader) (by rw [← hlength, List.length_nil, Nat.zero_add])]
    unfold ServerSized
    exact (if_pos hheader ▸ Iff.rfl)
  · have hcrash := readHeader_crash_iff S info call.1 { l with recvBuffer := l.recvBuffer ++ call.2 }
    have hcall : serverPostDecrypt S info l call = _ := if_neg hheader
    have hsized : ServerSized S info l call = _ := if_neg hheader
    rw [hsized]
    cases h : readHeader S info call.1 { l with recvBuffer := l.recvBuffer ++ call.2 } with
    | wait l' =>
        rw [h] at hcrash hcall
        refine iff_of_true ⟨by rw [hcall]; nofun, ?_⟩ ⟨not_not.1 fun hn => (nomatch hcrash.2 hn), nofun⟩
        intro out hout
        rw [hcall] at hout ⊢
        cases hout
        simpa using Nat.le_of_eq (congrArg List.length (readHeader_wait_recvBuffer h))
    | bad l' =>
        rw [h] at hcrash hcall
        exact iff_of_true (.of_refused (by rw [hcall]; nofun) (by rw [hcall]; rfl))
          ⟨not_not.1 fun hn => (nomatch hcrash.2 hn), nofun⟩
    | crash l' =>
        rw [h] at hcall
        exact iff_of_false (fun hw => hw.no_crash (by rw [hcall])) fun hs => hcrash.1 ⟨l', h⟩ hs.1
    | done l' out =>
        rw [h] at hcrash hcall
        rw [server_within_iff hcall (hlength ▸ readHeader_length_le h)]
        constructor
        · intro hframes
          refine ⟨not_not.1 fun hn => (nomatch hcrash.2 hn), ?_⟩
          rintro _ _ ⟨⟩
          exact hframes
        · rintro ⟨-, hframes⟩
          exact hframes l' out rfl

theorem clientPostDecrypt_within_iff (S : Suite) (l : LocalData) (seg : Bytes) :
    ClientWithin S l seg ↔ ClientSized S l seg := by
  refine (clientRecvStep_guarded S l.userKey).limited_within_iff ?_ List.length_append ?_ ?_
  · intro hlimit
    have hcall : clientPostDecrypt S l seg = (l, .error) := if_pos hlimit
    rw [hcall]
    exact ⟨nofun, rfl⟩
  all_goals
    intro hle
    have hcall : clientPostDecrypt S l seg = receive S l seg := if_neg (Nat.not_lt.2 hle)
    rw [hcall]
    unfold receive
    dsimp only
    cases hstop : (drain (clientRecvStep S l.userKey) ((l.recvBuffer ++ seg).length + 1) l.recvId
      (l.recvBuffer ++ seg) []).stop with
    | none => simp [Returned.items?]
    | some e => cases e <;> simp [Returned.items?]

/-- Over every stream, however it is cut, and whatever the keyed hash and the block cipher are: no
size that a receiver computes falls below zero or reaches behind the bytes it has, exactly when the
fields of every header and frame that pass their checks fit together. -/
theorem receivers_within_iff (S : Suite) (info : ServerInfo) (sl cl : LocalData)
    (calls : List (ℕ × Bytes)) (segs : List Bytes) :
    (Along (ServerWithin S info) (serverPostDecrypt S info) sl calls ↔
      Along (ServerSized S info) (serverPostDecrypt S info) sl calls) ∧
    (Along (ClientWithin S) (clientPostDecrypt S) cl segs ↔
      Along (ClientSized S) (clientPostDecrypt S) cl segs) := by
  constructor
  · exact along_iff (serverPostDecrypt_within_iff S info) sl calls
  · exact along_iff (clientPostDecrypt_within_iff S) cl segs

/-- Hashes and a cipher that use no key. -/
def zeroSuite : Suite where
  size := 16
  hmac := ⟨fun _ _ => List.replicate 16 0, fun _ _ => rfl⟩
  size_le := authAes128Md5.size_le
  hash := id
  salt := []
  aes :=
    { encrypt := fun _ block => (block ++ List.replicate 16 0).take 16
      decrypt := fun _ block => block
      encrypt_length := fun _ block => by
        rw [List.length_take, List.length_append, List.length_replicate]
        omega
      decrypt_encrypt := fun _ block h => List.take_left' h }

def zeroInfo : ServerInfo := ⟨[], [], [], 0, none, none⟩

/-- A header that states the length zero, and a frame of seven bytes: the server's sizes fall below
zero.  At the client a frame of nine bytes that states two bytes of padding does the same. -/
theorem receivers_outside :
    ¬ Along (ServerWithin zeroSuite zeroInfo) (serverPostDecrypt zeroSuite zeroInfo)
        (localDataInit 0) [(0, List.replicate 31 0)] ∧
    ¬ Along (ServerWithin zeroSuite zeroInfo) (serverPostDecrypt zeroSuite zeroInfo)
        (localDataInit 0)
        [(0, List.replicate 23 0 ++ [35, 0, 0, 0] ++ List.replicate 8 0), (0, [7, 0, 0, 0, 0, 0, 0])] ∧
    ¬ Along (ClientWithin zeroSuite) (clientPostDecrypt zeroSuite) (localDataInit 0)
        [[9, 0, 0, 0, 2, 0, 0, 0, 0]] :=
  ⟨fun h => h.1.no_crash rfl, fun h => h.2.1.no_crash rfl, fun h => h.1.no_crash rfl⟩

end AuthAes128
end Obfs
end SsrNative
