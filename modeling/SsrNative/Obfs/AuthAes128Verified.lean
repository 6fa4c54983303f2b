import SsrNative.Obfs.AuthAes128Stream

/-!
# AuthAes128Verified — what the auth_aes128 server returns of an arbitrary stream

Behind the authentication frame the server runs its receive loop over whatever has arrived.  As long
as the checks of every frame hold, the bytes that it returns are the payloads of these frames.  When
a check fails, `auth_aes128_not_match_return` gives the caller a buffer of filler instead, and
nothing tells it from payload.
-/

namespace SsrNative
namespace Obfs
namespace AuthAes128

open Bytes
open Lib.Segments
open Lib.Framing

/-! ## Frames whose checks hold -/

/-- A frame whose checks hold with the number `id`, and its payload. -/
structure Verified (S : Suite) (userKey : Bytes) (id : UInt32) (f data : Bytes) : Prop where
  size : rdLe16 f 0 = f.length
  lower : 7 ≤ f.length
  upper : f.length < 8192
  lengthMac : (S.hmac.run (f.take 2) (frameKey userKey id)).take 2 = window f 2 2
  frameMac : (S.hmac.run (f.take (f.length - 4)) (frameKey userKey id)).take 4 =
    window f (f.length - 4) 4
  start : payloadPos f ≤ f.length - 4
  payload : data = (f.drop (payloadPos f)).take (f.length - 4 - payloadPos f)

/-- Consecutive frames, from the number `id` to the number `id'`, and their payloads. -/
inductive VerifiedFrames (S : Suite) (userKey : Bytes) :
    UInt32 → Bytes → Bytes → UInt32 → Prop where
  | nil (id : UInt32) : VerifiedFrames S userKey id [] [] id
  | cons {id id' : UInt32} {f data t out : Bytes} : Verified S userKey id f data →
      VerifiedFrames S userKey (id + 1) t out id' →
      VerifiedFrames S userKey id (f ++ t) (data ++ out) id'

/-- A part of a frame in which no check has failed yet. -/
def Incomplete (S : Suite) (userKey : Bytes) (id : UInt32) (b : Bytes) : Prop :=
  b.length ≤ 4 ∨
    (S.hmac.run (b.take 2) (frameKey userKey id)).take 2 = window b 2 2 ∧
      7 ≤ rdLe16 b 0 ∧ rdLe16 b 0 < 8192 ∧ b.length < rdLe16 b 0

/-- Frames whose checks hold, and a part of another one. -/
def WellFormed (S : Suite) (userKey : Bytes) (id : UInt32) (b : Bytes) : Prop :=
  ∃ taken payload id' z, VerifiedFrames S userKey id taken payload id' ∧ b = taken ++ z ∧
    Incomplete S userKey id' z

section Frames

variable {S : Suite} {userKey : Bytes} {id id' id'' : UInt32}

theorem VerifiedFrames.append {a b x y : Bytes} (h : VerifiedFrames S userKey id a x id')
    (h' : VerifiedFrames S userKey id' b y id'') :
    VerifiedFrames S userKey id (a ++ b) (x ++ y) id'' := by
  induction h with
  | nil id => exact h'
  | cons hf _ ih =>
      rw [List.append_assoc, List.append_assoc]
      exact .cons hf (ih h')

/-- Fields that lie in the front part of a buffer. -/
theorem payloadPos_append {a t : Bytes} (h : 7 ≤ a.length) : payloadPos (a ++ t) = payloadPos a := by
  rw [payloadPos, payloadPos, byteAt_append_left (by omega), rdLe16_append_left (by omega)]

theorem take_window_append {a t : Bytes} (h : 4 ≤ a.length) :
    (a ++ t).take 2 = a.take 2 ∧ window (a ++ t) 2 2 = window a 2 2 ∧ rdLe16 (a ++ t) 0 = rdLe16 a 0 :=
  ⟨List.take_append_of_le_length (by omega), window_append_left (by omega),
    rdLe16_append_left (by omega)⟩

/-- A part of a frame whose checks hold. -/
theorem Verified.incomplete {f data p q : Bytes} (h : Verified S userKey id f data) (hf : p ++ q = f)
    (hq : q ≠ []) : Incomplete S userKey id p := by
  subst hf
  have hqpos := List.length_pos_iff.2 hq
  by_cases hlen : p.length ≤ 4
  · exact .inl hlen
  · obtain ⟨htake, hwindow, hsize⟩ := take_window_append (a := p) (t := q) (by omega)
    have hmac := h.lengthMac
    have hlower := h.lower
    have hupper := h.upper
    have hlength := h.size
    rw [htake, hwindow] at hmac
    rw [hsize, List.length_append] at hlength
    rw [List.length_append] at hlower hupper
    exact .inr ⟨hmac, by omega, by omega, by omega⟩

theorem Incomplete.of_append {b c : Bytes} (h : Incomplete S userKey id (b ++ c)) :
    Incomplete S userKey id b := by
  by_cases hlen : b.length ≤ 4
  · exact .inl hlen
  · obtain ⟨htake, hwindow, hsize⟩ := take_window_append (a := b) (t := c) (by omega)
    rcases h with hshort | ⟨hmac, hlower, hupper, hlength⟩
    · rw [List.length_append] at hshort
      omega
    · rw [htake, hwindow] at hmac
      rw [hsize] at hlower hupper hlength
      rw [List.length_append] at hlength
      exact .inr ⟨hmac, hlower, hupper, by omega⟩

/-- What has arrived of a well-formed stream is well formed. -/
theorem WellFormed.of_append {b c : Bytes} (h : WellFormed S userKey id (b ++ c)) :
    WellFormed S userKey id b := by
  obtain ⟨taken, payload, id', z, hframes, hcat, hz⟩ := h
  induction hframes generalizing b with
  | nil id =>
      rw [List.nil_append] at hcat
      subst hcat
      exact ⟨[], [], id, b, .nil id, rfl, hz.of_append⟩
  | @cons id id' f data t out hf _ ih =>
      rw [List.append_assoc] at hcat
      by_cases hlen : f.length ≤ b.length
      · obtain ⟨b', rfl⟩ : f <+: b :=
          List.prefix_of_prefix_length_le ⟨t ++ z, rfl⟩ ⟨c, hcat⟩ hlen
        rw [List.append_assoc] at hcat
        obtain ⟨taken', payload', id₂, z', hframes', rfl, hz'⟩ :=
          ih (List.append_cancel_left hcat) hz
        exact ⟨f ++ taken', data ++ payload', id₂, z', .cons hf hframes', by simp, hz'⟩
      · obtain ⟨q, hq⟩ : b <+: f :=
          List.prefix_of_prefix_length_le ⟨c, hcat⟩ ⟨t ++ z, rfl⟩ (by omega)
        refine ⟨[], [], id, b, .nil id, rfl, hf.incomplete hq ?_⟩
        rintro rfl
        rw [List.append_nil] at hq
        exact hlen (Nat.le_of_eq (by rw [hq]))

/-- Behind frames whose checks hold, the rest of a well-formed stream is well formed. -/
theorem WellFormed.rest {a x z : Bytes} (hframes : VerifiedFrames S userKey id a x id')
    (h : WellFormed S userKey id (a ++ z)) : WellFormed S userKey id' z := by
  induction hframes with
  | nil id => exact h
  | @cons id id' f data t out hf _ ih =>
      obtain ⟨taken, payload, id₂, z', hframes', hcat, hz'⟩ := h
      rw [List.append_assoc] at hcat
      have hlower := hf.lower
      obtain ⟨-, -, hsize⟩ := take_window_append (a := f) (t := t ++ z) (by omega)
      have hlength := hf.size
      -- the first frame is as long as it says in both readings
      cases hframes' with
      | nil id =>
          exfalso
          rw [List.nil_append] at hcat
          rw [hcat] at hsize
          have hlen := congrArg List.length hcat
          rw [List.length_append] at hlen
          rcases hz' with hshort | ⟨-, -, -, hlt⟩
          · omega
          · omega
      | @cons _ _ f' data' t' out' hf' hrest' =>
          have hlower' := hf'.lower
          have hlength' := hf'.size
          obtain ⟨-, -, hsize'⟩ := take_window_append (a := f') (t := t' ++ z') (by omega)
          rw [List.append_assoc] at hcat
          rw [hcat] at hsize
          have heq : f = f' := by
            have hprefix : f <+: f' := List.prefix_of_prefix_length_le ⟨t ++ z, hcat⟩
              ⟨t' ++ z', rfl⟩ (by omega)
            exact hprefix.eq_of_length (by omega)
          subst heq
          exact ih ⟨t', out', id₂, z', hrest', List.append_cancel_left hcat, hz'⟩

end Frames

/-! ## The receive loop -/

section Loop

variable {S : Suite} {userKey : Bytes} {st s' : UInt32 × Bool} {b : Bytes}

/-- The payload lies inside the frame. -/
theorem payload_append {f t : Bytes} (hstart : payloadPos f ≤ f.length - 4) :
    ((f ++ t).drop (payloadPos f)).take (f.length - 4 - payloadPos f) =
      (f.drop (payloadPos f)).take (f.length - 4 - payloadPos f) := by
  rw [List.drop_append_of_le_length (by omega), List.take_append_of_le_length]
  rw [List.length_drop]
  omega

/-- The loop body takes a frame whose checks hold. -/
theorem recvStep_of_verified {f data : Bytes} (h : Verified S userKey st.1 f data) (t : Bytes) :
    ∃ sendback, recvStep S userKey st (f ++ t) = .took (st.1 + 1, sendback) data f.length := by
  obtain ⟨hsize, hlower, hupper, hmac, hframe, hstart, rfl⟩ := h
  obtain ⟨htake, hwindow, hread⟩ := take_window_append (a := f) (t := t) (by omega)
  have hbody : (f ++ t).take (f.length - 4) = f.take (f.length - 4) :=
    List.take_append_of_le_length (by omega)
  have hend : window (f ++ t) (f.length - 4) 4 = window f (f.length - 4) 4 :=
    window_append_left (by omega)
  refine ⟨st.2 || payloadPos f == f.length - 4, ?_⟩
  rw [recvStep, if_neg (by rw [List.length_append]; omega)]
  simp only [htake, hwindow, hread, hsize, payloadPos_append hlower]
  rw [if_neg (by simp [hmac]), if_neg (by omega), if_neg (by rw [List.length_append]; omega), hbody,
    hend, if_neg (by simp [hframe]), if_neg (by omega),
    payload_append hstart]

/-- It waits on a part of a frame in which no check has failed. -/
theorem recvStep_of_incomplete (h : Incomplete S userKey st.1 b) :
    recvStep S userKey st b = .more st := by
  unfold recvStep
  by_cases hlen : b.length ≤ 4
  · rw [if_pos hlen]
  · obtain ⟨hmac, hlower, hupper, hshort⟩ := h.resolve_left hlen
    rw [if_neg hlen]
    dsimp only
    rw [if_neg (by simp [hmac]), if_neg (by omega), if_pos hshort]

/-- The checks of the loop body, on a frame with something behind it. -/
theorem verified_of_checks {id : UInt32} {f t : Bytes} (hsize : rdLe16 (f ++ t) 0 = f.length)
    (hlower : 7 ≤ f.length) (hupper : f.length < 8192)
    (hmac : (S.hmac.run ((f ++ t).take 2) (frameKey userKey id)).take 2 = window (f ++ t) 2 2)
    (hframe : (S.hmac.run ((f ++ t).take (f.length - 4)) (frameKey userKey id)).take 4 =
      window (f ++ t) (f.length - 4) 4) (hstart : payloadPos (f ++ t) ≤ f.length - 4) :
    Verified S userKey id f (((f ++ t).drop (payloadPos (f ++ t))).take
      (f.length - 4 - payloadPos (f ++ t))) := by
  obtain ⟨htake, hwindow, hread⟩ := take_window_append (a := f) (t := t) (by omega)
  rw [payloadPos_append hlower] at hstart ⊢
  rw [htake, hwindow] at hmac
  rw [List.take_append_of_le_length (by omega), window_append_left (by omega)] at hframe
  exact ⟨hread.symm.trans hsize, hlower, hupper, hmac, hframe, hstart, payload_append hstart⟩

/-- Whatever it takes is a frame whose checks hold. -/
theorem recvStep_took {out : Bytes} {n : ℕ} (h : recvStep S userKey st b = .took s' out n) :
    s'.1 = st.1 + 1 ∧ ∃ f t, b = f ++ t ∧ f.length = n ∧ Verified S userKey st.1 f out := by
  unfold recvStep at h
  split at h
  · cases h
  · rename_i hlen
    dsimp only at h
    split at h
    · cases h
    · rename_i hmac
      split at h
      · cases h
      · rename_i hsize
        split at h
        · cases h
        · rename_i hshort
          obtain ⟨f, t, hcat, hf⟩ : ∃ f t, b = f ++ t ∧ f.length = rdLe16 b 0 :=
            ⟨b.take (rdLe16 b 0), b.drop (rdLe16 b 0), (List.take_append_drop _ _).symm,
              List.length_take_of_le (by omega)⟩
          split at h
          · cases h
          · rename_i hframe
            split at h
            · cases h
            · rename_i hstart
              rw [← hf] at h hframe hstart hsize
              cases h
              refine ⟨rfl, f, t, hcat, rfl, ?_⟩
              rw [hcat] at hf hmac hframe hstart ⊢
              exact verified_of_checks hf.symm (by omega) (by omega) (not_not.1 hmac)
                (not_not.1 hframe) (by omega)

/-- It waits on nothing but a part of a frame in which no check has failed. -/
theorem recvStep_more (h : recvStep S userKey st b = .more s') :
    s' = st ∧ Incomplete S userKey st.1 b := by
  unfold recvStep at h
  split at h
  · rename_i hlen
    cases h
    exact ⟨rfl, .inl hlen⟩
  · dsimp only at h
    split at h
    · cases h
    · rename_i hmac
      split at h
      · cases h
      · rename_i hsize
        split at h
        · rename_i hshort
          cases h
          exact ⟨rfl, .inr ⟨not_not.1 hmac, by omega, by omega, hshort⟩⟩
        · split at h
          · cases h
          · split at h <;> cases h

/-- A loop without errors takes frames whose checks hold, and leaves a part of another one. -/
theorem drain_verified {fuel : ℕ} {acc : Bytes} (hfuel : b.length < fuel)
    (hstop : (drain (recvStep S userKey) fuel st b acc).stop = none) :
    ∃ taken payload,
      VerifiedFrames S userKey st.1 taken payload (drain (recvStep S userKey) fuel st b acc).state.1 ∧
        b = taken ++ (drain (recvStep S userKey) fuel st b acc).rest ∧
        (drain (recvStep S userKey) fuel st b acc).out = acc ++ payload ∧
        Incomplete S userKey (drain (recvStep S userKey) fuel st b acc).state.1
          (drain (recvStep S userKey) fuel st b acc).rest := by
  induction fuel generalizing st b acc with
  | zero => omega
  | succ fuel ih =>
      cases hstep : recvStep S userKey st b with
      | more s' =>
          obtain ⟨rfl, hrest⟩ := recvStep_more hstep
          rw [drain_more hstep]
          exact ⟨[], [], .nil _, rfl, (List.append_nil _).symm, hrest⟩
      | halt s' e =>
          rw [drain_halt hstep] at hstop
          cases hstop
      | took s' out n =>
          obtain ⟨hid, f, t, rfl, rfl, hf⟩ := recvStep_took hstep
          rw [drain_took hstep, List.drop_left] at hstop ⊢
          have hlower := hf.lower
          obtain ⟨taken, payload, hframes, hcat, hout, hrest⟩ :=
            ih (by rw [List.length_append] at hfuel; omega) hstop
          rw [hid] at hframes
          refine ⟨f ++ taken, out ++ payload, .cons hf hframes, ?_, ?_, hrest⟩
          · rw [List.append_assoc, ← hcat]
          · rw [hout, List.append_assoc]

/-- On a well-formed stream the loop has no errors. -/
theorem drain_of_wellFormed {fuel : ℕ} {acc : Bytes} (hfuel : b.length < fuel)
    (h : WellFormed S userKey st.1 b) : (drain (recvStep S userKey) fuel st b acc).stop = none := by
  obtain ⟨taken, payload, id', z, hframes, rfl, hz⟩ := h
  generalize hid : st.1 = id at hframes
  induction hframes generalizing fuel st acc with
  | nil id =>
      subst hid
      cases fuel with
      | zero => omega
      | succ fuel => rw [List.nil_append, drain_more (recvStep_of_incomplete hz)]
  | @cons id id' f data t out hf _ ih =>
      subst hid
      have hlower := hf.lower
      obtain ⟨sendback, hstep⟩ := recvStep_of_verified hf (t ++ z)
      rw [List.append_assoc] at hfuel ⊢
      cases fuel with
      | zero => omega
      | succ fuel =>
          rw [drain_took hstep, List.drop_left]
          rw [List.length_append] at hfuel
          exact ih hz (by omega) rfl

end Loop

/-! ## The server's calls -/

/-- The bytes that the caller gets. -/
def PostDecrypt.returned : PostDecrypt → Bytes
  | .out buf _ => buf
  | .notMatch buf => buf
  | .crash => []

/-- A call in which a check has failed. -/
def PostDecrypt.Refused : PostDecrypt → Prop
  | .out _ _ => False
  | .notMatch _ => True
  | .crash => True

section Calls

variable {S : Suite} {info : ServerInfo}

/-- From `l` to `l'` the server takes frames whose checks hold from `stream`, with this payload. -/
structure Consumes (S : Suite) (l l' : LocalData) (stream payload : Bytes) : Prop where
  header : l'.hasRecvHeader = l.hasRecvHeader
  userKey : l'.userKey = l.userKey
  incomplete : Incomplete S l'.userKey l'.recvId l'.recvBuffer
  frames : ∃ taken, VerifiedFrames S l.userKey l.recvId taken payload l'.recvId ∧
    stream = taken ++ l'.recvBuffer

/-- Calls that return the payload of a well-formed stream behind `first`, and refuse any other. -/
structure Filters (S : Suite) (l l' : LocalData) (stream first returned : Bytes) (refused : Prop) :
    Prop where
  accepts : WellFormed S l.userKey l.recvId stream →
    ∃ payload, Consumes S l l' stream payload ∧ returned = first ++ payload
  refuses : ¬ WellFormed S l.userKey l.recvId stream → refused

/-- Calls behind each other; the later ones start with what the earlier ones leave. -/
theorem Filters.append {l l₁ l₂ : LocalData} {b c first r₁ r₂ : Bytes} {p₁ p₂ : Prop}
    (h : Filters S l l₁ b first r₁ p₁)
    (h' : ∀ payload, Consumes S l l₁ b payload → Filters S l₁ l₂ (l₁.recvBuffer ++ c) [] r₂ p₂) :
    Filters S l l₂ (b ++ c) first (r₁ ++ r₂) (p₁ ∨ p₂) := by
  by_cases hfirst : WellFormed S l.userKey l.recvId b
  · obtain ⟨payload, hconsumes, rfl⟩ := h.accepts hfirst
    obtain ⟨haccepts, hrefuses⟩ := h' payload hconsumes
    obtain ⟨hheader, hkey, -, taken, hframes, rfl⟩ := hconsumes
    rw [hkey] at haccepts hrefuses
    rw [List.append_assoc]
    constructor
    · intro hall
      obtain ⟨payload', ⟨hheader', hkey', hincomplete, taken', hframes', hsplit⟩, hreturned⟩ :=
        haccepts (hall.rest hframes)
      rw [hkey] at hframes'
      refine ⟨payload ++ payload', ⟨hheader'.trans hheader, hkey'.trans hkey, hincomplete,
        taken ++ taken', hframes.append hframes', ?_⟩, ?_⟩
      · rw [hsplit, List.append_assoc]
      · rw [hreturned, List.nil_append, List.append_assoc]
    · intro hall
      refine .inr (hrefuses ?_)
      rintro ⟨taken', payload', id', z, hframes', hz, hrest⟩
      refine hall ⟨taken ++ taken', payload ++ payload', id', z, hframes.append hframes', ?_, hrest⟩
      rw [hz, List.append_assoc]
  · exact ⟨fun hall => absurd hall.of_append hfirst, fun _ => .inl (h.refuses hfirst)⟩

/-- One run of the receive loop. -/
theorem recvLoop_filters (S : Suite) (l : LocalData) (first : Bytes) (sendback : Bool) :
    Filters S l (recvLoop S l first sendback).1 l.recvBuffer first
      (recvLoop S l first sendback).2.returned (recvLoop S l first sendback).2.Refused := by
  have hfuel := Nat.lt_succ_self l.recvBuffer.length
  unfold recvLoop
  dsimp only
  constructor
  · intro h
    have hstop : (drain (recvStep S l.userKey) (l.recvBuffer.length + 1) (l.recvId, sendback)
        l.recvBuffer first).stop = none := drain_of_wellFormed hfuel h
    obtain ⟨taken, payload, hframes, hcat, hout, hrest⟩ := drain_verified hfuel hstop
    rw [hstop]
    exact ⟨payload, ⟨rfl, rfl, hrest, taken, hframes, hcat⟩, hout⟩
  · intro h
    split
    · rename_i hstop
      obtain ⟨taken, payload, hframes, hcat, -, hrest⟩ := drain_verified hfuel hstop
      exact h ⟨taken, payload, _, _, hframes, hcat, hrest⟩
    · trivial
    · trivial

/-- Calls behind the authentication frame, from a state that carries a part of a frame. -/
theorem run_filters {l : LocalData} (hl : l.hasRecvHeader = true)
    (hrest : Incomplete S l.userKey l.recvId l.recvBuffer) (calls : List (ℕ × Bytes)) :
    Filters S l (run (serverPostDecrypt S info) l calls).1
      (l.recvBuffer ++ (calls.map Prod.snd).flatten) []
      ((run (serverPostDecrypt S info) l calls).2.map PostDecrypt.returned).flatten
      (∃ o ∈ (run (serverPostDecrypt S info) l calls).2, o.Refused) := by
  induction calls generalizing l with
  | nil =>
      have hcat : l.recvBuffer ++ (List.map Prod.snd ([] : List (ℕ × Bytes))).flatten =
          [] ++ l.recvBuffer := by simp
      refine ⟨fun _ => ⟨[], ⟨rfl, rfl, hrest, [], .nil _, hcat⟩, rfl⟩, fun h => ?_⟩
      exact absurd ⟨[], [], _, _, .nil _, hcat, hrest⟩ h
  | cons call calls ih =>
      obtain ⟨now, seg⟩ := call
      have hopen : serverPostDecrypt S info l (now, seg) = recvLoop S (received l seg) [] false :=
        serverPostDecrypt_open hl now seg
      have hfirst := recvLoop_filters S (received l seg) [] false
      rw [← hopen] at hfirst
      have hboth := hfirst.append fun _ h => ih (h.header.trans hl) h.incomplete
      simp only [run_cons, List.map_cons, List.flatten_cons, List.exists_mem_cons_iff]
      rw [← List.append_assoc]
      refine ⟨fun h => ?_, hboth.refuses⟩
      obtain ⟨payload, ⟨hheader, hkey, hincomplete, hframes⟩, hreturned⟩ := hboth.accepts h
      exact ⟨payload, ⟨hheader, hkey, hincomplete, hframes⟩, hreturned⟩

theorem readHeader_done_header {now : ℕ} {l l' : LocalData} {out : Bytes}
    (h : readHeader S info now l = .done l' out) : l'.hasRecvHeader = true := by
  unfold readHeader at h
  dsimp only at h
  split at h
  · cases h
  · split at h
    · cases h
    · split at h
      · split at h <;> cases h
      · split at h
        · cases h
        · split at h
          · cases h
          · split at h
            · cases h
            · split at h
              · cases h
              · split at h
                · cases h
                · cases h
                  rfl

/-- What the server may return: the payload of the authentication frame, and then those of frames
whose checks hold, in order and without gaps. -/
def Authentic (S : Suite) (info : ServerInfo) (l : LocalData) (call : ℕ × Bytes) (l' : LocalData)
    (first : Bytes) (calls : List (ℕ × Bytes)) : Prop :=
  ∃ taken payload,
    VerifiedFrames S l'.userKey l'.recvId taken payload
        (run (serverPostDecrypt S info) l (call :: calls)).1.recvId ∧
      l'.recvBuffer ++ (calls.map Prod.snd).flatten =
        taken ++ (run (serverPostDecrypt S info) l (call :: calls)).1.recvBuffer ∧
      ((run (serverPostDecrypt S info) l (call :: calls)).2.map PostDecrypt.returned).flatten =
        first ++ payload

/-- The call that accepts the authentication frame, and the calls behind it. -/
theorem accepted_filters {l l' : LocalData} {now : ℕ} {seg first : Bytes}
    (hl : l.hasRecvHeader = false) (hhead : readHeader S info now (received l seg) = .done l' first)
    (calls : List (ℕ × Bytes)) :
    Filters S l' (run (serverPostDecrypt S info) l ((now, seg) :: calls)).1
      (l'.recvBuffer ++ (calls.map Prod.snd).flatten) first
      ((run (serverPostDecrypt S info) l ((now, seg) :: calls)).2.map PostDecrypt.returned).flatten
      (∃ o ∈ (run (serverPostDecrypt S info) l ((now, seg) :: calls)).2, o.Refused) := by
  have hdone : serverPostDecrypt S info l (now, seg) = recvLoop S l' first true :=
    serverPostDecrypt_done hl hhead
  have hfirst := recvLoop_filters S l' first true
  rw [← hdone] at hfirst
  simp only [run_cons, List.map_cons, List.flatten_cons, List.exists_mem_cons_iff]
  exact hfirst.append fun _ h =>
    run_filters (h.header.trans (readHeader_done_header hhead)) h.incomplete calls

/-- Output authenticity: once the authentication frame is accepted, the server returns nothing but
payload of frames whose checks hold, at every point of a stream that consists of such frames.  On
any other stream some call gives the caller the buffer for a failed check, or does not come back. -/
theorem returned_bytes_verified (S : Suite) (info : ServerInfo) (l l' : LocalData) (now : ℕ)
    (seg first : Bytes) (calls : List (ℕ × Bytes)) (hl : l.hasRecvHeader = false)
    (hhead : readHeader S info now (received l seg) = .done l' first) :
    (WellFormed S l'.userKey l'.recvId (l'.recvBuffer ++ (calls.map Prod.snd).flatten) →
      ∀ k, Authentic S info l (now, seg) l' first (calls.take k)) ∧
    (¬ WellFormed S l'.userKey l'.recvId (l'.recvBuffer ++ (calls.map Prod.snd).flatten) →
      ∃ o ∈ (run (serverPostDecrypt S info) l ((now, seg) :: calls)).2, o.Refused) := by
  refine ⟨fun h k => ?_, (accepted_filters hl hhead calls).refuses⟩
  -- the first calls have received a first part of the stream
  have hsplit : l'.recvBuffer ++ (calls.map Prod.snd).flatten =
      l'.recvBuffer ++ ((calls.take k).map Prod.snd).flatten ++
        ((calls.drop k).map Prod.snd).flatten := by
    rw [List.append_assoc, ← List.flatten_append, ← List.map_append, List.take_append_drop]
  rw [hsplit] at h
  obtain ⟨payload, hconsumes, hreturned⟩ := (accepted_filters hl hhead (calls.take k)).accepts h.of_append
  obtain ⟨taken, hframes, hcat⟩ := hconsumes.frames
  exact ⟨taken, payload, hframes, hcat, hreturned⟩

end Calls

/-- The user of the sample connection. -/
def sampleUser : Bytes × Bytes := (randBytes sampleDraws.auth.uid 4, sampleInfo.key)

/-- The bytes of a client's first call, with one payload. -/
def sampleAuth : Bytes :=
  authFrame authAes128Sha1 (sampleInfo.recvIv ++ sampleInfo.key) sampleUser
    (nextConnection sampleGlobal sampleDraws.auth) sampleDraws.auth [1, 2, 3]

/-- The server behind them. -/
def sampleAccepted : LocalData :=
  accepted (received (localDataInit 0) sampleAuth) sampleUser
    (authPlain (nextConnection sampleGlobal sampleDraws.auth) sampleDraws.auth [1, 2, 3]) []

theorem sampleAccepted_recvBuffer : sampleAccepted.recvBuffer = [] := rfl

theorem sample_accepted :
    readHeader authAes128Sha1 sampleInfo 1500000010 (received (localDataInit 0) sampleAuth) =
      .done sampleAccepted [1, 2, 3] := by
  have hcat : (received (localDataInit 0) sampleAuth).recvBuffer = sampleAuth ++ [] := by
    rw [List.append_nil]
    exact List.nil_append sampleAuth
  exact readHeader_done (randBytes_length _ _) rfl (by decide) hcat (by decide)

/-- One data frame, in two pieces. -/
def sampleData : Bytes :=
  dataFrame authAes128Sha1 (frameKey sampleInfo.key 1) 1 (fun _ => 3) [4, 5]

theorem returned_bytes_verified_sample :
    Authentic authAes128Sha1 sampleInfo (localDataInit 0) (1500000010, sampleAuth) sampleAccepted
      [1, 2, 3] [(1500000020, sampleData.take 3), (1500000030, sampleData.drop 3)] := by
  have hfits : FrameFits 1 ([4, 5] : Bytes) := ⟨by decide, by decide⟩
  obtain ⟨sendback, hstep⟩ : ∃ sendback, recvStep authAes128Sha1 sampleInfo.key (1, false)
      (sampleData ++ []) = .took (1 + 1, sendback) [4, 5] sampleData.length := recvStep_full hfits []
  obtain ⟨-, f, t, hcat, hlen, hf⟩ := recvStep_took hstep
  have hdata : f = sampleData := by
    have hprefix : f <+: sampleData ++ [] := ⟨t, hcat.symm⟩
    rw [List.append_nil] at hprefix
    exact hprefix.eq_of_length hlen
  subst hdata
  refine (returned_bytes_verified authAes128Sha1 sampleInfo (localDataInit 0) sampleAccepted
    1500000010 sampleAuth [1, 2, 3]
    [(1500000020, sampleData.take 3), (1500000030, sampleData.drop 3)] rfl sample_accepted).1 ?_ 2
  refine ⟨sampleData ++ [], [4, 5] ++ [], _, [], .cons hf (.nil _), ?_, .inl (by decide)⟩
  simp only [sampleAccepted_recvBuffer, List.map_cons, List.map_nil, List.flatten_cons,
    List.flatten_nil, List.append_nil, List.nil_append, List.take_append_drop]

/-- A length of zero fails one of the first two checks. -/
theorem recvStep_zeros (S : Suite) (userKey : Bytes) (st : UInt32 × Bool) :
    ∃ reset, recvStep S userKey st [0, 0, 0, 0, 0] = .halt st (.invalid reset) := by
  unfold recvStep
  rw [if_neg (by decide)]
  dsimp only
  split
  · exact ⟨false, rfl⟩
  · exact ⟨true, if_pos (.inr (by decide))⟩

/-- Too few bytes for a frame. -/
theorem VerifiedFrames.eq_nil {S : Suite} {userKey : Bytes} {id id' : UInt32} {taken payload : Bytes}
    (h : VerifiedFrames S userKey id taken payload id') (hlen : taken.length < 7) : payload = [] := by
  cases h with
  | nil => rfl
  | cons hf _ =>
      have hlower := hf.lower
      rw [List.length_append] at hlen
      omega

theorem recvLoop_nil (S : Suite) {l : LocalData} (h : l.recvBuffer = []) (first : Bytes)
    (sendback : Bool) : recvLoop S l first sendback = (l, .out first sendback) := by
  have hstep : recvStep S l.userKey (l.recvId, sendback) [] = .more (l.recvId, sendback) := rfl
  rw [recvLoop, h, drain_more hstep, ← h]

/-- The buffer of a failed check. -/
theorem recvLoop_zeros {S : Suite} (hsalt : S.salt ≠ []) {l : LocalData}
    (h : l.recvBuffer = [0, 0, 0, 0, 0]) (sendback : Bool) :
    (recvLoop S l [] sendback).2.returned = List.replicate 2048 0x45 ++ [0] := by
  obtain ⟨reset, hstep⟩ := recvStep_zeros S l.userKey (l.recvId, sendback)
  rw [recvLoop, h, drain_halt hstep]
  exact if_neg hsalt

/-- Five zero bytes behind the authentication frame: the caller gets 2049 bytes that nobody sent. -/
theorem returned_bytes_not_verified :
    readHeader authAes128Sha1 sampleInfo 1500000010 (received (localDataInit 0) sampleAuth) =
        .done sampleAccepted [1, 2, 3] ∧
      ¬ Authentic authAes128Sha1 sampleInfo (localDataInit 0) (1500000010, sampleAuth) sampleAccepted
        [1, 2, 3] [(1500000020, [0, 0, 0, 0, 0])] := by
  refine ⟨sample_accepted, ?_⟩
  rintro ⟨taken, payload, hframes, hcat, hreturned⟩
  -- five bytes are no frame
  have hpayload : payload = [] := by
    refine hframes.eq_nil ?_
    have hfive : (sampleAccepted.recvBuffer ++
        (List.map Prod.snd [((1500000020 : ℕ), ([0, 0, 0, 0, 0] : Bytes))]).flatten).length = 5 := by
      rw [sampleAccepted_recvBuffer]
      rfl
    rw [hcat, List.length_append] at hfive
    omega
  have hfirst : serverPostDecrypt authAes128Sha1 sampleInfo (localDataInit 0) (1500000010, sampleAuth) =
      recvLoop authAes128Sha1 sampleAccepted [1, 2, 3] true := serverPostDecrypt_done rfl sample_accepted
  have hsecond : serverPostDecrypt authAes128Sha1 sampleInfo sampleAccepted
      (1500000020, [0, 0, 0, 0, 0]) =
      recvLoop authAes128Sha1 (received sampleAccepted [0, 0, 0, 0, 0]) [] false :=
    serverPostDecrypt_open rfl _ _
  have hsalt : authAes128Sha1.salt ≠ [] := by
    intro h
    have := congrArg List.length h
    simp [authAes128Sha1, ascii] at this
  have hfiller : (recvLoop authAes128Sha1 (received sampleAccepted [0, 0, 0, 0, 0]) [] false).2.returned =
      List.replicate 2048 0x45 ++ [0] :=
    recvLoop_zeros hsalt (congrArg (· ++ [0, 0, 0, 0, 0]) sampleAccepted_recvBuffer) false
  rw [run_cons, hfirst, recvLoop_nil authAes128Sha1 sampleAccepted_recvBuffer, run_cons, hsecond, hpayload] at hreturned
  simp only [run_nil, List.map_cons, List.map_nil, List.flatten_cons, List.flatten_nil, hfiller] at hreturned
  have hnil := List.append_cancel_left hreturned
  rw [List.append_nil, List.append_eq_nil_iff] at hnil
  exact absurd hnil.2 (by simp)

end AuthAes128
end Obfs
end SsrNative
