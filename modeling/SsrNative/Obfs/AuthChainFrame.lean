import SsrNative.Obfs.AuthChain

/-!
# AuthChainFrame — the frame codec of the auth_chain protocols

What a receiver makes of a frame, of a part of it and of its first byte alone.  The two peers agree
on a direction of the connection when they agree on the number, the hash and the keystream; their
generators may differ, because they are reseeded for every frame.
-/

namespace SsrNative
namespace Obfs
namespace AuthChain

open Bytes
open Lib.Segments
open Lib.Framing

/-! ## Lengths -/

theorem xor_cancel (x m : UInt8) : x ^^^ m ^^^ m = x := by
  rw [UInt8.xor_assoc, UInt8.xor_self, UInt8.xor_zero]

@[simp] theorem maskLen_length (hash : Bytes) (n : ℕ) : (maskLen hash n).length = 2 := rfl

/-- Two bytes of a frame give its length. -/
theorem unmaskLen_of_cat {hash b r t : Bytes} {n : ℕ} (hcat : b ++ r = maskLen hash n ++ t)
    (hlen : 2 ≤ b.length) : unmaskLen hash b = n % 65536 := by
  have h0 : byteAt b 0 = UInt8.ofNat n ^^^ byteAt hash 14 := by
    rw [← byteAt_append_left (l := r) (by omega), hcat]
    rfl
  have h1 : byteAt b 1 = UInt8.ofNat (n / 256) ^^^ byteAt hash 15 := by
    rw [← byteAt_append_left (l := r) (by omega), hcat]
    rfl
  rw [unmaskLen, h0, h1, xor_cancel, xor_cancel, UInt8.toNat_ofNat', UInt8.toNat_ofNat']
  omega

/-- One byte of a frame gives the low half of its length and the mask of the high half. -/
theorem unmaskLen_one {hash b r t : Bytes} {n : ℕ} (hcat : b ++ r = maskLen hash n ++ t)
    (hlen : b.length = 1) : unmaskLen hash b = (byteAt hash 15).toNat * 256 + n % 256 := by
  have h0 : byteAt b 0 = UInt8.ofNat n ^^^ byteAt hash 14 := by
    rw [← byteAt_append_left (l := r) (by omega), hcat]
    rfl
  have h1 : byteAt b 1 = 0 := by
    rw [byteAt, List.getD_eq_getElem?_getD, List.getElem?_eq_none (by omega)]
    rfl
  rw [unmaskLen, h0, h1, xor_cancel, UInt8.zero_xor, UInt8.toNat_ofNat']

/-- Padding never takes a length over the limit. -/
theorem Variant.oversize_iff (V : Variant) (n : ℕ) (random : Shift128Plus) (hash : Bytes) :
    4096 ≤ n + (V.getTcpRandLen n random hash).2 ↔ 4096 ≤ n := by
  have hlt := V.randLen_lt n random hash
  by_cases hn : 1440 < n
  · rw [V.randLen_of_large n random hash hn, Nat.add_zero]
  · omega

/-! ## Frames -/

section Frame

variable {V : Variant} {S : Suite}

/-- The peers agree on a direction of the connection. -/
structure SameChain (c₀ c : Chain S) : Prop where
  id : c₀.id = c.id
  hash : c₀.hash = c.hash
  cipher : c₀.cipher = c.cipher

theorem SameChain.refl (c : Chain S) : SameChain c c := ⟨rfl, rfl, rfl⟩

theorem SameChain.symm {c₀ c : Chain S} (h : SameChain c₀ c) : SameChain c c₀ :=
  ⟨h.id.symm, h.hash.symm, h.cipher.symm⟩

theorem SameChain.trans {c₀ c₁ c₂ : Chain S} (h : SameChain c₀ c₁) (h' : SameChain c₁ c₂) :
    SameChain c₀ c₂ :=
  ⟨h.id.trans h'.id, h.hash.trans h'.hash, h.cipher.trans h'.cipher⟩

variable (V S) in
/-- The length of the padding of the next frame. -/
def randLen (c : Chain S) (n : ℕ) : ℕ := (V.getTcpRandLen n c.random c.hash).2

variable (V S) in
/-- Where the data of the next frame starts in the padding. -/
def startPos (c : Chain S) (n : ℕ) : ℕ :=
  if 0 < n then (getRandStartPos (randLen V S c n) (V.getTcpRandLen n c.random c.hash).1).2 else 0

theorem startPos_le (c : Chain S) (n : ℕ) : startPos V S c n ≤ randLen V S c n := by
  unfold startPos
  split
  · by_cases hpos : 0 < randLen V S c n
    · exact Nat.le_of_lt (getRandStartPos_lt hpos _)
    · simp [getRandStartPos, hpos]
  · exact Nat.zero_le _

/-- The padding does not depend on the history of the generator. -/
theorem randLen_congr {c₀ c : Chain S} (h : SameChain c₀ c) (n : ℕ) :
    randLen V S c₀ n = randLen V S c n := by
  unfold randLen
  rw [h.hash]
  exact (V.reseeds n c₀.random c.random c.hash).1

variable (V S) in
/-- The generator and the place of the data as a receiver computes them. -/
def foundStart (c : Chain S) (n : ℕ) : Shift128Plus × ℕ :=
  if 0 < n ∧ 0 < (V.getTcpRandLen n c.random c.hash).2 then
    getRandStartPos (V.getTcpRandLen n c.random c.hash).2 (V.getTcpRandLen n c.random c.hash).1
  else ((V.getTcpRandLen n c.random c.hash).1, 0)

/-- Neither does the place of the data, which the receiver finds as the sender chose it. -/
theorem foundStart_congr {c₀ c : Chain S} (h : SameChain c₀ c) (n : ℕ) :
    (foundStart V S c₀ n).2 = startPos V S c n := by
  have hfound : foundStart V S c₀ n = if 0 < n ∧ 0 < randLen V S c₀ n then
      getRandStartPos (randLen V S c₀ n) (V.getTcpRandLen n c₀.random c₀.hash).1
      else ((V.getTcpRandLen n c₀.random c₀.hash).1, 0) := rfl
  rw [hfound]
  have hrand := randLen_congr (V := V) h n
  by_cases hn : 0 < n
  · by_cases hr : 0 < randLen V S c₀ n
    · have hstate : (V.getTcpRandLen n c₀.random c₀.hash).1 = (V.getTcpRandLen n c.random c.hash).1 := by
        have hr' := hr
        unfold randLen at hr'
        rw [h.hash] at hr' ⊢
        exact (V.reseeds n c₀.random c.random c.hash).2 hr'
      rw [if_pos ⟨hn, hr⟩, startPos, if_pos hn, hrand, hstate]
    · have hzero : randLen V S c n = 0 := by omega
      rw [if_neg (fun hboth => hr hboth.2), startPos, if_pos hn, hzero]
      rfl
  · rw [if_neg (fun hboth => hn hboth.1), startPos, if_neg hn]

variable (V S) in
/-- A frame up to its hash. -/
def frameBody (c : Chain S) (pad : ℕ → UInt8) (data : Bytes) : Bytes :=
  maskLen c.hash data.length ++
    ((randBytes pad (randLen V S c data.length)).take (startPos V S c data.length) ++
      ((run S.rc4.enc c.cipher data).2 ++
        (randBytes pad (randLen V S c data.length)).drop (startPos V S c data.length)))

variable (userKey : Bytes) (c : Chain S) (pad : ℕ → UInt8) (data : Bytes)

theorem packFrame_bytes : (packFrame V S userKey c pad data).2 =
    frameBody V S c pad data ++
      (S.hmac.run (frameBody V S c pad data) (frameKey userKey c.id)).take 2 := by
  simp only [packFrame, frameBody, startPos, randLen]
  split <;> rfl

theorem packFrame_chain : SameChain (packFrame V S userKey c pad data).1
    ⟨c.id + 1, S.hmac.run (frameBody V S c pad data) (frameKey userKey c.id), c.random,
      (run S.rc4.enc c.cipher data).1⟩ := by
  refine ⟨rfl, ?_, rfl⟩
  simp only [packFrame, frameBody, startPos, randLen]
  split <;> rfl

theorem frameBody_length :
    (frameBody V S c pad data).length = data.length + randLen V S c data.length + 2 := by
  have hstart := startPos_le (V := V) c data.length
  simp only [frameBody, List.length_append, maskLen_length, List.length_take, List.length_drop,
    randBytes_length, run_snd_length]
  omega

theorem packFrame_length : (packFrame V S userKey c pad data).2.length =
    data.length + randLen V S c data.length + 4 := by
  rw [packFrame_bytes, List.length_append, frameBody_length, List.length_take, S.hmac.run_length]
  omega

theorem packFrame_ne_nil : (packFrame V S userKey c pad data).2 ≠ [] := by
  have hlen := packFrame_length (V := V) userKey c pad data
  intro hnil
  rw [hnil, List.length_nil] at hlen
  omega

theorem packFrame_append_ne_nil (t : Bytes) : (packFrame V S userKey c pad data).2 ++ t ≠ [] := by
  intro hnil
  exact packFrame_ne_nil userKey c pad data (List.append_eq_nil_iff.1 hnil).1

/-- A frame starts with its masked length. -/
theorem packFrame_head (t : Bytes) : ∃ l : Bytes,
    (packFrame V S userKey c pad data).2 ++ t = maskLen c.hash data.length ++ l := by
  rw [packFrame_bytes, frameBody]
  exact ⟨_, by simp only [List.append_assoc]; rfl⟩

/-! ## Receiving -/

variable {c} {c₀ : Chain S}

/-- A length over the limit. -/
theorem readFrame_over {b : Bytes} (h : 4096 ≤ unmaskLen c₀.hash b) :
    ∃ c₂, readFrame V S userKey c₀ b = .halt c₂ () ∧ c₂.id = c₀.id := by
  refine ⟨{ c₀ with random := (V.getTcpRandLen (unmaskLen c₀.hash b) c₀.random c₀.hash).1 }, ?_, rfl⟩
  rw [readFrame, if_pos ((V.oversize_iff _ _ _).2 h)]

/-- A length that is not complete. -/
theorem readFrame_short {b : Bytes} (h : unmaskLen c₀.hash b < 4096)
    (hlen : b.length < unmaskLen c₀.hash b + randLen V S c₀ (unmaskLen c₀.hash b) + 4) :
    ∃ c₂, readFrame V S userKey c₀ b = .more c₂ ∧ SameChain c₂ c₀ := by
  refine ⟨{ c₀ with random := (V.getTcpRandLen (unmaskLen c₀.hash b) c₀.random c₀.hash).1 }, ?_,
    rfl, rfl, rfl⟩
  have hfits : ¬ 4096 ≤ unmaskLen c₀.hash b +
      (V.getTcpRandLen (unmaskLen c₀.hash b) c₀.random c₀.hash).2 := by
    rw [V.oversize_iff]
    omega
  unfold randLen at hlen
  rw [readFrame, if_neg hfits, if_pos hlen]

variable {userKey} in
/-- A receiver waits on less than the longest frame. -/
theorem readFrame_more_length {b : Bytes} {c₂ : Chain S}
    (h : readFrame V S userKey c₀ b = .more c₂) : b.length < 4100 := by
  unfold readFrame at h
  dsimp only at h
  split at h
  · cases h
  · split at h
    · omega
    · split at h <;> cases h

variable {userKey} in
/-- A receiver takes at most what has arrived. -/
theorem readFrame_took_length {b out : Bytes} {n : ℕ} {c₂ : Chain S}
    (h : readFrame V S userKey c₀ b = .took c₂ out n) : 0 < n ∧ n ≤ b.length := by
  unfold readFrame at h
  dsimp only at h
  split at h
  · cases h
  · split at h
    · cases h
    · split at h
      · cases h
      · cases h
        omega

/-- A complete frame. -/
theorem readFrame_full (hsame : SameChain c₀ c) (hfits : data.length < 4096) (l : Bytes) :
    ∃ c₂, readFrame V S userKey c₀ ((packFrame V S userKey c pad data).2 ++ l) =
        .took c₂ data (packFrame V S userKey c pad data).2.length ∧
      SameChain c₂ (packFrame V S userKey c pad data).1 := by
  have hflen := packFrame_length (V := V) userKey c pad data
  have hblen := frameBody_length (V := V) c pad data
  have hrand := randLen_congr (V := V) hsame data.length
  have hstart := foundStart_congr (V := V) hsame data.length
  obtain ⟨t, ht⟩ := packFrame_head (V := V) userKey c pad data l
  have hunmask : unmaskLen c₀.hash ((packFrame V S userKey c pad data).2 ++ l) = data.length := by
    rw [← List.append_nil (_ ++ l)] at ht
    rw [hsame.hash, unmaskLen_of_cat ht (by rw [List.length_append]; omega)]
    omega
  -- the parts of the frame
  have hbytes : (packFrame V S userKey c pad data).2 ++ l = frameBody V S c pad data ++
      ((S.hmac.run (frameBody V S c pad data) (frameKey userKey c.id)).take 2 ++ l) := by
    rw [packFrame_bytes, List.append_assoc]
  have hbody : ((packFrame V S userKey c pad data).2 ++ l).take
      (data.length + randLen V S c data.length + 2) = frameBody V S c pad data := by
    rw [hbytes]
    exact List.take_left' hblen
  have hmac : window ((packFrame V S userKey c pad data).2 ++ l)
      (data.length + randLen V S c data.length + 2) 2 =
        (S.hmac.run (frameBody V S c pad data) (frameKey userKey c.id)).take 2 := by
    rw [hbytes]
    exact window_field hblen (by rw [List.length_take, S.hmac.run_length]; rfl)
  have hdata : window ((packFrame V S userKey c pad data).2 ++ l) (2 + startPos V S c data.length)
      data.length = (run S.rc4.enc c.cipher data).2 := by
    have hle := startPos_le (V := V) c data.length
    have hfront : (maskLen c.hash data.length ++
        (randBytes pad (randLen V S c data.length)).take (startPos V S c data.length)).length =
          2 + startPos V S c data.length := by
      simp only [List.length_append, maskLen_length, List.length_take, randBytes_length]
      omega
    rw [hbytes, frameBody]
    simp only [List.append_assoc]
    rw [← List.append_assoc (maskLen _ _)]
    exact window_field hfront (run_snd_length _ _ _)
  have hplain : run S.rc4.dec c₀.cipher (run S.rc4.enc c.cipher data).2 =
      ((run S.rc4.enc c.cipher data).1, data) := by
    rw [hsame.cipher, S.rc4.run_dec_enc]
  -- the checks of the receiver, one by one
  have hlimit : ¬ 4096 ≤ data.length + (V.getTcpRandLen data.length c₀.random c₀.hash).2 := by
    rw [V.oversize_iff]
    omega
  have hr : (V.getTcpRandLen data.length c₀.random c₀.hash).2 = randLen V S c data.length := hrand
  have hnext := packFrame_chain (V := V) userKey c pad data
  refine ⟨⟨c₀.id + 1, S.hmac.run (frameBody V S c pad data) (frameKey userKey c.id),
    (foundStart V S c₀ data.length).1, (run S.rc4.enc c.cipher data).1⟩, ?_, ?_⟩
  · simp only [readFrame, hunmask]
    rw [if_neg hlimit, if_neg (by rw [hr, List.length_append]; omega)]
    have hdata' : window ((packFrame V S userKey c pad data).2 ++ l)
        (2 + (foundStart V S c₀ data.length).2) data.length = (run S.rc4.enc c.cipher data).2 := by
      rw [hstart, hdata]
    unfold foundStart at hdata' ⊢
    rw [hdata', hplain, hr, hbody, hmac, hsame.id, if_neg (by simp), hflen]
  · exact ⟨(congrArg (· + 1) hsame.id).trans hnext.id.symm, hnext.hash.symm, hnext.cipher.symm⟩

end Frame

/-! ## The frames of a stream -/

/-- A frame as it was sent: its number, the hash it was masked with, what it carries and its
bytes. -/
structure SentFrame where
  id : UInt32
  hash : Bytes
  data : Bytes
  bytes : Bytes

section Sent

variable (V : Variant) (S : Suite) (userKey : Bytes)

def sentFrame (c : Chain S) (pad : ℕ → UInt8) (data : Bytes) : SentFrame :=
  ⟨c.id, c.hash, data, (packFrame V S userKey c pad data).2⟩

def streamOf (fs : List SentFrame) : Bytes := (fs.map SentFrame.bytes).flatten

def payloadOf (fs : List SentFrame) : Bytes := (fs.map SentFrame.data).flatten

@[simp] theorem streamOf_nil : streamOf [] = [] := rfl

@[simp] theorem payloadOf_nil : payloadOf [] = [] := rfl

@[simp] theorem streamOf_cons (f : SentFrame) (fs : List SentFrame) :
    streamOf (f :: fs) = f.bytes ++ streamOf fs := rfl

@[simp] theorem payloadOf_cons (f : SentFrame) (fs : List SentFrame) :
    payloadOf (f :: fs) = f.data ++ payloadOf fs := rfl

@[simp] theorem streamOf_append (fs gs : List SentFrame) :
    streamOf (fs ++ gs) = streamOf fs ++ streamOf gs := by
  simp [streamOf]

@[simp] theorem payloadOf_append (fs gs : List SentFrame) :
    payloadOf (fs ++ gs) = payloadOf fs ++ payloadOf gs := by
  simp [payloadOf]

/-- The frames follow each other in one direction of a connection, from `c` to `c'`. -/
inductive Linked : Chain S → List SentFrame → Chain S → Prop where
  | nil (c : Chain S) : Linked c [] c
  | cons {c c' : Chain S} {fs : List SentFrame} (pad : ℕ → UInt8) (data : Bytes) :
      Linked (packFrame V S userKey c pad data).1 fs c' →
      Linked c (sentFrame V S userKey c pad data :: fs) c'

variable {V S userKey}

theorem Linked.append {c c' c'' : Chain S} {fs gs : List SentFrame} (h : Linked V S userKey c fs c')
    (h' : Linked V S userKey c' gs c'') : Linked V S userKey c (fs ++ gs) c'' := by
  induction h with
  | nil c => exact h'
  | cons pad data _ ih => exact .cons pad data (ih h')

theorem Linked.split {c c' : Chain S} {fs gs : List SentFrame}
    (h : Linked V S userKey c (fs ++ gs) c') :
    ∃ c₁, Linked V S userKey c fs c₁ ∧ Linked V S userKey c₁ gs c' := by
  induction fs generalizing c with
  | nil => exact ⟨c, .nil c, h⟩
  | cons f fs ih =>
      cases h with
      | cons pad data hrest =>
          obtain ⟨c₁, hfs, hgs⟩ := ih hrest
          exact ⟨c₁, .cons pad data hfs, hgs⟩

end Sent

end AuthChain
end Obfs
end SsrNative
