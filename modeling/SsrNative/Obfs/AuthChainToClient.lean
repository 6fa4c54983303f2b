import SsrNative.Obfs.AuthChainToServer

/-!
# AuthChainToClient — segmentation of the auth_chain streams, server to client

The client's receive loop wants more than four bytes before it looks at a frame, so an empty frame
without padding stays in `recv_buffer` until another one follows.  It takes `tcp_mss` off every
frame with the number 1, while the server puts it in front of every buffer that starts with that
number.
-/

namespace SsrNative
namespace Obfs
namespace AuthChain

open Bytes
open Lib.Segments
open Lib.Framing

/-! ## Passes of the receive loop -/

/-- What the client passes on of a frame. -/
def SentFrame.kept (f : SentFrame) : Bytes := if f.id = 1 then f.data.drop 2 else f.data

/-- A frame that is too short for what the client takes off it. -/
def SentFrame.Crashes (f : SentFrame) : Prop := f.id = 1 ∧ f.data.length < 2

/-- `tcp_mss` of the client behind a frame. -/
def SentFrame.mssAfter (f : SentFrame) (mss : ℕ) : ℕ := if f.id = 1 then rdLe16 f.data 0 else mss

section Step

variable {V : Variant} {S : Suite} {userKey : Bytes} {c : Chain S} {pad : ℕ → UInt8} {data : Bytes}
  {st : Chain S × ℕ} {b r t : Bytes}

/-- States of the receive loop that agree on the direction of the connection and on `tcp_mss`. -/
structure SameMss (s t : Chain S × ℕ) : Prop where
  chain : SameChain s.1 t.1
  mss : s.2 = t.2

theorem clientRecvStep_nil (h : b.length ≤ 4) : clientRecvStep V S userKey st b = .more st := by
  rw [clientRecvStep, if_pos h]

/-- A part of a frame, or one of four bytes. -/
theorem clientRecvStep_part (hsame : SameChain st.1 c)
    (hcat : b ++ r = (packFrame V S userKey c pad data).2 ++ t) (hdata : data.length < 4096)
    (hshort : b.length < max 5 (packFrame V S userKey c pad data).2.length) :
    ∃ s₂, clientRecvStep V S userKey st b = .more s₂ ∧ SameMss s₂ st := by
  by_cases hlen : b.length ≤ 4
  · exact ⟨st, clientRecvStep_nil hlen, ⟨.refl _, rfl⟩⟩
  · obtain ⟨l, hl⟩ := packFrame_head (V := V) userKey c pad data t
    have hunmask : unmaskLen st.1.hash b = data.length := by
      rw [hsame.hash, unmaskLen_of_cat (hcat.trans hl) (by omega)]
      omega
    have hflen := packFrame_length (V := V) userKey c pad data
    have hrand : randLen V S st.1 data.length = randLen V S c data.length :=
      randLen_congr hsame data.length
    obtain ⟨c₂, hread, hc₂⟩ : ∃ c₂, readFrame V S userKey st.1 b = .more c₂ ∧ SameChain c₂ st.1 :=
      readFrame_short userKey (by omega) (by rw [hunmask]; omega)
    refine ⟨(c₂, st.2), ?_, ⟨hc₂, rfl⟩⟩
    rw [clientRecvStep, if_neg hlen, hread]

/-- A complete frame, together with five bytes at least. -/
theorem clientRecvStep_full (hsame : SameChain st.1 c) (hdata : data.length < 4096) (l : Bytes)
    (hlen : 4 < ((packFrame V S userKey c pad data).2 ++ l).length) :
    (¬ (sentFrame V S userKey c pad data).Crashes →
      ∃ s₂, clientRecvStep V S userKey st ((packFrame V S userKey c pad data).2 ++ l) =
          .took s₂ (sentFrame V S userKey c pad data).kept (packFrame V S userKey c pad data).2.length ∧
        SameMss s₂ ((packFrame V S userKey c pad data).1,
          (sentFrame V S userKey c pad data).mssAfter st.2)) ∧
    ((sentFrame V S userKey c pad data).Crashes →
      clientRecvStep V S userKey st ((packFrame V S userKey c pad data).2 ++ l) = .halt st .crash) := by
  obtain ⟨c₂, hread, hnext⟩ := readFrame_full (V := V) userKey pad data hsame hdata l
  have hid : st.1.id = c.id := hsame.id
  rw [clientRecvStep, if_neg (by omega), hread, hid]
  dsimp only
  by_cases hfirst : c.id = 1
  · rw [if_pos hfirst]
    constructor
    · intro hlong
      have hdata₂ : ¬ data.length < 2 := fun h => hlong ⟨hfirst, h⟩
      refine ⟨(c₂, rdLe16 data 0), ?_, hnext, ?_⟩
      · rw [if_neg hdata₂, SentFrame.kept, if_pos (show (sentFrame V S userKey c pad data).id = 1 from hfirst)]
        rfl
      · rw [SentFrame.mssAfter, if_pos (show (sentFrame V S userKey c pad data).id = 1 from hfirst)]
        rfl
    · intro hcrash
      exact if_pos hcrash.2
  · rw [if_neg hfirst]
    constructor
    · intro _
      refine ⟨(c₂, st.2), ?_, hnext, ?_⟩
      · rw [SentFrame.kept, if_neg (show ¬ (sentFrame V S userKey c pad data).id = 1 from hfirst)]
        rfl
      · rw [SentFrame.mssAfter, if_neg (show ¬ (sentFrame V S userKey c pad data).id = 1 from hfirst)]
    · intro hcrash
      exact absurd hcrash.1 hfirst

end Step

/-! ## Streams of frames -/

/-- What the client passes on of a list of frames. -/
def keptOf (fs : List SentFrame) : Bytes := (fs.map SentFrame.kept).flatten

/-- `tcp_mss` of the client behind a list of frames. -/
def mssOf (fs : List SentFrame) (mss : ℕ) : ℕ := fs.foldl (fun m f => f.mssAfter m) mss

section Stream

variable {V : Variant} {S : Suite} {userKey : Bytes} {c : Chain S} {pad : ℕ → UInt8} {data : Bytes}
  {fs : List SentFrame} {ok : ℕ → Prop} {mss : ℕ} {t : Bytes}

/-- A frame that the client does not leave in its buffer. -/
theorem clientRecvStep_takes (hdata : data.length < 4096)
    (hcrash : ¬ (sentFrame V S userKey c pad data).Crashes)
    (hlast : 4 < (packFrame V S userKey c pad data).2.length ∨ t ≠ [])
    (hok : ∀ n, t.length ≤ n → ok n) :
    Takes (clientRecvStep V S userKey) SameMss ok (fun _ => True) (c, mss)
      (packFrame V S userKey c pad data).2 t (sentFrame V S userKey c pad data).kept
      ((packFrame V S userKey c pad data).1, (sentFrame V S userKey c pad data).mssAfter mss) := by
  have hflen := packFrame_length (V := V) userKey c pad data
  rintro s₀ ⟨hsame, hmss⟩ b rest hcat
  change SameChain s₀.1 c at hsame
  have hlen : b.length + rest.length = (packFrame V S userKey c pad data).2.length + t.length := by
    rw [← List.length_append, hcat, List.length_append]
  by_cases hshort : b.length < max 5 (packFrame V S userKey c pad data).2.length
  · -- the next byte after a frame of four bytes is one of `t`
    right; left
    obtain ⟨s₂, hstep, hs₂⟩ := clientRecvStep_part hsame hcat hdata hshort
    have htpos : (packFrame V S userKey c pad data).2.length < 5 → 0 < t.length := by
      intro h4
      rcases hlast with hlong | hne
      · omega
      · exact List.length_pos_iff.2 hne
    refine ⟨s₂, hstep, ⟨hs₂.chain.trans hsame, hs₂.mss.trans hmss⟩, ?_, hok _ (by omega)⟩
    exact List.length_pos_iff.1 (by omega)
  · left
    obtain ⟨l, rfl⟩ : (packFrame V S userKey c pad data).2 <+: b :=
      List.prefix_of_prefix_length_le ⟨t, rfl⟩ ⟨rest, hcat⟩ (by omega)
    obtain ⟨s₂, hstep, hs₂⟩ := (clientRecvStep_full hsame hdata l (by omega)).1 hcrash
    have hmss' : s₀.2 = mss := hmss
    rw [hmss'] at hs₂
    exact ⟨s₂, hstep, hs₂, by omega⟩

/-- A frame that is too short stops the client when it is complete. -/
theorem clientRecvStep_crashes (hcrash : (sentFrame V S userKey c pad data).Crashes)
    (hlast : 4 < (packFrame V S userKey c pad data).2.length ∨ t ≠ []) :
    Refuses (clientRecvStep V S userKey) SameMss
      (fun n => ((packFrame V S userKey c pad data).2 ++ t).length <
        n + max 5 (packFrame V S userKey c pad data).2.length) (fun _ => True) (c, mss)
      ((packFrame V S userKey c pad data).2 ++ t) := by
  have hflen := packFrame_length (V := V) userKey c pad data
  have hdata : data.length < 2 := hcrash.2
  rintro s₀ ⟨hsame, hmss⟩ b rest hcat
  change SameChain s₀.1 c at hsame
  have hlen : b.length + rest.length = ((packFrame V S userKey c pad data).2 ++ t).length := by
    rw [← List.length_append, hcat]
  by_cases hshort : b.length < max 5 (packFrame V S userKey c pad data).2.length
  · left
    obtain ⟨s₂, hstep, hs₂⟩ := clientRecvStep_part hsame hcat (by omega) hshort
    have htpos : (packFrame V S userKey c pad data).2.length < 5 → 0 < t.length := by
      intro h4
      rcases hlast with hlong | hne
      · omega
      · exact List.length_pos_iff.2 hne
    refine ⟨s₂, hstep, ⟨hs₂.chain.trans hsame, hs₂.mss.trans hmss⟩, ?_, by omega⟩
    rw [List.length_append] at hlen
    exact List.length_pos_iff.1 (by omega)
  · right
    obtain ⟨l, rfl⟩ : (packFrame V S userKey c pad data).2 <+: b :=
      List.prefix_of_prefix_length_le ⟨t, rfl⟩ ⟨rest, hcat⟩ (by omega)
    exact ⟨s₀, .crash, (clientRecvStep_full hsame (by omega) l (by omega)).2 hcrash, trivial, by omega⟩

/-- Four bytes are never looked at. -/
theorem clientRecvStep_waits (h : t.length ≤ 4) (hok : ∀ n, ok n) (s : Chain S × ℕ) :
    Waits (clientRecvStep V S userKey) SameMss ok s t := by
  rintro s₀ hs₀ b rest hcat
  have hlen : b.length + rest.length = t.length := by rw [← List.length_append, hcat]
  exact ⟨hok _, s₀, clientRecvStep_nil (by omega), hs₀⟩

/-- Frames in front of a stream that parses. -/
theorem Linked.client_parses {c' : Chain S} (h : Linked V S userKey c fs c')
    (hdata : ∀ f ∈ fs, f.data.length < 4096) (hcrash : ∀ f ∈ fs, ¬ f.Crashes)
    (hlast : t ≠ [] ∨ ∀ f ∈ fs.getLast?, 4 < f.bytes.length) (hok : ∀ n, t.length ≤ n → ok n)
    {out : Bytes} {s' : Chain S × ℕ} {z : Bytes}
    (hnext : Parses (clientRecvStep V S userKey) SameMss ok (fun _ => True) (c', mssOf fs mss) t out s' z) :
    Parses (clientRecvStep V S userKey) SameMss ok (fun _ => True) (c, mss) (streamOf fs ++ t)
      (keptOf fs ++ out) s' z := by
  -- on the frames of the stream, with any stream behind the last one
  induction h generalizing mss with
  | nil c => exact hnext
  | @cons c c' fs pad data hlinked ih =>
      rw [List.forall_mem_cons] at hdata hcrash
      have hothers : t ≠ [] ∨ ∀ f ∈ fs.getLast?, 4 < f.bytes.length := by
        refine hlast.imp_right fun h f hf => h f ?_
        cases fs with
        | nil => cases hf
        | cons g gs => simpa using hf
      have hrest := @ih ((sentFrame V S userKey c pad data).mssAfter mss) hdata.2 hcrash.2 hothers hnext
      -- the client takes a frame only with a fifth byte in sight
      have hflast : 4 < (packFrame V S userKey c pad data).2.length ∨ streamOf fs ++ t ≠ [] := by
        cases fs with
        | nil =>
            rcases hlast with hne | hlong
            · exact .inr hne
            · exact .inl (hlong _ rfl)
        | cons g gs =>
            right
            intro hnil
            have hlen := hlinked.frame_length g (by simp)
            rw [streamOf_cons, List.append_assoc, List.append_eq_nil_iff] at hnil
            rw [hnil.1, List.length_nil] at hlen
            omega
      have htakes : Takes (clientRecvStep V S userKey) SameMss ok (fun _ => True) (c, mss) _ _ _ _ :=
        clientRecvStep_takes hdata.1 hcrash.1 hflast
          (fun n hn => hok n (by rw [List.length_append] at hn; omega))
      have hall := Parses.frame (packFrame_ne_nil userKey c pad data) htakes hrest
      rw [← List.append_assoc, ← List.append_assoc] at hall
      exact hall

end Stream

/-! ## What the server sends -/

section Server

variable (V : Variant) (S : Suite)

/-- The frames of `packReply`. -/
def replyFrames (unitLen : ℕ) (pad : ℕ → ℕ → UInt8) :
    ℕ → ℕ → Context S → Bytes → List SentFrame
  | 0, _, _, _ => []
  | fuel + 1, i, l, data =>
      if unitLen < data.length then
        sentFrame V S l.userKey l.sent (pad i) (data.take unitLen) ::
          replyFrames unitLen pad fuel (i + 1) (packServerData V S l (pad i) (data.take unitLen)).1
            (data.drop unitLen)
      else [sentFrame V S l.userKey l.sent (pad i) data]

/-- What the server puts into frames: `tcp_mss` in front of a buffer that starts with number 1. -/
def replyData (l : Context S) (buf : Bytes) : Bytes :=
  if l.sent.id = 1 then le16 l.tcpMss ++ buf else buf

/-- The size of the server's frames. -/
def unitLenOf (l : Context S) : ℕ := subSize l.tcpMss l.clientOverHead

/-- The context in which a call of the server starts its loop. -/
def replyStart (l : Context S) : Context S :=
  if l.sent.id = 1 then { l with unitLen := unitLenOf S l } else l

/-- The frames of one call. -/
def callReply (l : Context S) (pad : ℕ → ℕ → UInt8) (buf : Bytes) : List SentFrame :=
  replyFrames V S (replyStart S l).unitLen pad ((replyData S l buf).length + 1) 0 (replyStart S l)
    (replyData S l buf)

/-- The server's calls on one connection. -/
def serverRun (l : Context S) (sends : List ((ℕ → ℕ → UInt8) × Bytes)) : Context S × List Bytes :=
  run (fun l s => serverPreEncrypt V S l s.1 s.2) l sends

/-- The frames of all calls, call by call. -/
def serverFrames : Context S → List ((ℕ → ℕ → UInt8) × Bytes) → List (List SentFrame)
  | _, [] => []
  | l, s :: sends =>
      callReply V S l s.1 s.2 :: serverFrames (serverPreEncrypt V S l s.1 s.2).1 sends

variable {V S}

/-- What calls of the server leave as it was. -/
structure SameReply (l l' : Context S) : Prop where
  userKey : l'.userKey = l.userKey
  tcpMss : l'.tcpMss = l.tcpMss
  clientOverHead : l'.clientOverHead = l.clientOverHead
  unitLen : l'.unitLen = l.unitLen

variable (V) in
/-- From the context `l` to `l'` the server emits `bytes`, a first frame and others that carry the
data. -/
structure Replies (l l' : Context S) (f : SentFrame) (fs : List SentFrame) (bytes data : Bytes) :
    Prop where
  bytes_eq : bytes = streamOf (f :: fs)
  payload_eq : payloadOf (f :: fs) = data
  linked : Linked V S l.userKey l.sent (f :: fs) l'.sent
  same : SameReply l l'
  data_le : ∀ g ∈ f :: fs, g.data.length ≤ l.unitLen
  first : f.data = data.take l.unitLen

/-- The loop over the units emits frames that carry the data. -/
theorem packReply_replies (pad : ℕ → ℕ → UInt8) {fuel i : ℕ} {l : Context S} {data : Bytes}
    (hunit : 0 < l.unitLen) (hfuel : data.length < fuel) :
    ∃ f fs, replyFrames V S l.unitLen pad fuel i l data = f :: fs ∧
      Replies V l (packReply V S l.unitLen pad fuel i l data).1 f fs
        (packReply V S l.unitLen pad fuel i l data).2 data := by
  induction fuel generalizing i l data with
  | zero => omega
  | succ fuel ih =>
      -- one unit and the rest, or all that is left
      by_cases hlong : l.unitLen < data.length
      · have hshorter : (data.drop l.unitLen).length < fuel := by
          rw [List.length_drop]
          omega
        have hunit' : 0 < (packServerData V S l (pad i) (data.take l.unitLen)).1.unitLen := hunit
        obtain ⟨f, fs, hframes, hrest⟩ :=
          @ih (i + 1) (packServerData V S l (pad i) (data.take l.unitLen)).1 _ hunit' hshorter
        have hunitLen : (packServerData V S l (pad i) (data.take l.unitLen)).1.unitLen = l.unitLen := rfl
        rw [hunitLen] at hframes hrest
        refine ⟨sentFrame V S l.userKey l.sent (pad i) (data.take l.unitLen), f :: fs, ?_, ?_⟩
        · rw [replyFrames, if_pos hlong, hframes]
        · simp only [packReply, if_pos hlong]
          refine ⟨?_, ?_, .cons _ _ hrest.linked, ?_, ?_, rfl⟩
          · rw [streamOf_cons, ← hrest.bytes_eq]
            rfl
          · rw [payloadOf_cons, hrest.payload_eq]
            exact List.take_append_drop _ _
          · exact ⟨hrest.same.userKey, hrest.same.tcpMss, hrest.same.clientOverHead,
              hrest.same.unitLen⟩
          · rw [List.forall_mem_cons]
            refine ⟨?_, hrest.data_le⟩
            exact (List.length_take_le l.unitLen data)
      · refine ⟨sentFrame V S l.userKey l.sent (pad i) data, [], ?_, ?_⟩
        · rw [replyFrames, if_neg hlong]
        · simp only [packReply, if_neg hlong]
          refine ⟨?_, ?_, .cons _ _ (.nil _), ⟨rfl, rfl, rfl, rfl⟩, ?_, ?_⟩
          · rw [streamOf_cons, streamOf_nil, List.append_nil]
            rfl
          · rw [payloadOf_cons, payloadOf_nil, List.append_nil]
            rfl
          · rw [List.forall_mem_singleton]
            exact Nat.le_of_not_lt hlong
          · exact (List.take_of_length_le (Nat.le_of_not_lt hlong)).symm

/-- The frames of one call that was given `buf`, in units of `n`. -/
structure Group (n mss : ℕ) (g : List SentFrame) (buf : Bytes) : Prop where
  ne_nil : g ≠ []
  payload : payloadOf g = if g.head?.map SentFrame.id = some 1 then le16 mss ++ buf else buf
  first : ∀ f ∈ g.head?, f.data = (payloadOf g).take n

/-- The server has the size of its frames, or is about to compute it. -/
structure Ready (n mss : ℕ) (l : Context S) : Prop where
  mss : l.tcpMss = mss
  computed : unitLenOf S l = n
  unitLen : l.sent.id = 1 ∨ l.unitLen = n

theorem replyStart_unitLen {n mss : ℕ} {l : Context S} (h : Ready n mss l) :
    (replyStart S l).unitLen = n := by
  unfold replyStart
  by_cases hid : l.sent.id = 1
  · rw [if_pos hid]
    exact h.computed
  · rw [if_neg hid]
    exact h.unitLen.resolve_left hid

theorem replyStart_fields (l : Context S) :
    (replyStart S l).sent = l.sent ∧ (replyStart S l).userKey = l.userKey ∧
      (replyStart S l).tcpMss = l.tcpMss ∧ (replyStart S l).clientOverHead = l.clientOverHead := by
  unfold replyStart
  split <;> exact ⟨rfl, rfl, rfl, rfl⟩

/-- One call of the server. -/
theorem serverPreEncrypt_group {n mss : ℕ} {l : Context S} (hn : 0 < n) (h : Ready n mss l)
    (pad : ℕ → ℕ → UInt8) (buf : Bytes) :
    (serverPreEncrypt V S l pad buf).2 = streamOf (callReply V S l pad buf) ∧
      Linked V S l.userKey l.sent (callReply V S l pad buf) (serverPreEncrypt V S l pad buf).1.sent ∧
      (serverPreEncrypt V S l pad buf).1.userKey = l.userKey ∧
      Ready n mss (serverPreEncrypt V S l pad buf).1 ∧
      (∀ f ∈ callReply V S l pad buf, f.data.length ≤ n) ∧ Group n mss (callReply V S l pad buf) buf ∧
      (callReply V S l pad buf).head?.map SentFrame.id = some l.sent.id := by
  have hunit := replyStart_unitLen h
  obtain ⟨hsent, hkey, hmss, hover⟩ := replyStart_fields l
  obtain ⟨f, fs, hframes, hcall⟩ := packReply_replies (V := V) (i := 0) pad
    (show 0 < (replyStart S l).unitLen by omega) (Nat.lt_succ_self (replyData S l buf).length)
  have hreply : callReply V S l pad buf = f :: fs := hframes
  have hpack : packReply V S (replyStart S l).unitLen pad ((replyData S l buf).length + 1) 0
      (replyStart S l) (replyData S l buf) = serverPreEncrypt V S l pad buf := rfl
  rw [hpack] at hcall
  have hlinked := hcall.linked
  rw [hsent, hkey] at hlinked
  have hid : f.id = l.sent.id := by
    cases hlinked
    rfl
  have hsame := hcall.same
  rw [hreply]
  refine ⟨hcall.bytes_eq, hlinked, hsame.userKey.trans hkey, ?_, ?_, ?_, congrArg some hid⟩
  · refine ⟨hsame.tcpMss.trans (hmss.trans h.mss), ?_, .inr (hsame.unitLen.trans hunit)⟩
    rw [unitLenOf, hsame.tcpMss, hsame.clientOverHead, hmss, hover]
    exact h.computed
  · intro g hg
    exact hunit ▸ hcall.data_le g hg
  · refine ⟨by simp, ?_, ?_⟩
    · rw [hcall.payload_eq, replyData, h.mss, List.head?_cons, Option.map_some, hid]
      simp only [Option.some.injEq]
    · intro g hg
      obtain rfl : f = g := Option.some.inj hg
      rw [hcall.payload_eq, hcall.first, hunit]

/-- A call starts with the number of the next frame. -/
theorem Ready.first_group {n mss : ℕ} {l : Context S} (h : Ready n mss l) (hn : 0 < n)
    (pad : ℕ → ℕ → UInt8) (buf : Bytes) :
    ∃ f fs, callReply V S l pad buf = f :: fs ∧ f.id = l.sent.id := by
  obtain ⟨-, -, -, -, -, -, hid⟩ := serverPreEncrypt_group (V := V) hn h pad buf
  cases hcall : callReply V S l pad buf with
  | nil =>
      rw [hcall] at hid
      cases hid
  | cons f fs =>
      rw [hcall] at hid
      exact ⟨f, fs, rfl, Option.some.inj hid⟩

/-- All calls of the server. -/
theorem serverRun_groups {n mss : ℕ} {l : Context S} (hn : 0 < n) (h : Ready n mss l)
    (sends : List ((ℕ → ℕ → UInt8) × Bytes)) :
    (serverRun V S l sends).2.flatten = streamOf (serverFrames V S l sends).flatten ∧
      Linked V S l.userKey l.sent (serverFrames V S l sends).flatten (serverRun V S l sends).1.sent ∧
      (serverRun V S l sends).1.tcpMss = mss ∧
      (∀ f ∈ (serverFrames V S l sends).flatten, f.data.length ≤ n) ∧
      List.Forall₂ (Group n mss) (serverFrames V S l sends) (sends.map Prod.snd) := by
  induction sends generalizing l with
  | nil => exact ⟨rfl, .nil _, h.mss, by simp [serverFrames], .nil⟩
  | cons s sends ih =>
      obtain ⟨hbytes, hlinked, hkey, hready, hle, hgroup, -⟩ :=
        serverPreEncrypt_group (V := V) hn h s.1 s.2
      obtain ⟨hbytes', hlinked', hmss, hle', hgroups⟩ := ih hready
      rw [hkey] at hlinked'
      refine ⟨?_, hlinked.append hlinked', hmss, ?_, .cons hgroup hgroups⟩
      · rw [serverFrames, List.flatten_cons, streamOf_append, ← hbytes, ← hbytes']
        rfl
      · rw [serverFrames, List.flatten_cons, List.forall_mem_append]
        exact ⟨hle, hle'⟩

end Server

/-! ## What the client passes on -/

@[simp] theorem keptOf_cons (f : SentFrame) (fs : List SentFrame) :
    keptOf (f :: fs) = f.kept ++ keptOf fs := rfl

@[simp] theorem keptOf_append (fs gs : List SentFrame) : keptOf (fs ++ gs) = keptOf fs ++ keptOf gs := by
  simp [keptOf]

theorem mssOf_append (fs gs : List SentFrame) (mss : ℕ) :
    mssOf (fs ++ gs) mss = mssOf gs (mssOf fs mss) := List.foldl_append

/-- Frames with other numbers than 1 are passed on whole. -/
theorem kept_of_ids {fs : List SentFrame} (h : ∀ f ∈ fs, f.id ≠ 1) :
    keptOf fs = payloadOf fs ∧ (∀ f ∈ fs, ¬ f.Crashes) ∧ ∀ mss, mssOf fs mss = mss := by
  induction fs with
  | nil => exact ⟨rfl, by simp, fun _ => rfl⟩
  | cons f fs ih =>
      rw [List.forall_mem_cons] at h
      obtain ⟨hkept, hcrash, hmss⟩ := ih h.2
      refine ⟨?_, ?_, ?_⟩
      · rw [keptOf_cons, payloadOf_cons, hkept, SentFrame.kept, if_neg h.1]
      · rw [List.forall_mem_cons]
        exact ⟨fun hc => h.1 hc.1, hcrash⟩
      · intro mss
        refine Eq.trans ?_ (hmss mss)
        exact congrArg (mssOf fs) (if_neg h.1)

/-- The number of frames that the client shortens although the server has put nothing there. -/
def laterOnes (gs : List (List SentFrame)) : ℕ :=
  ((gs.map List.tail).flatten.filter fun f => f.id = 1).length

section Group

variable {n mss : ℕ} {g : List SentFrame} {buf : Bytes}

/-- A call none of whose frames but the first has number 1 arrives. -/
theorem Group.kept (h : Group n mss g buf) (hn : 2 ≤ n) (hmss : mss < 65536)
    (hids : ∀ f ∈ g.tail, f.id ≠ 1) :
    keptOf g = buf ∧ (∀ f ∈ g, ¬ f.Crashes) ∧ mssOf g mss = mss ∧
      (g.head?.map SentFrame.id = some 1 → ∀ m, mssOf g m = mss) := by
  obtain ⟨hne, hpayload, hfirst⟩ := h
  cases g with
  | nil => exact absurd rfl hne
  | cons f fs =>
      obtain ⟨hkept, hcrash, hmssOf⟩ := kept_of_ids hids
      have hdata := hfirst f rfl
      simp only [List.head?_cons, Option.map_some, Option.some.injEq] at hpayload ⊢
      simp only [List.tail_cons] at hkept hmssOf
      -- the frame with id 1 starts with the two bytes of the unit size, which the client keeps back
      by_cases hid : f.id = 1
      · rw [if_pos hid] at hpayload
        have hlen : 2 ≤ f.data.length := by
          rw [hdata, hpayload, List.length_take, List.length_append]
          exact Nat.le_min.2 ⟨hn, Nat.le_add_right 2 _⟩
        have hfront : f.data = le16 mss ++ f.data.drop 2 := by
          have htake : f.data.take 2 = le16 mss := by
            rw [hdata, hpayload, List.take_take, Nat.min_eq_left hn]
            rfl
          rw [← htake, List.take_append_drop]
        have hread : ∀ m, mssOf (f :: fs) m = mss := by
          intro m
          have hm : f.mssAfter m = mss := by
            rw [SentFrame.mssAfter, if_pos hid, hfront, rdLe16_le16_append, Nat.mod_eq_of_lt hmss]
          refine Eq.trans (hmssOf _) hm
        refine ⟨?_, ?_, hread mss, fun _ => hread⟩
        · rw [keptOf_cons, hkept, SentFrame.kept, if_pos hid]
          rw [payloadOf_cons, hfront, List.append_assoc] at hpayload
          have hdrop : f.data.drop 2 ++ payloadOf fs = buf := List.append_cancel_left hpayload
          exact hdrop
        · rw [List.forall_mem_cons]
          exact ⟨fun hc => absurd hc.2 (by omega), hcrash⟩
      · rw [if_neg hid] at hpayload
        refine ⟨?_, ?_, (hmssOf _).trans (if_neg hid), fun h => absurd h hid⟩
        · rw [keptOf_cons, hkept, SentFrame.kept, if_neg hid]
          exact hpayload
        · rw [List.forall_mem_cons]
          exact ⟨fun hc => hid hc.1, hcrash⟩

/-- Every frame with number 1 loses two bytes. -/
theorem kept_length {fs : List SentFrame} (h : ∀ f ∈ fs, ¬ f.Crashes) :
    (keptOf fs).length + 2 * (fs.filter fun f => f.id = 1).length = (payloadOf fs).length := by
  induction fs with
  | nil => rfl
  | cons f fs ih =>
      rw [List.forall_mem_cons] at h
      have hrest := ih h.2
      rw [keptOf_cons, payloadOf_cons, List.length_append, List.length_append, List.filter_cons]
      by_cases hid : f.id = 1
      · have hlen : 2 ≤ f.data.length := by
          by_contra hshort
          exact h.1 ⟨hid, by omega⟩
        rw [SentFrame.kept, if_pos hid, if_pos (by simp [hid]), List.length_drop, List.length_cons]
        omega
      · rw [SentFrame.kept, if_neg hid, if_neg (by simp [hid])]
        omega

theorem Group.kept_length (h : Group n mss g buf) (hcrash : ∀ f ∈ g, ¬ f.Crashes) :
    (keptOf g).length + 2 * (g.tail.filter fun f => f.id = 1).length = buf.length := by
  have hall := AuthChain.kept_length hcrash
  obtain ⟨hne, hpayload, -⟩ := h
  cases g with
  | nil => exact absurd rfl hne
  | cons f fs =>
      simp only [List.head?_cons, Option.map_some, Option.some.injEq] at hpayload
      rw [hpayload, List.filter_cons] at hall
      rw [List.tail_cons]
      by_cases hid : f.id = 1
      · rw [if_pos hid, if_pos (by simp [hid]), List.length_append, List.length_cons] at hall
        have htwo : (le16 mss).length = 2 := rfl
        omega
      · rw [if_neg hid, if_neg (by simp [hid])] at hall
        exact hall

end Group

section Groups

variable {n mss : ℕ} {gs : List (List SentFrame)} {bufs : List Bytes}

theorem groups_kept (h : List.Forall₂ (Group n mss) gs bufs) (hn : 2 ≤ n) (hmss : mss < 65536)
    (hids : ∀ g ∈ gs, ∀ f ∈ g.tail, f.id ≠ 1) :
    keptOf gs.flatten = bufs.flatten ∧ (∀ f ∈ gs.flatten, ¬ f.Crashes) ∧ mssOf gs.flatten mss = mss := by
  induction h with
  | nil => exact ⟨rfl, by simp, rfl⟩
  | cons hg _ ih =>
      rw [List.forall_mem_cons] at hids
      obtain ⟨hkept, hcrash, hsame, -⟩ := hg.kept hn hmss hids.1
      obtain ⟨hkept', hcrash', hsame'⟩ := ih hids.2
      refine ⟨?_, ?_, ?_⟩
      · rw [List.flatten_cons, List.flatten_cons, keptOf_append, hkept, hkept']
      · rw [List.flatten_cons, List.forall_mem_append]
        exact ⟨hcrash, hcrash'⟩
      · rw [List.flatten_cons, mssOf_append, hsame, hsame']

/-- The first call brings `tcp_mss`, and no later one changes it. -/
theorem groups_mss {f : SentFrame} {fs : List SentFrame}
    (h : List.Forall₂ (Group n mss) ((f :: fs) :: gs) bufs) (hn : 2 ≤ n) (hmss : mss < 65536)
    (hids : ∀ g ∈ (f :: fs) :: gs, ∀ f ∈ g.tail, f.id ≠ 1) (hone : f.id = 1) (m : ℕ) :
    mssOf ((f :: fs) :: gs).flatten m = mss := by
  cases h with
  | cons hg hgs =>
      rw [List.forall_mem_cons] at hids
      obtain ⟨-, -, -, hread⟩ := hg.kept hn hmss hids.1
      obtain ⟨-, -, hsame⟩ := groups_kept hgs hn hmss hids.2
      rw [List.flatten_cons, mssOf_append, hread (congrArg some hone), hsame]

theorem groups_kept_length (h : List.Forall₂ (Group n mss) gs bufs)
    (hcrash : ∀ f ∈ gs.flatten, ¬ f.Crashes) :
    (keptOf gs.flatten).length + 2 * laterOnes gs = bufs.flatten.length := by
  induction h with
  | nil => rfl
  | cons hg _ ih =>
      rw [List.flatten_cons, List.forall_mem_append] at hcrash
      have hfirst := hg.kept_length hcrash.1
      have hrest := ih hcrash.2
      rw [List.flatten_cons, List.flatten_cons, keptOf_append, List.length_append, List.length_append]
      unfold laterOnes at hrest ⊢
      rw [List.map_cons, List.flatten_cons, List.filter_append, List.length_append]
      omega

theorem laterOnes_eq_zero (h : laterOnes gs = 0) : ∀ g ∈ gs, ∀ f ∈ g.tail, f.id ≠ 1 := by
  intro g hg f hf hid
  have hmem : f ∈ (gs.map List.tail).flatten.filter fun f => f.id = 1 := by
    rw [List.mem_filter, List.mem_flatten]
    exact ⟨⟨g.tail, List.mem_map_of_mem hg, hf⟩, by simpa using hid⟩
  rw [List.length_eq_zero_iff.1 h] at hmem
  cases hmem

end Groups

/-! ## The client's calls -/

section Client

variable {V : Variant} {S : Suite} {userKey : Bytes}

/-- A pass of the loop waits on less than a frame. -/
theorem clientRecvStep_more_length {st s' : Chain S × ℕ} {b : Bytes}
    (h : clientRecvStep V S userKey st b = .more s') : b.length < 4100 := by
  unfold clientRecvStep at h
  by_cases hlen : b.length ≤ 4
  · omega
  · rw [if_neg hlen] at h
    cases hread : readFrame V S userKey st.1 b with
    | more c => exact readFrame_more_length hread
    | halt c e =>
        rw [hread] at h
        cases h
    | took c out n =>
        rw [hread] at h
        dsimp only at h
        split at h
        · split at h <;> cases h
        · cases h

/-- It takes at most what there is. -/
theorem clientRecvStep_took_length {st s' : Chain S × ℕ} {b out : Bytes} {n : ℕ}
    (h : clientRecvStep V S userKey st b = .took s' out n) : 0 < n ∧ n ≤ b.length := by
  unfold clientRecvStep at h
  by_cases hlen : b.length ≤ 4
  · rw [if_pos hlen] at h
    cases h
  · rw [if_neg hlen] at h
    cases hread : readFrame V S userKey st.1 b with
    | more c =>
        rw [hread] at h
        cases h
    | halt c e =>
        rw [hread] at h
        cases h
    | took c o m =>
        have hbound := readFrame_took_length hread
        rw [hread] at h
        dsimp only at h
        split at h
        · split at h
          · cases h
          · cases h
            exact hbound
        · cases h
          exact hbound

/-- The direction of the connection, `tcp_mss` and the carried bytes. -/
structure Receives (userKey : Bytes) (l : Context S) (t : (Chain S × ℕ) × Bytes) : Prop where
  userKey : l.userKey = userKey
  received : l.received = t.1.1
  tcpMss : l.tcpMss = t.1.2
  recvBuffer : l.recvBuffer = t.2
  carried : t.2.length < 4100

/-- The client's calls are passes of its receive loop: what is carried over is less than a frame,
so reads of 2048 bytes never exceed the limit. -/
theorem clientPostDecrypt_follows (userKey : Bytes) :
    StrictFollows (fun _ => True) (clientPostDecrypt V S) id Returned.items?
      (clientRecvStep V S userKey) (fun seg => seg.length ≤ 2048) (Receives userKey) where
  next := by
    rintro l t seg ⟨rfl, hrecv, hmss, hbuf, hcarry⟩ hseg hok
    have hlimit : ¬ 16384 < l.recvBuffer.length + seg.length := by
      rw [hbuf]
      omega
    simp only [feed, id] at hok ⊢
    have hcarry' := drain_rest_lt clientRecvStep_more_length clientRecvStep_took_length
      (Nat.lt_succ_self (t.2 ++ seg).length) hok
    have hst : (l.received, l.tcpMss) = t.1 := Prod.ext hrecv hmss
    unfold clientPostDecrypt
    rw [if_neg hlimit]
    simp only [hbuf, hst, hok]
    exact ⟨⟨rfl, rfl, rfl, rfl, hcarry'⟩, rfl⟩
  next_halt := by
    rintro l t seg e ⟨rfl, hrecv, hmss, hbuf, hcarry⟩ hseg hstop -
    have hlimit : ¬ 16384 < l.recvBuffer.length + seg.length := by
      rw [hbuf]
      omega
    simp only [feed, id] at hstop
    have hst : (l.received, l.tcpMss) = t.1 := Prod.ext hrecv hmss
    unfold clientPostDecrypt
    rw [if_neg hlimit]
    simp only [hbuf, hst, hstop]
    cases e with
    | invalid => rfl
    | crash => rfl

end Client

/-! ## Segmentation -/

section Segmentation

variable {V : Variant} {S : Suite} {cl : Context S} {c c' : Chain S} {fs : List SentFrame}
  {segs : List Bytes}

theorem receives_start (hbuf : cl.recvBuffer = []) :
    Receives cl.userKey cl ((cl.received, cl.tcpMss), []) :=
  ⟨rfl, rfl, rfl, hbuf, Nat.zero_lt_succ _⟩

/-- Frames that the client can take arrive, and the peers agree. -/
theorem clientPostDecrypt_run_complete (hsame : SameChain cl.received c) (hbuf : cl.recvBuffer = [])
    (hlinked : Linked V S cl.userKey c fs c') (hdata : ∀ f ∈ fs, f.data.length < 4096)
    (hcrash : ∀ f ∈ fs, ¬ f.Crashes) (hlast : ∀ f ∈ fs.getLast?, 4 < f.bytes.length)
    (hsegs : ∀ s ∈ segs, s.length ≤ 2048) (hcat : segs.flatten = streamOf fs) (hne : segs ≠ []) :
    (∀ r ∈ (run (clientPostDecrypt V S) cl segs).2, r.items? ≠ none) ∧
      delivered ((run (clientPostDecrypt V S) cl segs).2.map Returned.items?) = keptOf fs ∧
      (run (clientPostDecrypt V S) cl segs).1.tcpMss = mssOf fs cl.tcpMss ∧
      SameChain (run (clientPostDecrypt V S) cl segs).1.received c' := by
  have hrecv := receives_start hbuf
  have hp := hlinked.client_parses (t := []) hdata hcrash (.inr hlast)
    (fun n _ => trivial) (.rest (clientRecvStep_waits (by decide) (fun _ => trivial)
      (c', mssOf fs cl.tcpMss)))
  rw [List.append_nil, List.append_nil, ← hcat, ← List.map_id segs] at hp
  obtain ⟨s₂, hR, hE, hnone, hout⟩ := (clientPostDecrypt_follows cl.userKey).toFollows.run_complete
    hrecv hsegs hp ⟨hsame, rfl⟩ (cutsOk_of_forall (fun _ => trivial) _) hne
  exact ⟨hnone, hout, hR.tcpMss.trans hE.mss, hR.received ▸ hE.chain⟩

/-- A last frame of four bytes stays in the client's buffer: the counters differ. -/
theorem clientPostDecrypt_run_behind {f : SentFrame} (hsame : SameChain cl.received c)
    (hbuf : cl.recvBuffer = []) (hlinked : Linked V S cl.userKey c (fs ++ [f]) c')
    (hdata : ∀ f ∈ fs, f.data.length < 4096) (hcrash : ∀ f ∈ fs, ¬ f.Crashes)
    (hfour : f.bytes.length ≤ 4) (hsegs : ∀ s ∈ segs, s.length ≤ 2048)
    (hcat : segs.flatten = streamOf (fs ++ [f])) (hne : segs ≠ []) :
    (run (clientPostDecrypt V S) cl segs).1.received.id ≠ c'.id := by
  obtain ⟨c₁, hfs, hf⟩ := hlinked.split
  have hflen := hf.frame_length f (by simp)
  have hrecv := receives_start hbuf
  have hp := hfs.client_parses (t := f.bytes) hdata hcrash
    (.inl (List.length_pos_iff.1 (by omega))) (fun n _ => trivial)
    (.rest (clientRecvStep_waits hfour (fun _ => trivial) (c₁, mssOf fs cl.tcpMss)))
  have hstream : streamOf fs ++ f.bytes = (segs.map id).flatten := by
    rw [List.map_id, hcat, streamOf_append, streamOf_cons, streamOf_nil, List.append_nil]
  rw [hstream] at hp
  obtain ⟨s₂, hR, hE, -, -⟩ := (clientPostDecrypt_follows cl.userKey).toFollows.run_complete
    hrecv hsegs hp ⟨hsame, rfl⟩ (cutsOk_of_forall (fun _ => trivial) _) hne
  have hnext : c'.id = c₁.id + 1 := by
    cases hf with
    | cons pad data hnil =>
        cases hnil
        rfl
  rw [hR.received, hE.chain.id, hnext]
  intro heq
  have hzero : c₁.id + 1 = c₁.id + 0 := by rw [← heq, UInt32.add_zero]
  have := (UInt32.add_right_inj c₁.id).1 hzero
  exact absurd this (by decide)

/-- A frame that is too short for the client stops it. -/
theorem clientPostDecrypt_run_crashes {x : SentFrame} {gs : List SentFrame}
    (hsame : SameChain cl.received c) (hbuf : cl.recvBuffer = [])
    (hlinked : Linked V S cl.userKey c (fs ++ x :: gs) c') (hdata : ∀ f ∈ fs, f.data.length < 4096)
    (hcrash : ∀ f ∈ fs, ¬ f.Crashes) (hx : x.Crashes) (hlast : 4 < x.bytes.length ∨ gs ≠ [])
    (hsegs : ∀ s ∈ segs, s.length ≤ 2048) (hcat : segs.flatten = streamOf (fs ++ x :: gs))
    (hne : segs ≠ []) : ∃ r ∈ (run (clientPostDecrypt V S) cl segs).2, r.items? = none := by
  obtain ⟨c₁, hfs, hxs⟩ := hlinked.split
  have hlen := hxs.frame_length
  rw [List.forall_mem_cons] at hlen
  have hrecv := receives_start hbuf
  have hmore : 4 < x.bytes.length ∨ streamOf gs ≠ [] := by
    refine hlast.imp_right fun hgs hnil => ?_
    cases gs with
    | nil => exact hgs rfl
    | cons g gs =>
        have hg := hlen.2 g (by simp)
        rw [streamOf_cons, List.append_eq_nil_iff] at hnil
        rw [hnil.1, List.length_nil] at hg
        omega
  cases hxs with
  | @cons _ _ _ pad data hgs =>
      have hrefuse : Refuses (clientRecvStep V S cl.userKey) SameMss _ (fun _ => True)
          (c₁, mssOf fs cl.tcpMss) (streamOf (sentFrame V S cl.userKey c₁ pad data :: gs)) :=
        clientRecvStep_crashes hx hmore
      have hp := hfs.client_parses hdata hcrash
        (.inl (packFrame_append_ne_nil cl.userKey c₁ pad data (streamOf gs)))
        (fun n hn => Nat.lt_of_le_of_lt hn (by omega)) (.refuse hrefuse)
      have hstream : streamOf fs ++ ((packFrame V S cl.userKey c₁ pad data).2 ++ streamOf gs) =
          (segs.map id).flatten := by
        rw [List.map_id, hcat, streamOf_append]
        rfl
      rw [hstream] at hp
      refine (clientPostDecrypt_follows cl.userKey).run_fails hrecv hsegs hp ⟨hsame, rfl⟩ ?_
      -- the whole frame has arrived, so the read that completes it does not count as waiting
      intro hcuts
      have hend := hcuts.last (by simpa using hne)
      have hlong : (packFrame V S cl.userKey c₁ pad data).2.length + (streamOf gs).length <
          0 + max 5 (packFrame V S cl.userKey c₁ pad data).2.length := by
        rw [← List.length_append]
        exact hend
      have hx4 : 4 ≤ (packFrame V S cl.userKey c₁ pad data).2.length := hlen.1
      rcases hmore with hlong' | hgs'
      · have : 4 < (packFrame V S cl.userKey c₁ pad data).2.length := hlong'
        omega
      · have := List.length_pos_iff.2 hgs'
        omega

/-- The first frame of a list that is too short for the client. -/
theorem exists_first_crash {fs : List SentFrame} (h : ¬ ∀ f ∈ fs, ¬ f.Crashes) :
    ∃ as x bs, fs = as ++ x :: bs ∧ (∀ f ∈ as, ¬ f.Crashes) ∧ x.Crashes := by
  induction fs with
  | nil => exact absurd (by simp) h
  | cons f fs ih =>
      by_cases hf : f.Crashes
      · exact ⟨[], f, fs, rfl, by simp, hf⟩
      · have hrest : ¬ ∀ g ∈ fs, ¬ g.Crashes := by
          intro hall
          exact h (List.forall_mem_cons.2 ⟨hf, hall⟩)
        obtain ⟨as, x, bs, rfl, has, hx⟩ := ih hrest
        exact ⟨f :: as, x, bs, rfl, List.forall_mem_cons.2 ⟨hf, has⟩, hx⟩

/-- When no call of the client fails and the counters agree, it has taken every frame. -/
theorem frames_taken (hsame : SameChain cl.received c) (hbuf : cl.recvBuffer = [])
    (hlinked : Linked V S cl.userKey c fs c') (hdata : ∀ f ∈ fs, f.data.length < 4096)
    (hsegs : ∀ s ∈ segs, s.length ≤ 2048) (hcat : segs.flatten = streamOf fs) (hne : segs ≠ [])
    (hok : ∀ r ∈ (run (clientPostDecrypt V S) cl segs).2, r.items? ≠ none)
    (hid : (run (clientPostDecrypt V S) cl segs).1.received.id = c'.id) :
    (∀ f ∈ fs, ¬ f.Crashes) ∧ ∀ f ∈ fs.getLast?, 4 < f.bytes.length := by
  have hfails : ∀ as x bs, fs = as ++ x :: bs → (∀ f ∈ as, ¬ f.Crashes) → x.Crashes →
      ¬ (4 < x.bytes.length ∨ bs ≠ []) := by
    rintro as x bs rfl has hx hlast
    obtain ⟨r, hr, hnone⟩ := clientPostDecrypt_run_crashes hsame hbuf hlinked
      (fun f hf => hdata f (List.mem_append_left _ hf)) has hx hlast hsegs hcat hne
    exact hok r hr hnone
  by_cases hlast : ∀ f ∈ fs.getLast?, 4 < f.bytes.length
  · refine ⟨?_, hlast⟩
    by_contra hcrash
    obtain ⟨as, x, bs, hfs, has, hx⟩ := exists_first_crash hcrash
    refine hfails as x bs hfs has hx ?_
    by_cases hbs : bs = []
    · left
      subst hbs
      exact hlast x (by rw [hfs, List.getLast?_append]; rfl)
    · exact .inr hbs
  · exfalso
    simp only [not_forall, Nat.not_lt] at hlast
    obtain ⟨f, hf, hfour⟩ := hlast
    obtain ⟨gs, rfl⟩ := List.getLast?_eq_some_iff.1 hf
    by_cases hcrash : ∀ g ∈ gs, ¬ g.Crashes
    · exact clientPostDecrypt_run_behind hsame hbuf hlinked
        (fun g hg => hdata g (List.mem_append_left _ hg)) hcrash hfour hsegs hcat hne hid
    · obtain ⟨as, x, bs, rfl, has, hx⟩ := exists_first_crash hcrash
      exact hfails as x (bs ++ [f]) (by simp) has hx (.inr (by simp))

variable (V S) in
/-- The promise of the protocol: no call of the client fails, the buffers arrive, the client learns
`tcp_mss`, and the peers agree on the hash and the number of the next frame. -/
structure RepliesArrive (sv cl : Context S) (sends : List ((ℕ → ℕ → UInt8) × Bytes))
    (segs : List Bytes) : Prop where
  ok : ∀ r ∈ (run (clientPostDecrypt V S) cl segs).2, r.items? ≠ none
  delivered : delivered ((run (clientPostDecrypt V S) cl segs).2.map Returned.items?) =
    (sends.map Prod.snd).flatten
  tcpMss : sends ≠ [] → (run (clientPostDecrypt V S) cl segs).1.tcpMss = sv.tcpMss
  hash : (run (clientPostDecrypt V S) cl segs).1.received.hash = (serverRun V S sv sends).1.sent.hash
  id : (run (clientPostDecrypt V S) cl segs).1.received.id = (serverRun V S sv sends).1.sent.id

/-- Segmentation, server to client: the promise is kept exactly when there is room for `tcp_mss` in
the first frame, no frame inside a call has the number 1, and the last frame carries a byte. -/
theorem server_frames_delivered_iff (V : Variant) (S : Suite) (sv cl : Context S)
    (sends : List ((ℕ → ℕ → UInt8) × Bytes)) (segs : List Bytes) (hauth : Authenticated sv cl)
    (hmss : sv.tcpMss < 65536) (hunit : 0 < unitLenOf S sv) (hunit' : unitLenOf S sv ≤ 4092)
    (hsegs : ∀ s ∈ segs, s.length ≤ 2048)
    (hcat : segs.flatten = (serverRun V S sv sends).2.flatten) :
    RepliesArrive V S sv cl sends segs ↔
      sends = [] ∨
        2 ≤ unitLenOf S sv ∧ (∀ g ∈ serverFrames V S sv sends, ∀ f ∈ g.tail, f.id ≠ 1) ∧
          ∀ f ∈ (serverFrames V S sv sends).flatten.getLast?, 4 < f.bytes.length := by
  have hready : Ready (unitLenOf S sv) sv.tcpMss sv := ⟨rfl, rfl, .inl hauth.first⟩
  obtain ⟨hbytes, hlinked, -, hle, hgroups⟩ := serverRun_groups (V := V) hunit hready sends
  have hdata : ∀ f ∈ (serverFrames V S sv sends).flatten, f.data.length < 4096 := by
    intro f hf
    have := hle f hf
    omega
  rw [hauth.userKey] at hlinked
  rw [hbytes] at hcat
  have hsame := hauth.chain.symm
  cases sends with
  | nil =>
      refine ⟨fun _ => .inl rfl, fun _ => ?_⟩
      by_cases hne : segs = []
      · subst hne
        exact ⟨by simp, rfl, fun h => absurd rfl h, hsame.hash, hsame.id⟩
      · obtain ⟨hok, hout, -, hchain⟩ := clientPostDecrypt_run_complete hsame hauth.recvBuffer hlinked
          hdata (by simp [serverFrames]) (by simp [serverFrames]) hsegs hcat hne
        exact ⟨hok, hout, fun h => absurd rfl h, hchain.hash, hchain.id⟩
  | cons s sends =>
      obtain ⟨f, fs, hcall, hone⟩ := hready.first_group (V := V) hunit s.1 s.2
      rw [hauth.first] at hone
      have hframes : serverFrames V S sv (s :: sends) =
          (f :: fs) :: serverFrames V S (serverPreEncrypt V S sv s.1 s.2).1 sends := by
        rw [serverFrames, hcall]
      have hmem : f ∈ (serverFrames V S sv (s :: sends)).flatten := by simp [hframes]
      have hne : segs ≠ [] := by
        rintro rfl
        have hlen := hlinked.frame_length f hmem
        have hnil : f.bytes = [] :=
          List.flatten_eq_nil_iff.1 hcat.symm _ (List.mem_map_of_mem hmem)
        rw [hnil, List.length_nil] at hlen
        omega
      simp only [reduceCtorEq, false_or]
      constructor
      · intro h
        obtain ⟨hcrash, hlast⟩ := frames_taken hsame hauth.recvBuffer hlinked hdata hsegs hcat hne
          h.ok h.id
        obtain ⟨-, hout, -, -⟩ := clientPostDecrypt_run_complete hsame hauth.recvBuffer hlinked hdata
          hcrash hlast hsegs hcat hne
        -- nothing was taken off a frame inside a call, and the first frame was long enough
        have hcount := groups_kept_length hgroups hcrash
        rw [← hout, h.delivered] at hcount
        refine ⟨?_, laterOnes_eq_zero (by omega), hlast⟩
        have hlong : ¬ f.data.length < 2 := fun hshort => hcrash f hmem ⟨hone, hshort⟩
        have := hle f hmem
        omega
      · rintro ⟨htwo, hids, hlast⟩
        obtain ⟨hkept, hcrash, -⟩ := groups_kept hgroups htwo hmss hids
        obtain ⟨hok, hout, htcp, hchain⟩ := clientPostDecrypt_run_complete hsame hauth.recvBuffer
          hlinked hdata hcrash hlast hsegs hcat hne
        refine ⟨hok, hout.trans hkept, fun _ => htcp.trans ?_, hchain.hash, hchain.id⟩
        rw [hframes] at hgroups hids ⊢
        exact groups_mss hgroups htwo hmss hids hone cl.tcpMss

/-- The direction behind a header whose second check starts with these bytes. -/
def sampleChain : Chain suite :=
  openChain suite (chainInit suite)
    [23, 85, 213, 224, 179, 231, 94, 188, 41, 62, 239, 34, 67, 128, 207, 249] sampleInfo.key
    (suite.hmac.run [38, 38, 38, 38] (sampleInfo.iv ++ sampleInfo.key))

def sampleServer : Context suite :=
  { contextInit suite 1460 with
    hasRecvHeader := true, userKey := sampleInfo.key, sent := sampleChain, clientOverHead := 4 }

def sampleClient : Context suite :=
  { contextInit suite 1460 with
    hasSentHeader := true, userKey := sampleInfo.key, received := sampleChain }

theorem sample_authenticated : Authenticated sampleServer sampleClient :=
  ⟨rfl, .refl _, rfl, rfl⟩

def sampleReplyPad : ℕ → ℕ → UInt8 := fun _ _ => 61

/-- The first frame of the sample, with `tcp_mss` and one byte. -/
def sampleReply : SentFrame :=
  sentFrame authChainA suite sampleInfo.key sampleChain (sampleReplyPad 0) (le16 1460 ++ [13])

theorem sampleReply_length : 7 ≤ sampleReply.bytes.length ∧ sampleReply.bytes.length < 2000 := by
  have hlen := packFrame_length (V := authChainA) sampleInfo.key sampleChain (sampleReplyPad 0)
    (le16 1460 ++ [13])
  have hrand := authChainA.randLen_lt (le16 1460 ++ [13]).length sampleChain.random sampleChain.hash
  have hdata : (le16 1460 ++ [13]).length = 3 := rfl
  unfold randLen at hlen
  rw [hdata] at hlen hrand
  have heq : sampleReply.bytes.length =
      3 + (authChainA.getTcpRandLen 3 sampleChain.random sampleChain.hash).2 + 4 := hlen
  omega

/-- One byte, cut inside the length of its frame. -/
theorem server_frames_delivered_iff_sample :
    RepliesArrive authChainA suite sampleServer sampleClient [(sampleReplyPad, [13])]
      [sampleReply.bytes.take 1, sampleReply.bytes.drop 1] := by
  have hlen := sampleReply_length
  refine (server_frames_delivered_iff authChainA suite sampleServer sampleClient
    [(sampleReplyPad, [13])] [sampleReply.bytes.take 1, sampleReply.bytes.drop 1]
    sample_authenticated (by decide) (by decide) (by decide) ?_ ?_).2
    (.inr ⟨by decide, ?_, ?_⟩)
  · intro s hs
    simp only [List.mem_cons, List.not_mem_nil, or_false] at hs
    rcases hs with rfl | rfl <;> simp only [List.length_take, List.length_drop] <;> omega
  · simp only [List.flatten_cons, List.flatten_nil, List.append_nil, List.take_append_drop]
    exact (List.append_nil _).symm
  · intro g hg
    obtain rfl : g = [sampleReply] := List.mem_singleton.1 hg
    simp
  · intro f hf
    obtain rfl : sampleReply = f := Option.some.inj hf
    omega

/-- The empty buffer behind it makes a frame of four bytes. -/
def sampleEmptyReply : SentFrame :=
  sentFrame authChainA suite sampleInfo.key
    (packFrame authChainA suite sampleInfo.key sampleChain (sampleReplyPad 0) (le16 1460 ++ [13])).1
    (sampleReplyPad 0) []

theorem sampleEmptyReply_length : sampleEmptyReply.bytes.length = 4 := by
  have hrand : randLen authChainA suite (packFrame authChainA suite sampleInfo.key sampleChain
      (sampleReplyPad 0) (le16 1460 ++ [13])).1 0 = 0 := by decide +kernel
  have hlen := packFrame_length (V := authChainA) sampleInfo.key (packFrame authChainA suite
    sampleInfo.key sampleChain (sampleReplyPad 0) (le16 1460 ++ [13])).1 (sampleReplyPad 0) []
  rw [List.length_nil, hrand] at hlen
  exact hlen

/-- The client does not look at the four bytes of an empty frame without padding. -/
theorem server_frames_not_delivered :
    Authenticated sampleServer sampleClient ∧
      [sampleReply.bytes ++ sampleEmptyReply.bytes].flatten =
        (serverRun authChainA suite sampleServer
          [(sampleReplyPad, [13]), (sampleReplyPad, [])]).2.flatten ∧
      ¬ RepliesArrive authChainA suite sampleServer sampleClient
        [(sampleReplyPad, [13]), (sampleReplyPad, [])] [sampleReply.bytes ++ sampleEmptyReply.bytes] := by
  have hlen := sampleReply_length
  have hfour := sampleEmptyReply_length
  refine ⟨sample_authenticated, ?_, ?_⟩
  · simp only [List.flatten_cons, List.flatten_nil, List.append_nil]
    exact (congrArg (sampleReply.bytes ++ ·) (List.append_nil sampleEmptyReply.bytes)).symm
  · intro h
    have hlinked : Linked authChainA suite sampleClient.userKey sampleChain
        ([sampleReply] ++ [sampleEmptyReply])
        (serverRun authChainA suite sampleServer
          [(sampleReplyPad, [13]), (sampleReplyPad, [])]).1.sent := .cons _ _ (.cons _ _ (.nil _))
    refine clientPostDecrypt_run_behind (.refl _) rfl hlinked ?_ ?_ (Nat.le_of_eq hfour) ?_ ?_
      (by simp) h.id
    · intro f hf
      obtain rfl := List.mem_singleton.1 hf
      show (le16 1460 ++ [13]).length < 4096
      decide
    · intro f hf
      obtain rfl := List.mem_singleton.1 hf
      exact fun hcrash => absurd hcrash.2 (by decide)
    · intro s hs
      obtain rfl := List.mem_singleton.1 hs
      rw [List.length_append]
      omega
    · simp

end Segmentation

end AuthChain
end Obfs
end SsrNative
