import SsrNative.Obfs.AuthChainFrame
import SsrNative.Obfs.AuthChainSizes

/-!
# AuthChainToServer — segmentation of the auth_chain streams, client to server

The server's receive loop looks at a frame as soon as one byte of it has arrived.  It then reads
the second byte of the length as zero.  When the mask of that byte is 16 or more it takes the length for
one over the limit and drops the connection, and when what it reads is zero an assertion fails.  A
segment must not end there, and a frame must not carry 4096 bytes or more; every other cut delivers the
payloads, if the client stays inside its arrays.
-/

namespace SsrNative
namespace Obfs
namespace AuthChain

open Bytes
open Lib.Segments
open Lib.Framing

/-! ## Passes of the receive loop -/

section Step

variable {V : Variant} {S : Suite} {authSuccess : Bool} {userKey : Bytes} {c : Chain S} {pad : ℕ → UInt8}
  {data : Bytes} {st : Chain S × Bool} {b r t : Bytes}

theorem serverRecvStep_nil (st : Chain S × Bool) :
    serverRecvStep V S authSuccess userKey st [] = .more st := rfl

/-- A length of zero is asserted not to be there. -/
theorem serverRecvStep_assertion (hb : b.length ≠ 0) (hauth : authSuccess = true)
    (h : unmaskLen st.1.hash b = 0) : serverRecvStep V S authSuccess userKey st b = .halt st .assertion := by
  rw [serverRecvStep, if_neg hb, if_pos ⟨hauth, h⟩]

theorem serverRecvStep_halt (hb : b.length ≠ 0) (h : 4096 ≤ unmaskLen st.1.hash b) :
    ∃ s₂, serverRecvStep V S authSuccess userKey st b = .halt s₂ (.invalid (st.1.id == 0)) := by
  obtain ⟨c₂, hread, hid⟩ := readFrame_over (V := V) userKey h
  refine ⟨(c₂, st.2), ?_⟩
  rw [serverRecvStep, if_neg hb, if_neg (by omega), hread, ← hid]

theorem serverRecvStep_more (hb : b.length ≠ 0) (hzero : authSuccess = true → unmaskLen st.1.hash b ≠ 0)
    (h : unmaskLen st.1.hash b < 4096)
    (hlen : b.length < unmaskLen st.1.hash b + randLen V S st.1 (unmaskLen st.1.hash b) + 4) :
    ∃ s₂, serverRecvStep V S authSuccess userKey st b = .more s₂ ∧ SameChain s₂.1 st.1 := by
  obtain ⟨c₂, hread, hsame⟩ := readFrame_short (V := V) userKey h hlen
  refine ⟨(c₂, st.2), ?_, hsame⟩
  rw [serverRecvStep, if_neg hb, if_neg fun hassert => hzero hassert.1 hassert.2, hread]

theorem serverRecvStep_full (hsame : SameChain st.1 c) (hpos : 0 < data.length) (hfits : data.length < 4096)
    (l : Bytes) :
    ∃ s₂, serverRecvStep V S authSuccess userKey st ((packFrame V S userKey c pad data).2 ++ l) =
        .took s₂ data (packFrame V S userKey c pad data).2.length ∧
      SameChain s₂.1 (packFrame V S userKey c pad data).1 := by
  obtain ⟨c₂, hread, hnext⟩ := readFrame_full userKey pad data hsame hfits l
  refine ⟨(c₂, st.2 || data.isEmpty), ?_, hnext⟩
  have hlen := packFrame_length (V := V) userKey c pad data
  obtain ⟨l', hl'⟩ := packFrame_head (V := V) userKey c pad data l
  have hunmask : unmaskLen st.1.hash ((packFrame V S userKey c pad data).2 ++ l) = data.length := by
    rw [hsame.hash, unmaskLen_of_cat (r := []) ((List.append_nil _).trans hl')
      (by rw [List.length_append]; omega)]
    omega
  rw [serverRecvStep, if_neg (by rw [List.length_append]; omega), if_neg (by omega), hread]

variable (authSuccess) in
/-- A single byte of a frame: the mask of the second one decides, and whether what is read is zero. -/
theorem serverRecvStep_one (hsame : SameChain st.1 c)
    (hcat : b ++ r = (packFrame V S userKey c pad data).2 ++ t) (hlen : b.length = 1) :
    ((byteAt c.hash 15).toNat < 16 →
      (authSuccess = true → (byteAt c.hash 15).toNat ≠ 0 ∨ data.length % 256 ≠ 0) →
      ∃ s₂, serverRecvStep V S authSuccess userKey st b = .more s₂ ∧ SameChain s₂.1 c) ∧
    (authSuccess = true → (byteAt c.hash 15).toNat = 0 → data.length % 256 = 0 →
      ∃ s₂, serverRecvStep V S authSuccess userKey st b = .halt s₂ .assertion) ∧
    (16 ≤ (byteAt c.hash 15).toNat →
      ∃ s₂, serverRecvStep V S authSuccess userKey st b = .halt s₂ (.invalid (c.id == 0))) := by
  obtain ⟨l, hl⟩ := packFrame_head (V := V) userKey c pad data t
  have hunmask := unmaskLen_one (hcat.trans hl) hlen
  rw [← hsame.hash] at hunmask ⊢
  refine ⟨?_, ?_, ?_⟩
  · intro hlow hzero
    obtain ⟨s₂, hstep, hs₂⟩ : ∃ s₂, serverRecvStep V S authSuccess userKey st b = .more s₂ ∧
        SameChain s₂.1 st.1 := serverRecvStep_more (by omega) (fun hauth => by have := hzero hauth; omega)
          (by omega) (by omega)
    exact ⟨s₂, hstep, hs₂.trans hsame⟩
  · intro hauth hmask hdata
    exact ⟨st, serverRecvStep_assertion (by omega) hauth (by omega)⟩
  · intro hhigh
    rw [← hsame.id]
    exact serverRecvStep_halt (by omega) (by omega)

/-- Two bytes or more of a frame give its length. -/
theorem serverRecvStep_part (hsame : SameChain st.1 c)
    (hcat : b ++ r = (packFrame V S userKey c pad data).2 ++ t) (hlen : 2 ≤ b.length)
    (hpos : 0 < data.length) (hdata : data.length < 65536) :
    (data.length < 4096 → b.length < (packFrame V S userKey c pad data).2.length →
      ∃ s₂, serverRecvStep V S authSuccess userKey st b = .more s₂ ∧ SameChain s₂.1 c) ∧
    (4096 ≤ data.length →
      ∃ s₂, serverRecvStep V S authSuccess userKey st b = .halt s₂ (.invalid (c.id == 0))) := by
  obtain ⟨l, hl⟩ := packFrame_head (V := V) userKey c pad data t
  have hunmask : unmaskLen st.1.hash b = data.length := by
    rw [hsame.hash, unmaskLen_of_cat (hcat.trans hl) hlen]
    omega
  have hflen := packFrame_length (V := V) userKey c pad data
  have hrand := randLen_congr (V := V) hsame data.length
  constructor
  · intro hfits hshort
    obtain ⟨s₂, hstep, hs₂⟩ : ∃ s₂, serverRecvStep V S authSuccess userKey st b = .more s₂ ∧
        SameChain s₂.1 st.1 := serverRecvStep_more (by omega) (by omega) (by omega) (by rw [hunmask]; omega)
    exact ⟨s₂, hstep, hs₂.trans hsame⟩
  · intro hover
    rw [← hsame.id]
    exact serverRecvStep_halt (by omega) (by omega)

end Step

/-! ## Where a segment may end -/

/-- A single byte of the frame is not misread: the length under its mask is not over the limit, and not
zero where that is asserted. -/
def FirstByteSafe (authSuccess : Bool) (f : SentFrame) : Prop :=
  (byteAt f.hash 15).toNat < 16 ∧
    (authSuccess = true → (byteAt f.hash 15).toNat ≠ 0 ∨ f.data.length % 256 ≠ 0)

instance (authSuccess : Bool) (f : SentFrame) : Decidable (FirstByteSafe authSuccess f) :=
  inferInstanceAs (Decidable ((byteAt f.hash 15).toNat < 16 ∧
    (authSuccess = true → (byteAt f.hash 15).toNat ≠ 0 ∨ f.data.length % 256 ≠ 0)))

/-- With `rest` bytes to come and the frames `fs` at the end of the stream: no single byte of a
frame has arrived whose length would be misread. -/
def CutSafe (authSuccess : Bool) : List SentFrame → ℕ → Prop
  | [], _ => True
  | f :: fs, rest =>
      (rest + 1 = (streamOf (f :: fs)).length → FirstByteSafe authSuccess f) ∧ CutSafe authSuccess fs rest

instance decidableCutSafe (authSuccess : Bool) :
    ∀ (fs : List SentFrame) (rest : ℕ), Decidable (CutSafe authSuccess fs rest)
  | [], _ => .isTrue trivial
  | f :: fs, rest =>
      haveI := decidableCutSafe authSuccess fs rest
      inferInstanceAs (Decidable ((rest + 1 = (streamOf (f :: fs)).length → FirstByteSafe authSuccess f) ∧
        CutSafe authSuccess fs rest))

/-- What a frame carries stays under the limit. -/
def Fits (f : SentFrame) : Prop := f.data.length < 4096

/-- The receive loop does not fail with `rest` bytes to come. -/
def Accepts (authSuccess : Bool) : List SentFrame → ℕ → Prop
  | [], _ => True
  | f :: fs, rest =>
      (rest + 1 = (streamOf (f :: fs)).length → FirstByteSafe authSuccess f) ∧
        (rest + 2 ≤ (streamOf (f :: fs)).length → Fits f) ∧ Accepts authSuccess fs rest

section Cuts

variable {authSuccess : Bool} {fs : List SentFrame} {rest : ℕ}

theorem accepts_of_le (h : (streamOf fs).length ≤ rest) : Accepts authSuccess fs rest := by
  induction fs with
  | nil => trivial
  | cons f fs ih =>
      have hlen : (streamOf (f :: fs)).length = f.bytes.length + (streamOf fs).length := by
        rw [streamOf_cons, List.length_append]
      exact ⟨fun heq => by omega, fun hle => by omega, ih (by omega)⟩

theorem accepts_of_fits (hfits : ∀ f ∈ fs, Fits f) (h : CutSafe authSuccess fs rest) :
    Accepts authSuccess fs rest := by
  induction fs with
  | nil => trivial
  | cons f fs ih =>
      rw [List.forall_mem_cons] at hfits
      exact ⟨h.1, fun _ => hfits.1, ih hfits.2 h.2⟩

theorem cutSafe_of_accepts (h : Accepts authSuccess fs rest) : CutSafe authSuccess fs rest := by
  induction fs with
  | nil => trivial
  | cons f fs ih => exact ⟨h.1, ih h.2.2⟩

theorem fits_of_accepts (hlen : ∀ f ∈ fs, 2 ≤ f.bytes.length) (h : Accepts authSuccess fs 0) :
    ∀ f ∈ fs, Fits f := by
  induction fs with
  | nil => simp
  | cons f fs ih =>
      rw [List.forall_mem_cons] at hlen ⊢
      refine ⟨h.2.1 ?_, ih hlen.2 h.2.2⟩
      rw [streamOf_cons, List.length_append]
      omega

/-- The two conditions together are what the receive loop needs. -/
theorem cutsOk_accepts_iff (hlen : ∀ f ∈ fs, 2 ≤ f.bytes.length) {segs : List Bytes} (hne : segs ≠ []) :
    CutsOk (Accepts authSuccess fs) segs ↔ (∀ f ∈ fs, Fits f) ∧ CutsOk (CutSafe authSuccess fs) segs := by
  constructor
  · intro h
    exact ⟨fits_of_accepts hlen (h.last hne), h.mono fun _ => cutSafe_of_accepts⟩
  · rintro ⟨hfits, hsafe⟩
    exact hsafe.mono fun _ => accepts_of_fits hfits

end Cuts

/-! ## Streams of frames -/

section Stream

variable {V : Variant} {S : Suite} {authSuccess : Bool} {userKey : Bytes}

/-- States of the receive loop that agree on the direction of the connection. -/
def SameState (s t : Chain S × Bool) : Prop := SameChain s.1 t.1

variable {c : Chain S} {pad : ℕ → UInt8} {data : Bytes} {fs : List SentFrame} {ok : ℕ → Prop}
  {bad : ServerError → Prop}

/-- A single byte makes the loop wait if it is not misread, and fail if it is. -/
theorem serverRecvStep_first {st : Chain S × Bool} {b r t : Bytes} (hassert : bad .assertion)
    (hbad : bad (.invalid (c.id == 0))) (hsame : SameChain st.1 c)
    (hcat : b ++ r = (packFrame V S userKey c pad data).2 ++ t) (hlen : b.length = 1) :
    (FirstByteSafe authSuccess (sentFrame V S userKey c pad data) ∧
        ∃ s₂, serverRecvStep V S authSuccess userKey st b = .more s₂ ∧ SameChain s₂.1 c) ∨
      (¬ FirstByteSafe authSuccess (sentFrame V S userKey c pad data) ∧
        ∃ s₂ e, serverRecvStep V S authSuccess userKey st b = .halt s₂ e ∧ bad e) := by
  obtain ⟨hlow, hzero, hhigh⟩ := serverRecvStep_one authSuccess hsame hcat hlen
  by_cases hmask : (byteAt c.hash 15).toNat < 16
  · by_cases hread : authSuccess = true → (byteAt c.hash 15).toNat ≠ 0 ∨ data.length % 256 ≠ 0
    · exact .inl ⟨⟨hmask, hread⟩, hlow hmask hread⟩
    · obtain ⟨hauth, hboth⟩ := Classical.not_imp.1 hread
      obtain ⟨s₂, hstep⟩ := hzero hauth (by omega) (by omega)
      exact .inr ⟨fun h => hread h.2, s₂, _, hstep, hassert⟩
  · obtain ⟨s₂, hstep⟩ := hhigh (Nat.le_of_not_lt hmask)
    exact .inr ⟨fun h => hmask h.1, s₂, _, hstep, hbad⟩

/-- A part of a frame that fits. -/
theorem serverRecvStep_takes (hpos : 0 < data.length) (hfits : data.length < 4096) (hassert : bad .assertion)
    (hbad : bad (.invalid (c.id == 0)))
    (hok : ∀ rest ≤ (streamOf (sentFrame V S userKey c pad data :: fs)).length,
      (ok rest ↔ Accepts authSuccess (sentFrame V S userKey c pad data :: fs) rest)) (fb : Bool) :
    Takes (serverRecvStep V S authSuccess userKey) SameState ok bad (c, fb)
      (packFrame V S userKey c pad data).2 (streamOf fs) data
      ((packFrame V S userKey c pad data).1, fb) := by
  have hflen := packFrame_length (V := V) userKey c pad data
  refine takes_of_prefixes (fun s₀ hs₀ l => serverRecvStep_full hs₀ hpos hfits l) ?_
  intro s₀ hs₀ p l hp hl
  have hsame : SameChain s₀.1 c := hs₀
  have hlpos := List.length_pos_iff.2 hl
  have hplen : p.length + l.length = (packFrame V S userKey c pad data).2.length := by
    rw [← hp, List.length_append]
  have htotal : (streamOf (sentFrame V S userKey c pad data :: fs)).length =
      (packFrame V S userKey c pad data).2.length + (streamOf fs).length := by
    rw [streamOf_cons, List.length_append]
    rfl
  have hrest : (l ++ streamOf fs).length + p.length =
      (streamOf (sentFrame V S userKey c pad data :: fs)).length := by
    rw [List.length_append]
    omega
  have hlater : Accepts authSuccess fs (l ++ streamOf fs).length :=
    accepts_of_le (by rw [List.length_append]; omega)
  rw [hok _ (by omega)]
  have hcat : p ++ l = (packFrame V S userKey c pad data).2 ++ [] := by rw [hp, List.append_nil]
  -- nothing, a single byte, or more: only a single byte can be taken for a length
  by_cases hnil : p.length = 0
  · left
    obtain rfl := List.length_eq_zero_iff.1 hnil
    exact ⟨s₀, serverRecvStep_nil s₀, hs₀, fun heq => by omega, fun _ => hfits, hlater⟩
  · by_cases hone : p.length = 1
    · -- the mask of the high byte decides what the missing byte is read as
      rcases serverRecvStep_first hassert hbad hsame hcat hone with ⟨hsafe, s₂, hstep, hs₂⟩ | ⟨hmis, hhalt⟩
      · exact .inl ⟨s₂, hstep, hs₂, fun _ => hsafe, fun _ => hfits, hlater⟩
      · right
        obtain ⟨s₂, e, hstep, he⟩ := hhalt
        exact ⟨s₂, e, hstep, he, fun h => hmis (h.1 (by omega))⟩
    · left
      obtain ⟨s₂, hstep, hs₂⟩ :=
        (serverRecvStep_part hsame hcat (by omega) hpos (by omega)).1 hfits (by omega)
      exact ⟨s₂, hstep, hs₂, fun heq => by omega, fun _ => hfits, hlater⟩

/-- A frame that does not fit is refused, at the latest when two bytes of it have arrived. -/
theorem serverRecvStep_refuses (hover : 4096 ≤ data.length) (hdata : data.length < 65536)
    (hassert : bad .assertion) (hbad : bad (.invalid (c.id == 0)))
    (hok : ∀ rest ≤ (streamOf (sentFrame V S userKey c pad data :: fs)).length,
      (ok rest ↔ Accepts authSuccess (sentFrame V S userKey c pad data :: fs) rest)) (fb : Bool) :
    Refuses (serverRecvStep V S authSuccess userKey) SameState ok bad (c, fb)
      (streamOf (sentFrame V S userKey c pad data :: fs)) := by
  have hflen := packFrame_length (V := V) userKey c pad data
  have htotal : (streamOf (sentFrame V S userKey c pad data :: fs)).length =
      (packFrame V S userKey c pad data).2.length + (streamOf fs).length := by
    rw [streamOf_cons, List.length_append]
    rfl
  intro s₀ hs₀ b rest hcat
  have hsame : SameChain s₀.1 c := hs₀
  have hlen : b.length + rest.length =
      (streamOf (sentFrame V S userKey c pad data :: fs)).length := by
    rw [← hcat, List.length_append]
  have hcat' : b ++ rest = (packFrame V S userKey c pad data).2 ++ streamOf fs := hcat
  rw [hok _ (by omega)]
  by_cases hnil : b.length = 0
  · left
    obtain rfl := List.length_eq_zero_iff.1 hnil
    refine ⟨s₀, serverRecvStep_nil s₀, hs₀, List.length_pos_iff.1 (by omega), ?_⟩
    exact accepts_of_le (by omega)
  · by_cases hone : b.length = 1
    · rcases serverRecvStep_first hassert hbad hsame hcat' hone with ⟨hsafe, s₂, hstep, hs₂⟩ | ⟨hmis, hhalt⟩
      · exact .inl ⟨s₂, hstep, hs₂, List.length_pos_iff.1 (by omega), fun _ => hsafe,
          fun hle => by omega, accepts_of_le (by omega)⟩
      · right
        obtain ⟨s₂, e, hstep, he⟩ := hhalt
        exact ⟨s₂, e, hstep, he, fun h => hmis (h.1 (by omega))⟩
    · right
      obtain ⟨s₂, hstep⟩ := (serverRecvStep_part hsame hcat' (by omega) (by omega) hdata).2 hover
      refine ⟨s₂, _, hstep, hbad, fun h => ?_⟩
      have hfits : data.length < 4096 := h.2.1 (by omega)
      omega

/-- A sequence of frames parses to what they carry, up to the first one that does not fit. -/
theorem Linked.parses {c' : Chain S} (h : Linked V S userKey c fs c')
    (hdata : ∀ f ∈ fs, 0 < f.data.length ∧ f.data.length < 65536) (hassert : bad .assertion)
    (hbad : ∀ f ∈ fs, bad (.invalid (f.id == 0)))
    (hok : ∀ rest ≤ (streamOf fs).length, (ok rest ↔ Accepts authSuccess fs rest)) (fb : Bool) :
    ∃ out s' z,
      Parses (serverRecvStep V S authSuccess userKey) SameState ok bad (c, fb) (streamOf fs) out s' z ∧
      ((∀ f ∈ fs, Fits f) → out = payloadOf fs ∧ s' = (c', fb) ∧ z = []) := by
  induction h with
  | nil c =>
      refine ⟨[], (c, fb), [], .rest (waits_nil ((hok 0 (Nat.le_refl _)).2 trivial) ?_),
        fun _ => ⟨rfl, rfl, rfl⟩⟩
      exact fun s₀ hs₀ => ⟨s₀, serverRecvStep_nil s₀, hs₀⟩
  | @cons c c' fs pad data hlinked ih =>
      rw [List.forall_mem_cons] at hdata hbad
      by_cases hfits : data.length < 4096
      · have hflen := packFrame_length (V := V) userKey c pad data
        have htotal : (streamOf (sentFrame V S userKey c pad data :: fs)).length =
            (packFrame V S userKey c pad data).2.length + (streamOf fs).length := by
          rw [streamOf_cons, List.length_append]
          rfl
        -- behind this frame, the condition is the one for the other frames
        have hok' : ∀ rest ≤ (streamOf fs).length, (ok rest ↔ Accepts authSuccess fs rest) := by
          intro rest hrest
          rw [hok rest (by omega)]
          exact ⟨fun haccepts => haccepts.2.2,
            fun haccepts => ⟨fun heq => by omega, fun _ => hfits, haccepts⟩⟩
        obtain ⟨out, s', z, hp, hall⟩ := ih hdata.2 hbad.2 hok'
        refine ⟨data ++ out, s', z,
          .frame (packFrame_ne_nil userKey c pad data)
            (serverRecvStep_takes hdata.1.1 hfits hassert hbad.1 hok fb) hp, ?_⟩
        rw [List.forall_mem_cons]
        rintro ⟨-, hothers⟩
        obtain ⟨rfl, rfl, rfl⟩ := hall hothers
        exact ⟨rfl, rfl, rfl⟩
      · refine ⟨[], (c, fb), _,
          .refuse (serverRecvStep_refuses (Nat.le_of_not_lt hfits) hdata.1.2 hassert hbad.1 hok fb), ?_⟩
        rw [List.forall_mem_cons]
        rintro ⟨hfits', -⟩
        exact absurd hfits' hfits

/-- The same with `Accepts` itself for the cuts that are allowed. -/
theorem Linked.parses_accepts {c' : Chain S} (h : Linked V S userKey c fs c')
    (hdata : ∀ f ∈ fs, 0 < f.data.length ∧ f.data.length < 65536) (authSuccess : Bool)
    (bad : ServerError → Prop) (hassert : bad .assertion) (hbad : ∀ f ∈ fs, bad (.invalid (f.id == 0))) :
    ∃ out s' z, Parses (serverRecvStep V S authSuccess userKey) SameState (Accepts authSuccess fs) bad
        (c, false) (streamOf fs) out s' z ∧
      ((∀ f ∈ fs, Fits f) → out = payloadOf fs ∧ s' = (c', false) ∧ z = []) :=
  h.parses hdata hassert hbad (fun _ _ => Iff.rfl) false

end Stream

/-! ## What the client sends -/

section Client

variable (V : Variant) (S : Suite)

/-- The frames of `packUnits`. -/
def unitFrames (unitSize : ℕ) (pad : ℕ → ℕ → UInt8) :
    ℕ → ℕ → Context S → Bytes → List SentFrame
  | 0, _, _, _ => []
  | fuel + 1, i, l, data =>
      if unitSize < data.length then
        sentFrame V S l.userKey l.sent (pad i) (data.take unitSize) ::
          unitFrames unitSize pad fuel (i + 1) (packClientData V S l (pad i) (data.take unitSize)).1
            (data.drop unitSize)
      else if 0 < data.length then [sentFrame V S l.userKey l.sent (pad i) data]
      else []

/-- The context in which a call of the client starts its loop, and the data that is left for it. -/
def loopStart (info : ServerInfo) (st : GlobalData × Context S) (d : SendDraws) (data : Bytes) :
    Context S × Bytes :=
  if 0 < data.length ∧ st.2.hasSentHeader = false then
    ({ (packAuthData V S info st.1 st.2 d (data.take (min 1200 data.length))).1.2 with
        hasSentHeader := true }, data.drop (min 1200 data.length))
  else (st.2, data)

/-- The frames of one call of the client; the first one of all follows the header. -/
def callFrames (info : ServerInfo) (st : GlobalData × Context S) (d : SendDraws) (data : Bytes) :
    List SentFrame :=
  let start := loopStart V S info st d data
  let l := authContext V S info (nextConnection st.1 d.auth) st.2 d.auth
  (if 0 < data.length ∧ st.2.hasSentHeader = false then
    [sentFrame V S l.userKey l.sent (d.pad 0) (data.take (min 1200 data.length))] else []) ++
    unitFrames V S (subSize start.1.tcpMss info.overhead) d.pad (start.2.length + 1) 1 start.1 start.2

/-- The client's calls on one connection. -/
def clientRun (info : ServerInfo) (st : GlobalData × Context S) (sends : List (SendDraws × Bytes)) :
    (GlobalData × Context S) × List Bytes :=
  run (fun st s => clientPreEncrypt V S info st s.1 s.2) st sends

/-- The frames of all calls. -/
def clientFrames (info : ServerInfo) :
    GlobalData × Context S → List (SendDraws × Bytes) → List SentFrame
  | _, [] => []
  | st, s :: sends =>
      callFrames V S info st s.1 s.2 ++
        clientFrames info (clientPreEncrypt V S info st s.1 s.2).1 sends

variable {V S}

/-- What calls of the client leave as it was. -/
structure SameSession (l l' : Context S) : Prop where
  hasSentHeader : l'.hasSentHeader = l.hasSentHeader
  userKey : l'.userKey = l.userKey
  received : l'.received = l.received
  recvBuffer : l'.recvBuffer = l.recvBuffer
  tcpMss : l'.tcpMss = l.tcpMss

variable (V) in
/-- From the context `l` to `l'` the client emits `bytes`, frames that carry the payload. -/
structure Emits (l l' : Context S) (fs : List SentFrame) (bytes payload : Bytes) : Prop where
  bytes_eq : bytes = streamOf fs
  payload_eq : payloadOf fs = payload
  linked : Linked V S l.userKey l.sent fs l'.sent
  session : SameSession l l'
  data_le : ∀ f ∈ fs, 0 < f.data.length ∧ f.data.length ≤ max 1200 l.tcpMss

theorem Emits.append {l l' l'' : Context S} {fs gs : List SentFrame} {b b' p p' : Bytes}
    (h : Emits V l l' fs b p) (h' : Emits V l' l'' gs b' p') :
    Emits V l l'' (fs ++ gs) (b ++ b') (p ++ p') := by
  obtain ⟨rfl, rfl, hlinked, hs, hle⟩ := h
  obtain ⟨rfl, rfl, hlinked', hs', hle'⟩ := h'
  rw [hs.userKey] at hlinked'
  rw [hs.tcpMss] at hle'
  refine ⟨(streamOf_append _ _).symm, payloadOf_append _ _, hlinked.append hlinked', ?_, ?_⟩
  · exact ⟨hs'.hasSentHeader.trans hs.hasSentHeader, hs'.userKey.trans hs.userKey,
      hs'.received.trans hs.received, hs'.recvBuffer.trans hs.recvBuffer,
      hs'.tcpMss.trans hs.tcpMss⟩
  · rw [List.forall_mem_append]
    exact ⟨hle, hle'⟩

/-- One frame of the client. -/
theorem packClientData_emits {l : Context S} (pad : ℕ → UInt8) {data : Bytes} (hpos : 0 < data.length)
    (hle : data.length ≤ max 1200 l.tcpMss) :
    Emits V l (packClientData V S l pad data).1 [sentFrame V S l.userKey l.sent pad data]
      (packClientData V S l pad data).2 data := by
  refine ⟨?_, ?_, .cons pad data (.nil _), ⟨rfl, rfl, rfl, rfl, rfl⟩, ?_⟩
  · rw [streamOf_cons, streamOf_nil, List.append_nil]
    rfl
  · rw [payloadOf_cons, payloadOf_nil, List.append_nil]
    rfl
  · rw [List.forall_mem_singleton]
    exact ⟨hpos, hle⟩

/-- The loop over the units emits frames that carry the data. -/
theorem packUnits_emits {unitSize : ℕ} (hunit : 0 < unitSize) (pad : ℕ → ℕ → UInt8)
    {fuel i : ℕ} {l : Context S} {data : Bytes} (hfuel : data.length < fuel)
    (hle : unitSize ≤ l.tcpMss) :
    Emits V l (packUnits V S unitSize pad fuel i l data).1
      (unitFrames V S unitSize pad fuel i l data) (packUnits V S unitSize pad fuel i l data).2 data := by
  induction fuel generalizing i l data with
  | zero => omega
  | succ fuel ih =>
      by_cases hlong : unitSize < data.length
      · -- one full unit, and the rest by induction
        have hfull : (data.take unitSize).length = unitSize := List.length_take_of_le (Nat.le_of_lt hlong)
        have htake : (data.take unitSize).length ≤ max 1200 l.tcpMss := by omega
        have hshorter : (data.drop unitSize).length < fuel := by
          rw [List.length_drop]
          omega
        have hfirst := packClientData_emits (V := V) (pad i) (by omega) htake
        have hrest := @ih (i + 1) (packClientData V S l (pad i) (data.take unitSize)).1
          (data.drop unitSize) hshorter hle
        have hboth := hfirst.append hrest
        rw [List.take_append_drop] at hboth
        simp only [packUnits, unitFrames, if_pos hlong]
        exact hboth
      · by_cases hpos : 0 < data.length
        · simp only [packUnits, unitFrames, if_neg hlong, if_pos hpos]
          exact packClientData_emits (pad i) hpos (by omega)
        · have hnil : data = [] := List.length_eq_zero_iff.1 (by omega)
          simp only [packUnits, unitFrames, if_neg hlong, if_neg hpos]
          exact ⟨rfl, hnil.symm, .nil _, ⟨rfl, rfl, rfl, rfl, rfl⟩, by simp⟩

/-- A call of the client behind the header. -/
theorem clientPreEncrypt_sent {info : ServerInfo} {st : GlobalData × Context S}
    (hmss : info.overhead < st.2.tcpMss) (hsent : st.2.hasSentHeader = true) (d : SendDraws)
    (data : Bytes) :
    Emits V st.2 (clientPreEncrypt V S info st d data).1.2 (callFrames V S info st d data)
      (clientPreEncrypt V S info st d data).2 data := by
  have hfirst : ¬ (0 < data.length ∧ st.2.hasSentHeader = false) := by simp [hsent]
  have hunit : subSize st.2.tcpMss info.overhead = st.2.tcpMss - info.overhead :=
    subSize_of_le (Nat.le_of_lt hmss)
  have hunits : Emits V st.2 _ _ _ data :=
    packUnits_emits (V := V) (i := 1) (show 0 < subSize st.2.tcpMss info.overhead by omega) d.pad
      (Nat.lt_succ_self data.length) (by omega)
  simp only [clientPreEncrypt, callFrames, loopStart, if_neg hfirst, List.nil_append]
  exact ⟨hunits.bytes_eq, hunits.payload_eq, hunits.linked,
    ⟨hunits.session.hasSentHeader, hunits.session.userKey, hunits.session.received,
      hunits.session.recvBuffer, hunits.session.tcpMss⟩, hunits.data_le⟩

/-- The first call of the client: the header, and frames in the context behind it. -/
theorem clientPreEncrypt_first {info : ServerInfo} {st : GlobalData × Context S}
    (hmss : info.overhead < st.2.tcpMss) (hsent : st.2.hasSentHeader = false) (d : SendDraws)
    {data : Bytes} (hdata : data ≠ []) :
    ∃ bytes, (clientPreEncrypt V S info st d data).2 =
        authHeader V S (info.iv ++ info.key) (randBytes d.auth.head 4) (clientUser S info st.2 d.auth)
          (authHead (nextConnection st.1 d.auth) d.auth.time info.overhead) ++ bytes ∧
      Emits V
        { authContext V S info (nextConnection st.1 d.auth) st.2 d.auth with hasSentHeader := true }
        (clientPreEncrypt V S info st d data).1.2 (callFrames V S info st d data) bytes data := by
  have hfirst : 0 < data.length ∧ st.2.hasSentHeader = false :=
    ⟨List.length_pos_iff.2 hdata, hsent⟩
  have hunit : subSize st.2.tcpMss info.overhead = st.2.tcpMss - info.overhead :=
    subSize_of_le (Nat.le_of_lt hmss)
  have htake : 0 < (data.take (min 1200 data.length)).length ∧
      (data.take (min 1200 data.length)).length ≤ max 1200 st.2.tcpMss := by
    have hpos := hfirst.1
    rw [List.length_take]
    omega
  -- the frame behind the header, and the units behind it
  have hhead : Emits V
      { authContext V S info (nextConnection st.1 d.auth) st.2 d.auth with hasSentHeader := true }
      { (packAuthData V S info st.1 st.2 d (data.take (min 1200 data.length))).1.2 with
        hasSentHeader := true } _ _ (data.take (min 1200 data.length)) :=
    packClientData_emits (d.pad 0) htake.1 htake.2
  have hunits : Emits V
      { (packAuthData V S info st.1 st.2 d (data.take (min 1200 data.length))).1.2 with
        hasSentHeader := true } _ _ _ (data.drop (min 1200 data.length)) :=
    packUnits_emits (V := V) (i := 1) (show 0 < subSize st.2.tcpMss info.overhead by omega) d.pad
      (Nat.lt_succ_self _) (show subSize st.2.tcpMss info.overhead ≤ st.2.tcpMss by omega)
  have hboth := hhead.append hunits
  rw [List.take_append_drop] at hboth
  simp only [clientPreEncrypt, callFrames, loopStart, if_pos hfirst]
  refine ⟨_, List.append_assoc _ _ _, hboth.bytes_eq, hboth.payload_eq, hboth.linked, ?_, hboth.data_le⟩
  exact ⟨hboth.session.hasSentHeader, hboth.session.userKey, hboth.session.received,
    hboth.session.recvBuffer, hboth.session.tcpMss⟩

/-- Behind the header the client only emits frames. -/
theorem clientRun_sent {info : ServerInfo} {st : GlobalData × Context S}
    (hmss : info.overhead < st.2.tcpMss) (hsent : st.2.hasSentHeader = true)
    (sends : List (SendDraws × Bytes)) :
    Emits V st.2 (clientRun V S info st sends).1.2 (clientFrames V S info st sends)
      (clientRun V S info st sends).2.flatten (sends.map Prod.snd).flatten := by
  induction sends generalizing st with
  | nil => exact ⟨rfl, rfl, .nil _, ⟨rfl, rfl, rfl, rfl, rfl⟩, by simp [clientFrames]⟩
  | cons s sends ih =>
      have hcall := clientPreEncrypt_sent (V := V) hmss hsent s.1 s.2
      have hrest := @ih (clientPreEncrypt V S info st s.1 s.2).1
        (by rw [hcall.session.tcpMss]; exact hmss) (hcall.session.hasSentHeader.trans hsent)
      exact hcall.append hrest

end Client

/-! ## The header -/

section Header

variable {V : Variant} {S : Suite}

/-- The four random bytes and the check behind them, as far as they have arrived. -/
theorem first_check {macKey head b r z : Bytes} (hhead : head.length = 4)
    (hcat : b ++ r = head ++ ((S.hmac.run head macKey).take 8 ++ z)) (hlen : 4 ≤ b.length) :
    (S.hmac.run (window b 0 4) macKey).take (min b.length 12 - 4) =
      window b 4 (min b.length 12 - 4) := by
  have hn : min b.length 12 - 4 ≤ 8 := by omega
  have hb : 4 + (min b.length 12 - 4) ≤ b.length := by omega
  generalize min b.length 12 - 4 = n at hn hb
  have hfront : window b 0 4 = head := by
    rw [← window_append_left (l := r) (by omega), hcat, window_zero_append hhead]
  have hsplit : (S.hmac.run head macKey).take 8 ++ z =
      (S.hmac.run head macKey).take n ++ (((S.hmac.run head macKey).take 8).drop n ++ z) := by
    have htake : ((S.hmac.run head macKey).take 8).take n = (S.hmac.run head macKey).take n := by
      rw [List.take_take, Nat.min_eq_left hn]
    rw [← List.append_assoc, ← htake, List.take_append_drop]
  have hnlen : ((S.hmac.run head macKey).take n).length = n := by
    rw [List.length_take, S.hmac.run_length]
    omega
  rw [hfront, ← window_append_left hb, hcat, hsplit]
  exact (window_field hhead hnlen).symm

/-- Before the header is complete the server waits. -/
theorem readHeader_wait {info : ServerInfo} {l : Context S} {head r z : Bytes} (now : ℕ)
    (hhead : head.length = 4)
    (hcat : l.recvBuffer ++ r =
      head ++ ((S.hmac.run head (info.recvIv ++ info.key)).take 8 ++ z))
    (hlen : l.recvBuffer.length < 36) : readHeader V S info now l = .wait l := by
  simp only [readHeader]
  by_cases hfour : 4 ≤ l.recvBuffer.length
  · rw [if_neg (fun h => h.2 (first_check hhead hcat hfour)), if_pos (by omega)]
  · rw [if_neg (by omega), if_pos (by omega)]

variable {macKey head : Bytes} {user : Bytes × Bytes} {plain : Bytes}

theorem authHeader_length (hhead : head.length = 4) (huid : user.1.length = 4) :
    (authHeader V S macKey head user plain).length = 36 := by
  simp only [authHeader, maskedUid, List.length_append, List.length_take, S.hmac.run_length,
    Lib.Hash.xorWith_length, S.aes.encrypt_length, hhead, huid]
  rfl

/-- The chains of both peers behind the header. -/
theorem readHeader_done {info : ServerInfo} {l : Context S} {t : Bytes} {now : ℕ}
    (hhead : head.length = 4) (huid : user.1.length = 4) (hkey : user.2 = info.key)
    (hplain : plain.length = 16)
    (hcat : l.recvBuffer = authHeader V S (info.recvIv ++ info.key) head user plain ++ t)
    (hclock : timeDiff now (rdLe32 plain 0) ≤ MAX_TIME_DIF) :
    ∃ l', readHeader V S info now l = .done l' ∧ l'.hasRecvHeader = true ∧ l'.userKey = user.2 ∧
      l'.recvBuffer = t ∧ l'.tcpMss = l.tcpMss ∧ l'.clientOverHead = rdLe16 plain 12 ∧
      l'.received = openChain S l.received (S.hmac.run head (info.recvIv ++ info.key)) user.2
        (S.hmac.run head (info.recvIv ++ info.key)) ∧
      l'.sent = openChain S l.sent
        (S.hmac.run (maskedUid user.1 (S.hmac.run head (info.recvIv ++ info.key)) ++
          S.aes.encrypt (encKey V user.2) plain) user.2) user.2
        (S.hmac.run head (info.recvIv ++ info.key)) := by
  have hlong : (authHeader V S (info.recvIv ++ info.key) head user plain).length = 36 :=
    authHeader_length hhead huid
  have hlen : 36 ≤ l.recvBuffer.length := by
    rw [hcat, List.length_append]
    omega
  have hdrop : shortenedTo l.recvBuffer 36 (subSize l.recvBuffer.length 36) = t := by
    rw [hcat]
    exact shortenedTo_append hlong
  rw [authHeader] at hcat
  generalize hch : S.hmac.run head (info.recvIv ++ info.key) = clientHash at hcat ⊢
  generalize hblk : S.aes.encrypt (encKey V user.2) plain = blk at hcat ⊢
  generalize hmask : maskedUid user.1 clientHash = mask at hcat ⊢
  have hch16 : clientHash.length = 16 := by rw [← hch, S.hmac.run_length]
  have hblk16 : blk.length = 16 := by rw [← hblk, S.aes.encrypt_length]
  have hmask4 : mask.length = 4 := by rw [← hmask, maskedUid, Lib.Hash.xorWith_length, huid]
  have hdec : S.aes.decrypt (encKey V user.2) blk = plain := by
    rw [← hblk, S.aes.decrypt_encrypt _ _ hplain]
  have hmac4 : ((S.hmac.run (mask ++ blk) user.2).take 4).length = 4 := by
    rw [List.length_take, S.hmac.run_length]
    rfl
  have htake8 : (clientHash.take 8).length = 8 := by
    rw [List.length_take]
    omega
  simp only [List.append_assoc] at hcat
  have hcat₀ : l.recvBuffer ++ [] = head ++ (clientHash.take 8 ++ (mask ++ (blk ++
      ((S.hmac.run (mask ++ blk) user.2).take 4 ++ t)))) := by rw [List.append_nil, hcat]
  -- the fields of the header
  have hfront : window l.recvBuffer 0 4 = head := by
    rw [hcat]
    exact window_zero_append hhead
  have hcheck : (S.hmac.run (window l.recvBuffer 0 4) (info.recvIv ++ info.key)).take
      (min l.recvBuffer.length 12 - 4) = window l.recvBuffer 4 (min l.recvBuffer.length 12 - 4) :=
    first_check hhead (hch.symm ▸ hcat₀) (by omega)
  have hfields := hcat₀
  rw [← List.append_assoc head] at hfields
  have hpre : (head ++ clientHash.take 8).length = 12 := by
    rw [List.length_append]
    omega
  have hencw : window l.recvBuffer 12 20 = mask ++ blk := by
    rw [← List.append_assoc mask] at hfields
    exact window_of_cat hfields hpre (by rw [List.length_append]; omega) (by omega)
  have hblkw : window l.recvBuffer 16 16 = blk := by
    rw [← List.append_assoc] at hfields
    exact window_of_cat hfields (by rw [List.length_append]; omega) hblk16 (by omega)
  have hmacw : window l.recvBuffer 32 4 = (S.hmac.run (mask ++ blk) user.2).take 4 := by
    rw [← List.append_assoc, ← List.append_assoc] at hfields
    exact window_of_cat hfields (by simp only [List.length_append] at hpre ⊢; omega) hmac4 (by omega)
  rw [hfront, hch] at hcheck
  rw [hkey] at hmacw hdec ⊢
  simp only [readHeader, hfront, hch]
  rw [if_neg (fun h => h.2 hcheck), if_neg (by omega), hencw, hmacw, if_neg (by simp), hblkw, hdec,
    if_neg (by omega), hdrop]
  exact ⟨_, rfl, rfl, rfl, rfl, rfl, rfl, rfl, rfl⟩

end Header

/-! ## The server's calls -/

section Server

variable {V : Variant} {S : Suite} {info : ServerInfo} {authSuccess : Bool}

variable (V authSuccess) in
/-- `need_feedback` has no influence on what is received. -/
theorem serverRecvStep_rel (userKey : Bytes) {s t : Chain S × Bool} (b : Bytes) (h : s.1 = t.1) :
    PeelRel (fun s t : Chain S × Bool => s.1 = t.1) (serverRecvStep V S authSuccess userKey s b)
      (serverRecvStep V S authSuccess userKey t b) := by
  obtain ⟨c, x⟩ := s
  obtain ⟨c', y⟩ := t
  obtain rfl : c = c' := h
  unfold serverRecvStep
  dsimp only
  split_ifs
  · exact .more rfl
  · exact .halt _ rfl
  · cases readFrame V S userKey c b with
    | more c₂ => exact .more rfl
    | halt c₂ e => exact .halt _ rfl
    | took c₂ out n => exact .took _ _ rfl

/-- Behind the header: the direction of the connection and the carried bytes.  The other direction
stays as the header has left it. -/
structure Receiving (userKey : Bytes) (sent : Chain S) (l : Context S)
    (t : (Chain S × Bool) × Bytes) : Prop where
  header : l.hasRecvHeader = true
  userKey : l.userKey = userKey
  received : l.received = t.1.1
  recvBuffer : l.recvBuffer = t.2
  sent : l.sent = sent

/-- The errors with which a call does not return a buffer: an invalid frame whose number is not zero, and the
assertion. -/
def Fatal (e : ServerError) : Prop := e = .invalid false ∨ e = .assertion

/-- The receive loop of a call, whatever `need_feedback` was. -/
theorem serverRecvLoop_of_drain {userKey : Bytes} {sent : Chain S} {l : Context S}
    {t : (Chain S × Bool) × Bytes} (h : Receiving userKey sent l t) (feedback : Bool)
    {d : Drained (Chain S × Bool) UInt8 UInt8 ServerError}
    (hd : drain (serverRecvStep V S authSuccess userKey) (t.2.length + 1) t.1 t.2 [] = d) :
    (d.stop = none →
      Receiving userKey sent (serverRecvLoop V S authSuccess l feedback).1 (d.state, d.rest) ∧
        (serverRecvLoop V S authSuccess l feedback).2.1.items? = some d.out) ∧
    (∀ e, d.stop = some e → Fatal e → (serverRecvLoop V S authSuccess l feedback).2.1.items? = none) := by
  obtain ⟨hheader, rfl, hrecv, hbuf, hsent⟩ := h
  have hsame : (l.received, feedback).1 = t.1.1 := hrecv
  obtain ⟨hstate, hrest, hout, hstop⟩ := drain_rel
    (fun b hs => serverRecvStep_rel V authSuccess l.userKey b hs) (t.2.length + 1)
    hsame t.2 []
  rw [hd] at hstate hrest hout hstop
  constructor
  · intro hok
    rw [hok] at hstop
    simp only [serverRecvLoop, hbuf, hstop]
    exact ⟨⟨hheader, rfl, hstate, hrest, hsent⟩, congrArg some hout⟩
  · intro e hfail hfatal
    rw [hfail] at hstop
    rcases hfatal with rfl | rfl
    · simp only [serverRecvLoop, hbuf, hstop]
      rfl
    · simp only [serverRecvLoop, hbuf, hstop]
      rfl

/-- The context with a segment appended to what was carried over. -/
def appended (l : Context S) (seg : Bytes) : Context S :=
  { l with recvBuffer := l.recvBuffer ++ seg }

theorem serverPostDecrypt_wait {l l' : Context S} {now : ℕ} {seg : Bytes}
    (hl : l.hasRecvHeader = false) (h : readHeader V S info now (appended l seg) = .wait l') :
    serverPostDecrypt V S info authSuccess l (now, seg) = (l', (.out [], false)) := by
  unfold serverPostDecrypt
  refine (if_neg (by simp [hl])).trans ?_
  have h' : readHeader V S info now { l with recvBuffer := l.recvBuffer ++ seg } = .wait l' := h
  dsimp only
  rw [h']

theorem serverPostDecrypt_done {l l' : Context S} {now : ℕ} {seg : Bytes}
    (hl : l.hasRecvHeader = false) (h : readHeader V S info now (appended l seg) = .done l') :
    serverPostDecrypt V S info authSuccess l (now, seg) = serverRecvLoop V S authSuccess l' true := by
  unfold serverPostDecrypt
  refine (if_neg (by simp [hl])).trans ?_
  have h' : readHeader V S info now { l with recvBuffer := l.recvBuffer ++ seg } = .done l' := h
  dsimp only
  rw [h']

theorem serverPostDecrypt_open {l : Context S} (hl : l.hasRecvHeader = true) (now : ℕ) (seg : Bytes) :
    serverPostDecrypt V S info authSuccess l (now, seg) = serverRecvLoop V S authSuccess (appended l seg) false := by
  unfold serverPostDecrypt
  exact if_pos hl

/-- The direction of the connection towards the server, behind a header with `user`. -/
def openReceived (S : Suite) (macKey head : Bytes) (user : Bytes × Bytes) : Chain S :=
  openChain S (chainInit S) (S.hmac.run head macKey) user.2 (S.hmac.run head macKey)

/-- The other direction behind the header. -/
def openSent (V : Variant) (S : Suite) (macKey head : Bytes) (user : Bytes × Bytes)
    (plain : Bytes) : Chain S :=
  openChain S (chainInit S)
    (S.hmac.run (maskedUid user.1 (S.hmac.run head macKey) ++
      S.aes.encrypt (encKey V user.2) plain) user.2) user.2 (S.hmac.run head macKey)

/-- Before the header is complete. -/
structure AwaitsHeader (c : Bytes) (l : Context S) : Prop where
  header : l.hasRecvHeader = false
  recvBuffer : l.recvBuffer = c
  received : l.received = chainInit S
  sent : l.sent = chainInit S

/-- The call that completes the header starts the receive loop behind it. -/
theorem serverPostDecrypt_start {head : Bytes} {user : Bytes × Bytes} {plain c : Bytes}
    {l : Context S} {now : ℕ} {seg buf : Bytes} (hhead : head.length = 4) (huid : user.1.length = 4)
    (hkey : user.2 = info.key) (hplain : plain.length = 16) (hl : AwaitsHeader c l)
    (hclock : timeDiff now (rdLe32 plain 0) ≤ MAX_TIME_DIF)
    (hcat : c ++ seg = authHeader V S (info.recvIv ++ info.key) head user plain ++ buf) :
    ∃ l', serverPostDecrypt V S info authSuccess l (now, seg) = serverRecvLoop V S authSuccess l' true ∧
      Receiving user.2 (openSent V S (info.recvIv ++ info.key) head user plain) l'
        ((openReceived S (info.recvIv ++ info.key) head user, false), [] ++ buf) := by
  obtain ⟨hheader, rfl, hreceived, hsent⟩ := hl
  have hcat' : (appended l seg).recvBuffer =
      authHeader V S (info.recvIv ++ info.key) head user plain ++ buf := hcat
  obtain ⟨l', hread, hheader', hkey', hbuf', -, -, hreceived', hsent'⟩ :=
    readHeader_done hhead huid hkey hplain hcat' hclock
  refine ⟨l', serverPostDecrypt_done hheader hread, hheader', hkey', ?_, hbuf', ?_⟩
  · rw [hreceived', openReceived, ← hreceived]
    rfl
  · rw [hsent', openSent, ← hsent]
    rfl

/-- A call behind the header is a pass of the receive loop. -/
theorem Receiving.appended {userKey : Bytes} {sent : Chain S} {l : Context S}
    {t : (Chain S × Bool) × Bytes} (h : Receiving userKey sent l t) (seg : Bytes) :
    Receiving userKey sent (appended l seg) (t.1, t.2 ++ seg) :=
  ⟨h.header, h.userKey, h.received, congrArg (· ++ seg) h.recvBuffer, h.sent⟩

variable (V S authSuccess) in
/-- The server waits for the header and then runs its receive loop, and it returns no buffer when the
loop fails on a frame whose number is not zero, or on the assertion. -/
theorem serverPostDecrypt_prelude {head : Bytes} {user : Bytes × Bytes} {plain : Bytes}
    (hhead : head.length = 4) (huid : user.1.length = 4) (hkey : user.2 = info.key)
    (hplain : plain.length = 16) (frames : Bytes) :
    StrictPrelude Fatal (serverPostDecrypt V S info authSuccess) Prod.snd (fun r => r.1.items?)
      (serverRecvStep V S authSuccess user.2) (openReceived S (info.recvIv ++ info.key) head user, false)
      (fun call => timeDiff call.1 (rdLe32 plain 0) ≤ MAX_TIME_DIF)
      (authHeader V S (info.recvIv ++ info.key) head user plain) frames [] 36 AwaitsHeader
      (Receiving user.2 (openSent V S (info.recvIv ++ info.key) head user plain)) where
  header_le := Nat.le_of_eq (authHeader_length hhead huid)
  wait := by
    rintro c l ⟨now, seg⟩ ⟨hheader, rfl, hreceived, hsent⟩ - ⟨r, hcat⟩ hlen
    simp only [authHeader, List.append_assoc] at hcat
    rw [← List.append_assoc] at hcat
    have hread : readHeader V S info now (appended l seg) = .wait (appended l seg) :=
      readHeader_wait now hhead hcat hlen
    rw [serverPostDecrypt_wait hheader hread]
    exact ⟨⟨hheader, rfl, hreceived, hsent⟩, rfl⟩
  start := by
    rintro c l ⟨now, seg⟩ buf hl hclock hcat - hok
    obtain ⟨l', hcall, hrecv⟩ := serverPostDecrypt_start hhead huid hkey hplain hl hclock hcat
    rw [hcall]
    exact (serverRecvLoop_of_drain hrecv true rfl).1 hok
  start_halt := by
    rintro c l ⟨now, seg⟩ buf e hl hclock hcat - hstop hfatal
    obtain ⟨l', hcall, hrecv⟩ := serverPostDecrypt_start hhead huid hkey hplain hl hclock hcat
    rw [hcall]
    exact (serverRecvLoop_of_drain hrecv true rfl).2 e hstop hfatal
  next := by
    rintro l t ⟨now, seg⟩ hrecv - hok
    rw [serverPostDecrypt_open hrecv.header]
    exact (serverRecvLoop_of_drain (hrecv.appended seg) false rfl).1 hok
  next_halt := by
    rintro l t ⟨now, seg⟩ e hrecv - hstop hfatal
    rw [serverPostDecrypt_open hrecv.header]
    exact (serverRecvLoop_of_drain (hrecv.appended seg) false rfl).2 e hstop hfatal

end Server

/-! ## Segmentation -/

section Segmentation

variable (V : Variant) (S : Suite)

theorem clientUser_init {cinfo : ServerInfo} (huser : cinfo.user = none) (mss : ℕ) (d : AuthDraws) :
    clientUser S cinfo (contextInit S mss) d = (randBytes d.uid 4, cinfo.key) := by
  unfold clientUser
  rw [huser]
  rfl

theorem authHead_length (g : GlobalData) (time overhead : ℕ) :
    (authHead g time overhead).length = 16 := by
  simp only [authHead, List.length_append, window_length]
  rfl

theorem rdLe32_authHead (g : GlobalData) (time overhead : ℕ) :
    rdLe32 (authHead g time overhead) 0 = time % 4294967296 := by
  rw [authHead, rdLe32_le32_append]

variable {V S}

/-- The bytes of a connection: the header, and frames that carry the payloads. -/
theorem clientRun_first {info : ServerInfo} {mss : ℕ} (hmss : info.overhead < mss) (g : GlobalData)
    (d : SendDraws) {data : Bytes} (hdata : data ≠ []) (sends : List (SendDraws × Bytes)) :
    (clientRun V S info (g, contextInit S mss) ((d, data) :: sends)).2.flatten =
        authHeader V S (info.iv ++ info.key) (randBytes d.auth.head 4)
          (clientUser S info (contextInit S mss) d.auth)
          (authHead (nextConnection g d.auth) d.auth.time info.overhead) ++
        streamOf (clientFrames V S info (g, contextInit S mss) ((d, data) :: sends)) ∧
      Emits V
        { authContext V S info (nextConnection g d.auth) (contextInit S mss) d.auth with
          hasSentHeader := true }
        (clientRun V S info (g, contextInit S mss) ((d, data) :: sends)).1.2
        (clientFrames V S info (g, contextInit S mss) ((d, data) :: sends))
        (streamOf (clientFrames V S info (g, contextInit S mss) ((d, data) :: sends)))
        (((d, data) :: sends).map Prod.snd).flatten := by
  obtain ⟨bytes, hbytes, hcall⟩ := clientPreEncrypt_first (V := V)
    (show info.overhead < (g, contextInit S mss).2.tcpMss from hmss) rfl d hdata
  have hrest := clientRun_sent (V := V)
    (show info.overhead < (clientPreEncrypt V S info (g, contextInit S mss) d data).1.2.tcpMss by
      rw [hcall.session.tcpMss]; exact hmss) hcall.session.hasSentHeader sends
  have hall := hcall.append hrest
  have heq := hall.bytes_eq
  refine ⟨?_, rfl, hall.payload_eq, hall.linked, hall.session, hall.data_le⟩
  rw [clientRun, run_cons, List.flatten_cons, hbytes, List.append_assoc]
  exact congrArg (_ ++ ·) heq

/-- The peers after the header, in the direction towards the client. -/
structure Authenticated (sv cl : Context S) : Prop where
  userKey : sv.userKey = cl.userKey
  chain : SameChain sv.sent cl.received
  first : sv.sent.id = 1
  recvBuffer : cl.recvBuffer = []

/-- The setting of a connection: the peers share the key and the IV, the client has no user of its
own and room for a payload in a segment, and the clocks differ by at most a day. -/
structure Connected (cinfo sinfo : ServerInfo) (mss : ℕ) (sends : List (SendDraws × Bytes))
    (calls : List (ℕ × Bytes)) : Prop where
  iv : sinfo.recvIv = cinfo.iv
  key : sinfo.key = cinfo.key
  user : cinfo.user = none
  overhead_lt : cinfo.overhead < mss
  mss_lt : mss < 65536
  clock : ∀ s ∈ sends.head?, ∀ c ∈ calls, ((c.1 : ℤ) - s.1.auth.time).natAbs ≤ MAX_TIME_DIF
  sends_ne : ∀ s ∈ sends, s.2 ≠ []
  calls_ne : ∀ c ∈ calls, c.2 ≠ []

variable (V S) in
/-- The promise of the protocol: every call of the server returns a buffer, and the payloads arrive. -/
def PayloadsArrive (sinfo : ServerInfo) (authSuccess : Bool) (mss : ℕ) (calls : List (ℕ × Bytes))
    (payload : Bytes) : Prop :=
  (∀ r ∈ (run (serverPostDecrypt V S sinfo authSuccess) (contextInit S mss) calls).2, r.1.items? ≠ none) ∧
    delivered ((run (serverPostDecrypt V S sinfo authSuccess) (contextInit S mss) calls).2.map
      fun r => r.1.items?) = payload

variable {cinfo sinfo : ServerInfo} {g : GlobalData} {cmss : ℕ} {d : SendDraws} {data : Bytes}
  {sends : List (SendDraws × Bytes)} {calls : List (ℕ × Bytes)} {authSuccess : Bool}

theorem frames_data_lt {fs : List SentFrame} {l l' : Context S} {bytes payload : Bytes}
    (h : Emits V l l' fs bytes payload) (hmss : l.tcpMss < 65536) :
    ∀ f ∈ fs, 0 < f.data.length ∧ f.data.length < 65536 := by
  intro f hf
  have hle := h.data_le f hf
  omega

/-- The server as the client's stream reaches it. -/
theorem Connected.prelude (hnet : Connected cinfo sinfo cmss ((d, data) :: sends) calls)
    (frames : Bytes) :
    StrictPrelude Fatal (serverPostDecrypt V S sinfo authSuccess) Prod.snd (fun r => r.1.items?)
      (serverRecvStep V S authSuccess cinfo.key)
      (openReceived S (cinfo.iv ++ cinfo.key) (randBytes d.auth.head 4)
        (clientUser S cinfo (contextInit S cmss) d.auth), false)
      (fun call => timeDiff call.1 (d.auth.time % 4294967296) ≤ MAX_TIME_DIF)
      (authHeader V S (cinfo.iv ++ cinfo.key) (randBytes d.auth.head 4)
        (clientUser S cinfo (contextInit S cmss) d.auth)
        (authHead (nextConnection g d.auth) d.auth.time cinfo.overhead)) frames [] 36 AwaitsHeader
      (Receiving cinfo.key (openSent V S (cinfo.iv ++ cinfo.key) (randBytes d.auth.head 4)
        (clientUser S cinfo (contextInit S cmss) d.auth)
        (authHead (nextConnection g d.auth) d.auth.time cinfo.overhead))) := by
  have hkey : (randBytes d.auth.uid 4, cinfo.key).2 = sinfo.key := hnet.key.symm
  have hpre := serverPostDecrypt_prelude V S authSuccess
    (randBytes_length d.auth.head 4) (randBytes_length d.auth.uid 4) hkey
    (authHead_length (nextConnection g d.auth) d.auth.time cinfo.overhead) frames
  rw [hnet.iv, hnet.key, rdLe32_authHead] at hpre
  rw [clientUser_init S hnet.user]
  exact hpre

/-- The header of the client's stream. -/
theorem clientHeader_length (huser : cinfo.user = none) (mss : ℕ) :
    (authHeader V S (cinfo.iv ++ cinfo.key) (randBytes d.auth.head 4)
      (clientUser S cinfo (contextInit S mss) d.auth)
      (authHead (nextConnection g d.auth) d.auth.time cinfo.overhead)).length = 36 := by
  refine authHeader_length (randBytes_length _ _) ?_
  rw [clientUser_init S huser]
  exact randBytes_length _ _

theorem authContext_userKey (g : GlobalData) (huser : cinfo.user = none) (mss : ℕ) (d : AuthDraws) :
    (authContext V S cinfo g (contextInit S mss) d).userKey = cinfo.key :=
  congrArg Prod.snd (clientUser_init S huser mss d)

/-- Frames that fit, cut where the receive loop does not misread a length: everything arrives, and
the peers are ready for the other direction. -/
theorem serverPostDecrypt_run_complete (smss : ℕ)
    (hnet : Connected cinfo sinfo cmss ((d, data) :: sends) calls)
    (hcat : (calls.map Prod.snd).flatten =
      (clientRun V S cinfo (g, contextInit S cmss) ((d, data) :: sends)).2.flatten)
    (hfits : ∀ f ∈ clientFrames V S cinfo (g, contextInit S cmss) ((d, data) :: sends), Fits f)
    (hcuts : CutsOk
      (CutSafe authSuccess (clientFrames V S cinfo (g, contextInit S cmss) ((d, data) :: sends)))
      (calls.map Prod.snd)) :
    PayloadsArrive V S sinfo authSuccess smss calls (((d, data) :: sends).map Prod.snd).flatten ∧
      Authenticated (run (serverPostDecrypt V S sinfo authSuccess) (contextInit S smss) calls).1
        (clientRun V S cinfo (g, contextInit S cmss) ((d, data) :: sends)).1.2 := by
  obtain ⟨hstream, hemits⟩ := clientRun_first (V := V) (S := S) hnet.overhead_lt g d
    (hnet.sends_ne (d, data) (by simp)) sends
  generalize clientFrames V S cinfo (g, contextInit S cmss) ((d, data) :: sends) = fs at *
  have hlen := clientHeader_length (V := V) (S := S) (g := g) (d := d) hnet.user cmss
  have hclock : ∀ c ∈ calls, timeDiff c.1 (d.auth.time % 4294967296) ≤ MAX_TIME_DIF :=
    fun c hc => timeDiff_le (by decide) (hnet.clock (d, data) (by simp) c hc)
  have huserKey := authContext_userKey (V := V) (S := S) (nextConnection g d.auth) hnet.user cmss d.auth
  have hlinked := hemits.linked
  rw [huserKey] at hlinked
  obtain ⟨out, s', z, hp, hall⟩ := hlinked.parses_accepts (frames_data_lt hemits hnet.mss_lt) authSuccess
    (fun _ => True) trivial (fun _ _ => trivial)
  obtain ⟨rfl, rfl, rfl⟩ := hall hfits
  have hwait : AwaitsHeader [] (contextInit S smss) := ⟨rfl, rfl, rfl, rfl⟩
  obtain ⟨s₂, hR, -, hnone, hout⟩ := (hnet.prelude (V := V) (S := S) (g := g) (streamOf fs)).run_complete
    hwait (by decide) hclock (hcat.trans hstream) (by rw [List.length_append]; omega) hp
    ⟨rfl, rfl, rfl⟩ (hcuts.mono fun _ => accepts_of_fits hfits)
  refine ⟨⟨hnone, ?_⟩, ?_, ?_, ?_, ?_⟩
  · rw [hout]
    exact hemits.payload_eq
  · rw [hR.userKey, hemits.session.userKey]
    exact huserKey.symm
  · rw [hR.sent, hemits.session.received]
    exact ⟨rfl, rfl, rfl⟩
  · rw [hR.sent]
    rfl
  · rw [hemits.session.recvBuffer]
    rfl

/-- Any other frame, and any other cut, leaves a call of the server without a buffer. -/
theorem serverPostDecrypt_run_fails (smss : ℕ)
    (hnet : Connected cinfo sinfo cmss ((d, data) :: sends) calls)
    (hcat : (calls.map Prod.snd).flatten =
      (clientRun V S cinfo (g, contextInit S cmss) ((d, data) :: sends)).2.flatten)
    (hids : ∀ f ∈ clientFrames V S cinfo (g, contextInit S cmss) ((d, data) :: sends), f.id ≠ 0)
    (hcuts : ¬ CutsOk
      (Accepts authSuccess (clientFrames V S cinfo (g, contextInit S cmss) ((d, data) :: sends)))
      (calls.map Prod.snd)) :
    ∃ r ∈ (run (serverPostDecrypt V S sinfo authSuccess) (contextInit S smss) calls).2,
      r.1.items? = none := by
  obtain ⟨hstream, hemits⟩ := clientRun_first (V := V) (S := S) hnet.overhead_lt g d
    (hnet.sends_ne (d, data) (by simp)) sends
  generalize clientFrames V S cinfo (g, contextInit S cmss) ((d, data) :: sends) = fs at *
  have hlen := clientHeader_length (V := V) (S := S) (g := g) (d := d) hnet.user cmss
  have hclock : ∀ c ∈ calls, timeDiff c.1 (d.auth.time % 4294967296) ≤ MAX_TIME_DIF :=
    fun c hc => timeDiff_le (by decide) (hnet.clock (d, data) (by simp) c hc)
  have huserKey := authContext_userKey (V := V) (S := S) (nextConnection g d.auth) hnet.user cmss d.auth
  have hlinked := hemits.linked
  rw [huserKey] at hlinked
  have hfatal : ∀ f ∈ fs, Fatal (.invalid (f.id == 0)) :=
    fun f hf => .inl (congrArg ServerError.invalid (by simpa using hids f hf))
  obtain ⟨out, s', z, hp, -⟩ := hlinked.parses_accepts (frames_data_lt hemits hnet.mss_lt) authSuccess Fatal
    (.inr rfl) hfatal
  have hwait : AwaitsHeader [] (contextInit S smss) := ⟨rfl, rfl, rfl, rfl⟩
  refine (hnet.prelude (V := V) (S := S) (g := g) (streamOf fs)).run_fails hwait hclock
    (hcat.trans hstream) hp ⟨rfl, rfl, rfl⟩ ?_ hcuts
  intro n hn
  rw [List.length_append] at hn
  exact accepts_of_le (by omega)

/-- A frame has at least four bytes. -/
theorem Linked.frame_length {userKey : Bytes} {c c' : Chain S} {fs : List SentFrame}
    (h : Linked V S userKey c fs c') : ∀ f ∈ fs, 4 ≤ f.bytes.length := by
  induction h with
  | nil => simp
  | @cons c c' fs pad data _ ih =>
      have hlen := packFrame_length (V := V) userKey c pad data
      rw [List.forall_mem_cons]
      exact ⟨Nat.le_trans (by omega) (Nat.le_of_eq hlen.symm), ih⟩

theorem packFrame_length_lt (V : Variant) (userKey : Bytes) (c : Chain S) (pad : ℕ → UInt8) (data : Bytes) :
    (packFrame V S userKey c pad data).2.length < data.length + 1444 := by
  have hlen := packFrame_length (V := V) userKey c pad data
  have hpad := V.randLen_lt data.length c.random c.hash
  unfold randLen at hlen
  omega

/-! ## The client's arrays -/

section Arrays

variable (V S)

/-- The length of what a call writes: the header, if it is still to be sent, and its frames. -/
def callLength (info : ServerInfo) (st : GlobalData × Context S) (d : SendDraws) (data : Bytes) : ℕ :=
  (if 0 < data.length ∧ st.2.hasSentHeader = false then 36 else 0) +
    (streamOf (callFrames V S info st d data)).length

/-- Every call stays inside `out_buffer`. -/
def InOutBuffer (info : ServerInfo) (st : GlobalData × Context S) (sends : List (SendDraws × Bytes)) : Prop :=
  Along (fun st s => callLength V S info st s.1 s.2 ≤ outBufferSize s.2.length)
    (fun st s => clientPreEncrypt V S info st s.1 s.2) st sends

/-- The client's calls in their arrays. -/
def clientRunChecked (info : ServerInfo) (st : GlobalData × Context S) (sends : List (SendDraws × Bytes)) :
    Option ((GlobalData × Context S) × List Bytes) :=
  runChecked (fun st s => clientPreEncryptChecked V S info st s.1 s.2) st sends

variable {V S}

theorem clientRunChecked_cons {info : ServerInfo} {st : GlobalData × Context S} {d : SendDraws} {data : Bytes}
    (hlen : (clientPreEncrypt V S info st d data).2.length = callLength V S info st d data)
    (sends : List (SendDraws × Bytes)) :
    (clientRunChecked V S info st ((d, data) :: sends)).isSome = true ↔
      (0 < data.length ∧ st.2.hasSentHeader = false → KeyFits info) ∧
        callLength V S info st d data ≤ outBufferSize data.length ∧
        (clientRunChecked V S info (clientPreEncrypt V S info st d data).1 sends).isSome = true := by
  have hcall : clientPreEncryptChecked V S info st d data =
      if 0 < data.length ∧ st.2.hasSentHeader = false ∧ ¬ KeyFits info then none
      else if outBufferSize data.length < callLength V S info st d data then none
      else some (clientPreEncrypt V S info st d data) := by
    rw [← hlen]
    rfl
  unfold clientRunChecked
  split_ifs at hcall with hkey hroom
  · rw [runChecked_cons_none hcall]
    exact iff_of_false nofun fun h => hkey.2.2 (h.1 ⟨hkey.1, hkey.2.1⟩)
  · rw [runChecked_cons_none hcall]
    exact iff_of_false nofun fun h => Nat.not_le.2 hroom h.2.1
  · have hfits : 0 < data.length ∧ st.2.hasSentHeader = false → KeyFits info := by
      intro hfirst
      by_contra hbad
      exact hkey ⟨hfirst.1, hfirst.2, hbad⟩
    rw [isSome_runChecked_cons hcall, and_iff_right hfits, and_iff_right (Nat.not_lt.1 hroom)]

/-- Behind the header. -/
theorem clientRunChecked_sent {info : ServerInfo} {st : GlobalData × Context S}
    (hmss : info.overhead < st.2.tcpMss) (hsent : st.2.hasSentHeader = true) (sends : List (SendDraws × Bytes)) :
    (clientRunChecked V S info st sends).isSome = true ↔ InOutBuffer V S info st sends := by
  induction sends generalizing st with
  | nil => exact iff_of_true rfl trivial
  | cons s sends ih =>
      have hcall := clientPreEncrypt_sent (V := V) hmss hsent s.1 s.2
      have hfirst : ¬ (0 < s.2.length ∧ st.2.hasSentHeader = false) := by simp [hsent]
      have hlen : (clientPreEncrypt V S info st s.1 s.2).2.length = callLength V S info st s.1 s.2 := by
        rw [callLength, if_neg hfirst, Nat.zero_add, hcall.bytes_eq]
      have hrest := @ih (clientPreEncrypt V S info st s.1 s.2).1
        (by rw [hcall.session.tcpMss]; exact hmss) (hcall.session.hasSentHeader.trans hsent)
      rw [clientRunChecked_cons hlen, hrest]
      exact and_iff_right fun h => absurd h hfirst

/-- The calls of a connection stay inside their arrays when the key and the frames do. -/
theorem clientRunChecked_iff {info : ServerInfo} {mss : ℕ} (hmss : info.overhead < mss)
    (huser : info.user = none) (g : GlobalData) {sends : List (SendDraws × Bytes)}
    (hne : ∀ s ∈ sends, s.2 ≠ []) :
    (clientRunChecked V S info (g, contextInit S mss) sends).isSome = true ↔
      (sends ≠ [] → KeyFits info) ∧ InOutBuffer V S info (g, contextInit S mss) sends := by
  cases sends with
  | nil => exact iff_of_true rfl ⟨fun h => absurd rfl h, trivial⟩
  | cons s sends =>
      obtain ⟨bytes, hbytes, hcall⟩ := clientPreEncrypt_first (V := V)
        (show info.overhead < (g, contextInit S mss).2.tcpMss from hmss) rfl s.1 (hne s List.mem_cons_self)
      have hfirst : 0 < s.2.length ∧ (g, contextInit S mss).2.hasSentHeader = false :=
        ⟨List.length_pos_iff.2 (hne s List.mem_cons_self), rfl⟩
      have hlen : (clientPreEncrypt V S info (g, contextInit S mss) s.1 s.2).2.length =
          callLength V S info (g, contextInit S mss) s.1 s.2 := by
        rw [callLength, if_pos hfirst, hbytes, List.length_append, clientHeader_length huser, hcall.bytes_eq]
      have hopen : info.overhead < (clientPreEncrypt V S info (g, contextInit S mss) s.1 s.2).1.2.tcpMss := by
        rw [hcall.session.tcpMss]
        exact hmss
      have hrest := clientRunChecked_sent (V := V) hopen hcall.session.hasSentHeader sends
      rw [clientRunChecked_cons hlen, hrest, imp_iff_right hfirst, imp_iff_right (List.cons_ne_nil _ _)]
      exact Iff.rfl

end Arrays

/-! ## Connections -/

/-- What a peer of the connection computes with. -/
def Protocol.tables (p : Protocol) (info : ServerInfo) (extraParam : Bytes) (time : ℕ) : Variant :=
  p.variant info.key info.overhead time (keyChangeInterval extraParam)

/-- A connection of a client: its protocol with the parameter and the time of its lists, its settings, what
it sends, and how it is received. -/
structure Connection (S : Suite) where
  protocol : Protocol
  extraParam : Bytes
  time : ℕ
  cinfo : ServerInfo
  sinfo : ServerInfo
  global : GlobalData
  cmss : ℕ
  smss : ℕ
  authSuccess : Bool
  sends : List (SendDraws × Bytes)
  calls : List (ℕ × Bytes)

namespace Connection

variable (n : Connection S)

def variant : Variant := n.protocol.tables n.cinfo n.extraParam n.time

/-- The client before its first call. -/
def start : GlobalData × Context S := (n.global, contextInit S n.cmss)

def frames : List SentFrame := clientFrames n.variant S n.cinfo n.start n.sends

/-- The bytes that the client sends are cut into the segments that the server receives. -/
def Cut : Prop :=
  (n.calls.map Prod.snd).flatten = (clientRun n.variant S n.cinfo n.start n.sends).2.flatten

/-- The lists are set up, no call of the client leaves its arrays, every call of the server returns a buffer,
and the payloads arrive. -/
structure Delivers : Prop where
  lists : ∃ L, n.protocol.setServerInfo n.cinfo.key n.extraParam n.time = some L
  sent : (clientRunChecked n.variant S n.cinfo n.start n.sends).isSome = true
  arrived : PayloadsArrive n.variant S n.sinfo n.authSuccess n.smss n.calls (n.sends.map Prod.snd).flatten

/-- The key fits the lists of auth_chain_f and the client's arrays, the frames of a call fit into
`out_buffer`, every frame carries less than 4096 bytes, and no segment ends behind a first byte that is
misread. -/
structure Sound : Prop where
  lists : n.protocol = .f → 8 ≤ n.cinfo.key.length ∧ n.cinfo.key.length ≤ 16
  key : n.sends ≠ [] → KeyFits n.cinfo
  outBuffer : InOutBuffer n.variant S n.cinfo n.start n.sends
  fits : ∀ f ∈ n.frames, Fits f
  cuts : CutsOk (CutSafe n.authSuccess n.frames) (n.calls.map Prod.snd)

end Connection

/-- The payloads arrive when every frame carries less than 4096 bytes and no segment ends behind a first byte
that is misread; and, as long as the frame counter has not wrapped around to zero, only then. -/
theorem payloadsArrive_iff (V : Variant) (S : Suite) (cinfo sinfo : ServerInfo)
    (g : GlobalData) (cmss smss : ℕ) (authSuccess : Bool) (sends : List (SendDraws × Bytes))
    (calls : List (ℕ × Bytes)) (hnet : Connected cinfo sinfo cmss sends calls)
    (hcat : (calls.map Prod.snd).flatten =
      (clientRun V S cinfo (g, contextInit S cmss) sends).2.flatten) :
    ((∀ f ∈ clientFrames V S cinfo (g, contextInit S cmss) sends, Fits f) ∧
        CutsOk (CutSafe authSuccess (clientFrames V S cinfo (g, contextInit S cmss) sends))
          (calls.map Prod.snd) →
      PayloadsArrive V S sinfo authSuccess smss calls (sends.map Prod.snd).flatten) ∧
    ((∀ f ∈ clientFrames V S cinfo (g, contextInit S cmss) sends, f.id ≠ 0) →
      PayloadsArrive V S sinfo authSuccess smss calls (sends.map Prod.snd).flatten →
      (∀ f ∈ clientFrames V S cinfo (g, contextInit S cmss) sends, Fits f) ∧
        CutsOk (CutSafe authSuccess (clientFrames V S cinfo (g, contextInit S cmss) sends))
          (calls.map Prod.snd)) := by
  cases sends with
  | nil =>
      have hnil : calls.map Prod.snd = [] := by
        refine eq_nil_of_flatten_eq_nil ?_ hcat
        intro s hs
        obtain ⟨c, hc, rfl⟩ := List.mem_map.1 hs
        exact hnet.calls_ne c hc
      rw [List.map_eq_nil_iff] at hnil
      subst hnil
      exact ⟨fun _ => ⟨by simp, rfl⟩, fun _ _ => ⟨by simp [clientFrames], trivial⟩⟩
  | cons s sends =>
      obtain ⟨d, data⟩ := s
      constructor
      · rintro ⟨hfits, hcuts⟩
        exact (serverPostDecrypt_run_complete smss hnet hcat hfits hcuts).1
      · -- the first cut that is not safe, or the first frame that is too long, makes a call fail
        intro hids hdelivered
        by_contra hcond
        obtain ⟨hstream, hemits⟩ := clientRun_first (V := V) (S := S) hnet.overhead_lt g d
          (hnet.sends_ne (d, data) (by simp)) sends
        have hne : calls.map Prod.snd ≠ [] := by
          intro hnil
          rw [hnil, hstream] at hcat
          have hlen := congrArg List.length hcat
          rw [List.length_append, clientHeader_length hnet.user, List.flatten_nil, List.length_nil] at hlen
          omega
        rw [← cutsOk_accepts_iff (fun f hf => Nat.le_trans (by decide) (hemits.linked.frame_length f hf))
          hne] at hcond
        obtain ⟨r, hr, hnone⟩ := serverPostDecrypt_run_fails smss hnet hcat hids hcond
        exact hdelivered.1 r hr hnone

/-- Segmentation, client to server: the payloads arrive when the key fits, the frames of every call fit into
`out_buffer`, every frame carries less than 4096 bytes, and no segment ends after the first byte of a frame
whose second length byte has a mask of 16 or more, or, where the assertion is made, of zero if the low byte
of the length is zero; and, as long as the frame counter has not wrapped around to zero, only then. -/
theorem client_frames_delivered_iff {S : Suite} (n : Connection S)
    (hnet : Connected n.cinfo n.sinfo n.cmss n.sends n.calls) (hcut : n.Cut) :
    (n.Sound → n.Delivers) ∧ ((∀ f ∈ n.frames, f.id ≠ 0) → n.Delivers → n.Sound) := by
  have hlists := n.protocol.setServerInfo_iff n.cinfo.key n.extraParam n.time
  have hsent := clientRunChecked_iff (V := n.variant) (S := S) hnet.overhead_lt hnet.user n.global hnet.sends_ne
  have harrive := payloadsArrive_iff n.variant S n.cinfo n.sinfo n.global n.cmss n.smss n.authSuccess n.sends
    n.calls hnet hcut
  constructor
  · intro h
    exact ⟨hlists.2 h.lists, hsent.2 ⟨h.key, h.outBuffer⟩, harrive.1 ⟨h.fits, h.cuts⟩⟩
  · intro hids h
    obtain ⟨hfits, hcuts⟩ := harrive.2 hids h.arrived
    obtain ⟨hkey, hroom⟩ := hsent.1 h.sent
    exact ⟨hlists.1 h.lists, hkey, hroom, hfits, hcuts⟩

/-! ## A sample connection -/

def sampleInfo : ServerInfo :=
  ⟨(List.range 16).map UInt8.ofNat, (List.range 16).map UInt8.ofNat,
    (List.range 32).map fun i => UInt8.ofNat (5 * i), 4, none⟩

def sampleDraws : SendDraws := ⟨⟨fun _ => 7, 1500000000, fun _ => 1, fun _ => 2, 3⟩, fun _ _ => 9⟩

def sampleGlobal : GlobalData := ⟨List.replicate 4 1, 77⟩

def sampleStart : GlobalData × Context suite := (sampleGlobal, contextInit suite 1460)

def sampleStream : Bytes :=
  (clientRun authChainA suite sampleInfo sampleStart [(sampleDraws, [1, 2, 3])]).2.flatten

def sampleCalls (n : ℕ) : List (ℕ × Bytes) :=
  [(1500000010, sampleStream.take n), (1500000020, sampleStream.drop n)]

/-- The only frame of the sample. -/
def sampleFrame : SentFrame :=
  sentFrame authChainA suite sampleInfo.key
    (openReceived suite (sampleInfo.iv ++ sampleInfo.key) [7, 7, 7, 7] ([1, 1, 1, 1], sampleInfo.key))
    (fun _ => 9) [1, 2, 3]

theorem sampleFrames :
    clientFrames authChainA suite sampleInfo sampleStart [(sampleDraws, [1, 2, 3])] = [sampleFrame] :=
  rfl

theorem sampleStream_length : sampleStream.length = 36 + sampleFrame.bytes.length := by
  obtain ⟨hstream, -⟩ := clientRun_first (V := authChainA) (S := suite)
    (show sampleInfo.overhead < 1460 by decide) sampleGlobal sampleDraws
    (show ([1, 2, 3] : Bytes) ≠ [] by simp) []
  have hlen := congrArg List.length hstream
  rw [List.length_append, clientHeader_length rfl] at hlen
  refine hlen.trans (congrArg (36 + ·) ?_)
  exact congrArg List.length (List.append_nil sampleFrame.bytes)

theorem sampleFrame_length : 4 < sampleFrame.bytes.length := by
  have hlen := packFrame_length (V := authChainA) sampleInfo.key
    (openReceived suite (sampleInfo.iv ++ sampleInfo.key) [7, 7, 7, 7] ([1, 1, 1, 1], sampleInfo.key))
    (fun _ => 9) [1, 2, 3]
  rw [List.length_cons] at hlen
  exact Nat.lt_of_lt_of_eq (by omega) hlen.symm

theorem sampleCalls_connected {n : ℕ} (hpos : 0 < n) (hn : n < 40) :
    Connected sampleInfo sampleInfo 1460 [(sampleDraws, [1, 2, 3])] (sampleCalls n) where
  iv := rfl
  key := rfl
  user := rfl
  overhead_lt := by decide
  mss_lt := by decide
  clock := by
    intro s hs c hc
    simp only [List.head?_cons, Option.mem_def, Option.some.injEq] at hs
    subst hs
    simp only [sampleCalls, List.mem_cons, List.not_mem_nil, or_false] at hc
    rcases hc with rfl | rfl
    · show (((1500000010 : ℕ) : ℤ) - (1500000000 : ℕ)).natAbs ≤ MAX_TIME_DIF
      decide
    · show (((1500000020 : ℕ) : ℤ) - (1500000000 : ℕ)).natAbs ≤ MAX_TIME_DIF
      decide
  sends_ne := by simp
  calls_ne := by
    have hlen := sampleStream_length
    have hframe := sampleFrame_length
    intro c hc
    refine List.length_pos_iff.1 ?_
    simp only [sampleCalls, List.mem_cons, List.not_mem_nil, or_false] at hc
    rcases hc with rfl | rfl <;> simp only [List.length_take, List.length_drop] <;> omega

theorem sampleCalls_flatten (n : ℕ) : ((sampleCalls n).map Prod.snd).flatten = sampleStream := by
  simp only [sampleCalls, List.map_cons, List.map_nil, List.flatten_cons, List.flatten_nil,
    List.append_nil, List.take_append_drop]

def sampleConnection (n : ℕ) : Connection suite where
  protocol := .a
  extraParam := []
  time := 1500000000
  cinfo := sampleInfo
  sinfo := sampleInfo
  global := sampleGlobal
  cmss := 1460
  smss := 1460
  authSuccess := true
  sends := [(sampleDraws, [1, 2, 3])]
  calls := sampleCalls n

theorem sampleConnection_outBuffer (n : ℕ) :
    InOutBuffer authChainA suite (sampleConnection n).cinfo (sampleConnection n).start
      (sampleConnection n).sends := by
  refine ⟨?_, trivial⟩
  have hframes : callFrames authChainA suite sampleInfo sampleStart sampleDraws [1, 2, 3] = [sampleFrame] :=
    (List.append_nil _).symm.trans sampleFrames
  have hcall : callLength authChainA suite sampleInfo sampleStart sampleDraws [1, 2, 3] =
      36 + sampleFrame.bytes.length := by
    rw [callLength, hframes, streamOf_cons, streamOf_nil, List.append_nil, if_pos ⟨by decide, rfl⟩]
  refine Nat.le_trans (Nat.le_of_eq hcall) ?_
  have hframe : sampleFrame.bytes.length < ([1, 2, 3] : Bytes).length + 1444 := packFrame_length_lt ..
  have hdata : ([1, 2, 3] : Bytes).length = 3 := rfl
  have hroom : outBufferSize ([1, 2, 3] : Bytes).length = 4102 := rfl
  rw [hroom]
  omega

/-- One payload, cut inside the header. -/
theorem client_frames_delivered_iff_sample : (sampleConnection 5).Delivers := by
  have hlen := sampleStream_length
  have hframe := sampleFrame_length
  have hcut : ∀ rest, rest + 1 ≠ sampleFrame.bytes.length → CutSafe true [sampleFrame] rest := by
    intro rest hrest
    refine ⟨fun heq => absurd heq ?_, trivial⟩
    rw [streamOf_cons, streamOf_nil, List.append_nil]
    exact hrest
  refine (client_frames_delivered_iff (sampleConnection 5) (sampleCalls_connected (by decide) (by decide))
    (sampleCalls_flatten 5)).1 ⟨nofun, fun _ => ?_, sampleConnection_outBuffer 5, ?_, ?_⟩
  · exact (by decide +kernel : KeyFits sampleInfo)
  · intro f hf
    obtain rfl := List.mem_singleton.1 hf
    exact (by decide : ([1, 2, 3] : Bytes).length < 4096)
  · refine ⟨hcut _ ?_, hcut _ ?_, trivial⟩
    · simp only [List.map_cons, List.map_nil, List.flatten_cons, List.flatten_nil, List.append_nil,
        List.length_drop]
      omega
    · simp only [List.map_nil, List.flatten_nil, List.length_nil]
      omega

/-- The same payload, cut behind the first byte of its frame: the mask of the next byte is 83. -/
theorem client_frames_not_delivered :
    Connected sampleInfo sampleInfo 1460 [(sampleDraws, [1, 2, 3])] (sampleCalls 37) ∧
      (sampleConnection 37).Cut ∧ ¬ (sampleConnection 37).Delivers := by
  have hlen := sampleStream_length
  have hmask : ¬ (byteAt sampleFrame.hash 15).toNat < 16 := by decide +kernel
  have hnet : Connected sampleInfo sampleInfo 1460 [(sampleDraws, [1, 2, 3])] (sampleCalls 37) :=
    sampleCalls_connected (by decide) (by decide)
  refine ⟨hnet, sampleCalls_flatten 37, ?_⟩
  have hids : ∀ f ∈ [sampleFrame], f.id ≠ 0 := by
    intro f hf
    obtain rfl := List.mem_singleton.1 hf
    decide
  have hcuts : ¬ CutsOk (Accepts true [sampleFrame]) ((sampleCalls 37).map Prod.snd) := by
    intro h
    refine hmask (h.1.1 ?_).1
    simp only [List.map_cons, List.map_nil, List.flatten_cons, List.flatten_nil, List.append_nil,
      List.length_drop, streamOf_cons, streamOf_nil]
    have hframe := sampleFrame_length
    omega
  obtain ⟨r, hr, hnone⟩ := serverPostDecrypt_run_fails (V := authChainA) (S := suite) (g := sampleGlobal)
    1460 hnet (sampleCalls_flatten 37) hids hcuts
  exact fun h => h.arrived.1 r hr hnone

end Segmentation

end AuthChain
end Obfs
end SsrNative
