import Mathlib.Order.Lattice.Nat
import SsrNative.Obfs.AuthChainBounds
import SsrNative.Obfs.AuthChainUnits

/-!
# AuthChainOutBuffer — the scratch buffer of the auth_chain client

`auth_chain_a_client_pre_encrypt` writes its frames into a buffer of twice the length of the data
and 4096 bytes more.  The length of the padding comes out of a hash, so every frame may get the
largest one that a frame with as much data can have.
-/

namespace SsrNative
namespace Obfs
namespace AuthChain

open Bytes
open Lib.Units
open Shift128Plus

/-! ## Padding -/

/-- The largest padding of a frame with `n` bytes of data. -/
noncomputable def Variant.maxPadding (V : Variant) (n : ℕ) : ℕ :=
  sSup {len | ∃ r h, (V.getTcpRandLen n r h).2 = len}

theorem Variant.paddings_bounded (V : Variant) (n : ℕ) :
    BddAbove {len | ∃ r h, (V.getTcpRandLen n r h).2 = len} := by
  refine ⟨1440, ?_⟩
  rintro len ⟨r, h, rfl⟩
  exact Nat.le_of_lt (V.randLen_lt n r h)

theorem Variant.le_maxPadding (V : Variant) (n : ℕ) (r : Shift128Plus) (h : Bytes) :
    (V.getTcpRandLen n r h).2 ≤ V.maxPadding n := by
  refine le_csSup (V.paddings_bounded n) ?_
  exact ⟨r, h, rfl⟩

theorem Variant.exists_maxPadding (V : Variant) (n : ℕ) :
    ∃ r h, (V.getTcpRandLen n r h).2 = V.maxPadding n := by
  have hne : {len | ∃ r h, (V.getTcpRandLen n r h).2 = len}.Nonempty :=
    ⟨(V.getTcpRandLen n ⟨0, 0⟩ []).2, ⟨0, 0⟩, [], rfl⟩
  exact Nat.sSup_mem hne (V.paddings_bounded n)

theorem Variant.maxPadding_lt (V : Variant) (n : ℕ) : V.maxPadding n < 1440 := by
  obtain ⟨r, h, hmax⟩ := V.exists_maxPadding n
  exact hmax ▸ V.randLen_lt n r h

/-- `V'` gives every frame a padding that `V` may give to a frame with as much data. -/
def PadsLike (V V' : Variant) : Prop :=
  ∀ n r h, ∃ r' h', (V'.getTcpRandLen n r h).2 = (V.getTcpRandLen n r' h').2

theorem PadsLike.refl (V : Variant) : PadsLike V V := fun _ r h => ⟨r, h, rfl⟩

theorem PadsLike.le {V V' : Variant} (hlike : PadsLike V V') (n : ℕ) (r : Shift128Plus) (h : Bytes) :
    (V'.getTcpRandLen n r h).2 ≤ V.maxPadding n := by
  obtain ⟨r', h', heq⟩ := hlike n r h
  exact heq ▸ V.le_maxPadding n r' h'

/-- The outcome in which every padding is the largest one. -/
noncomputable def Variant.largest (V : Variant) : Variant where
  salt := V.salt
  getTcpRandLen n _ _ := (⟨0, 0⟩, V.maxPadding n)
  reseeds _ _ _ _ := ⟨rfl, fun _ => rfl⟩
  randLen_lt n _ _ := V.maxPadding_lt n
  randLen_of_large n _ _ hn := by
    obtain ⟨r, h, hmax⟩ := V.exists_maxPadding n
    exact hmax ▸ V.randLen_of_large n r h hn

theorem padsLike_largest (V : Variant) : PadsLike V V.largest := by
  intro n _ _
  obtain ⟨r, h, hmax⟩ := V.exists_maxPadding n
  exact ⟨r, h, hmax.symm⟩

/-! ## What is written -/

/-- The largest frame with `n` bytes of data; without data there is none. -/
noncomputable def Variant.maxFrame (V : Variant) (n : ℕ) : ℕ :=
  if n = 0 then 0 else n + V.maxPadding n + 4

/-- The most that a call writes for `n` bytes in units of `unit`, with the header if it is still to be
sent. -/
noncomputable def Variant.maxWritten (V : Variant) (sent : Bool) (unit n : ℕ) : ℕ :=
  if 0 < n ∧ sent = false then
    36 + V.maxFrame (min 1200 n) + unitsTotal V.maxFrame unit (n - min 1200 n)
  else unitsTotal V.maxFrame unit n

/-- A call of a client whose user id is set up. -/
structure ClientCall {S : Suite} (tcpMss overhead : ℕ) (sent : Bool) (n : ℕ) (info : ServerInfo)
    (st : GlobalData × Context S) (data : Bytes) : Prop where
  uid : st.2.uid.length = 4
  tcpMss : st.2.tcpMss = tcpMss
  overhead : info.overhead = overhead
  sent : st.2.hasSentHeader = sent
  length : data.length = n

theorem clientUser_uid_length {S : Suite} {l : Context S} (huid : l.uid.length = 4) (info : ServerInfo)
    (d : AuthDraws) : (clientUser S info l d).1.length = 4 := by
  unfold clientUser
  split
  · split
    · split
      · exact randBytes_length ..
      · rfl
    · exact randBytes_length ..
  · exact huid

section Written

variable {R : ℕ → ℕ → Prop} (hrefl : ∀ a, R a a)
  (hadd : ∀ {a b c d}, R a b → R c d → R (a + c) (b + d)) {V V' : Variant}
  (hpad : ∀ n r h, R (V'.getTcpRandLen n r h).2 (V.maxPadding n)) {S : Suite}

include hrefl hadd hpad

/-- If the paddings are related to the largest ones, so are the lengths of the frames. -/
theorem packClientData_length (l : Context S) (pad : ℕ → UInt8) {data : Bytes} (h : data ≠ []) :
    R (packClientData V' S l pad data).2.length (V.maxFrame data.length) := by
  have hlen : (packClientData V' S l pad data).2.length =
      data.length + (V'.getTcpRandLen data.length l.sent.random l.sent.hash).2 + 4 :=
    packFrame_length l.userKey l.sent pad data
  rw [hlen, Variant.maxFrame, if_neg fun h0 => h (List.length_eq_zero_iff.1 h0)]
  exact hadd (hadd (hrefl _) (hpad _ _ _)) (hrefl 4)

theorem packLast_length (pad : ℕ → ℕ → UInt8) (i : ℕ) (l : Context S) (data : Bytes) :
    R (packLast V' S pad i l data).2.length (V.maxFrame data.length) := by
  unfold packLast
  by_cases hpos : 0 < data.length
  · rw [if_pos hpos]
    exact packClientData_length hrefl hadd hpad l (pad i) (List.length_pos_iff.1 hpos)
  · obtain rfl : data = [] := List.length_eq_zero_iff.1 (by omega)
    rw [if_neg hpos]
    exact hrefl 0

/-- So is the length of everything that a call writes. -/
theorem clientPreEncrypt_length {tcpMss overhead n : ℕ} {sent : Bool} (hmss : overhead < tcpMss)
    {info : ServerInfo} {st : GlobalData × Context S} {data : Bytes}
    (hcall : ClientCall tcpMss overhead sent n info st data) (d : SendDraws) :
    R (clientPreEncrypt V' S info st d data).2.length (V.maxWritten sent (tcpMss - overhead) n) := by
  obtain ⟨huid, rfl, rfl, rfl, rfl⟩ := hcall
  have hunit : subSize st.2.tcpMss info.overhead = st.2.tcpMss - info.overhead :=
    subSize_of_le (Nat.le_of_lt hmss)
  -- the loop over units; in front of it stands the authentication frame, or nothing
  have hloop : ∀ (l : Context S) (rest : Bytes),
      R (packUnits V' S (st.2.tcpMss - info.overhead) d.pad (rest.length + 1) 1 l rest).2.length
        (unitsTotal V.maxFrame (st.2.tcpMss - info.overhead) rest.length) := by
    intro l rest
    rw [packUnits_eq]
    refine splitUnits_length hadd ?_ (packLast_length hrefl hadd hpad d.pad) (by omega)
      (Nat.lt_succ_self _) 1 l
    intro i l frame hlen
    exact packClientData_length hrefl hadd hpad l (d.pad i) fun hnil => by
      rw [hnil, List.length_nil] at hlen
      omega
  unfold clientPreEncrypt Variant.maxWritten
  dsimp only
  -- the first call packs at most 1200 bytes into the authentication frame
  by_cases hfirst : 0 < data.length ∧ st.2.hasSentHeader = false
  · have hhead : (data.take (min 1200 data.length)).length = min 1200 data.length :=
      List.length_take_of_le (Nat.min_le_right _ _)
    have hne : data.take (min 1200 data.length) ≠ [] := by
      intro hnil
      rw [hnil, List.length_nil] at hhead
      omega
    have hframe := packClientData_length hrefl hadd hpad
      (authContext V' S info (nextConnection st.1 d.auth) st.2 d.auth) (d.pad 0) hne
    have hrest := hloop
      { (packAuthData V' S info st.1 st.2 d (data.take (min 1200 data.length))).1.2 with
        hasSentHeader := true } (data.drop (min 1200 data.length))
    have hauth : (packAuthData V' S info st.1 st.2 d (data.take (min 1200 data.length))).2.length =
        36 + (packClientData V' S (authContext V' S info (nextConnection st.1 d.auth) st.2 d.auth)
          (d.pad 0) (data.take (min 1200 data.length))).2.length := by
      unfold packAuthData
      dsimp only
      rw [List.length_append, authHeader_length (randBytes_length ..) (clientUser_uid_length huid info _)]
    have hmss' : (packAuthData V' S info st.1 st.2 d (data.take (min 1200 data.length))).1.2.tcpMss =
        st.2.tcpMss := rfl
    rw [hhead] at hframe
    rw [List.length_drop] at hrest
    simp only [if_pos hfirst, hmss', hunit, List.length_append, hauth, List.length_drop]
    exact hadd (hadd (hrefl 36) hframe) hrest
  · simp only [if_neg hfirst, hunit, List.nil_append]
    exact hloop st.2 data

end Written

/-! ## The buffer -/

/-- Every call with `n` bytes stays inside its buffer, whatever the paddings are that `V` may give. -/
def OutBufferFits (V : Variant) (tcpMss overhead : ℕ) (sent : Bool) (n : ℕ) : Prop :=
  ∀ V', PadsLike V V' → ∀ (S : Suite) (info : ServerInfo) (st : GlobalData × Context S) (d : SendDraws)
    (data : Bytes), ClientCall tcpMss overhead sent n info st data →
      (clientPreEncrypt V' S info st d data).2.length ≤ outBufferSize n

/-- A call for every number of bytes. -/
theorem exists_clientCall (tcpMss overhead : ℕ) (sent : Bool) (n : ℕ) :
    ∃ (info : ServerInfo) (st : GlobalData × Context suite) (data : Bytes),
      ClientCall tcpMss overhead sent n info st data :=
  ⟨⟨[], [], [], overhead, none⟩, (⟨[], 0⟩, { contextInit suite tcpMss with hasSentHeader := sent }),
    List.replicate n 0, rfl, rfl, rfl, rfl, List.length_replicate ..⟩

theorem outBufferFits_iff (V : Variant) {tcpMss overhead : ℕ} (hmss : overhead < tcpMss) (sent : Bool)
    (n : ℕ) : OutBufferFits V tcpMss overhead sent n ↔
      V.maxWritten sent (tcpMss - overhead) n ≤ outBufferSize n := by
  constructor
  · intro hfits
    obtain ⟨info, st, data, hcall⟩ := exists_clientCall tcpMss overhead sent n
    have hlargest := hfits V.largest (padsLike_largest V) suite info st unitDraws data hcall
    have hlen : (clientPreEncrypt V.largest suite info st unitDraws data).2.length =
        V.maxWritten sent (tcpMss - overhead) n :=
      clientPreEncrypt_length (fun _ => rfl) (fun h h' => h ▸ h' ▸ rfl) (fun _ _ _ => rfl) hmss hcall
        unitDraws
    exact hlen ▸ hlargest
  · intro hmax V' hlike S info st d data hcall
    refine Nat.le_trans ?_ hmax
    exact clientPreEncrypt_length (R := LE.le) Nat.le_refl Nat.add_le_add (fun n r h => hlike.le n r h)
      hmss hcall d

/-! ## Units that leave enough room -/

theorem unitsTotal_maxFrame_le (V : Variant) {unit : ℕ} (hroom : V.maxPadding unit + 4 ≤ unit) (n : ℕ) :
    unitsTotal V.maxFrame unit n ≤ n * 2 + 1443 := by
  induction n using Nat.strong_induction_on with
  | h n ih =>
      by_cases hlong : unit < n
      · have hrest := ih (n - unit) (by omega)
        have hframe : V.maxFrame unit = unit + V.maxPadding unit + 4 := if_neg (by omega)
        rw [unitsTotal_long V.maxFrame (by omega) hlong, hframe]
        omega
      · have hlt := V.maxPadding_lt n
        rw [unitsTotal_short V.maxFrame (Nat.not_lt.1 hlong), Variant.maxFrame]
        split_ifs <;> omega

theorem maxWritten_le (V : Variant) {unit : ℕ} (hroom : V.maxPadding unit + 4 ≤ unit) (sent : Bool)
    (n : ℕ) : V.maxWritten sent unit n ≤ outBufferSize n := by
  unfold Variant.maxWritten outBufferSize SSR_BUFF_SIZE
  split_ifs with hfirst
  · have hhead : V.maxFrame (min 1200 n) = min 1200 n + V.maxPadding (min 1200 n) + 4 :=
      if_neg (by omega)
    have hlt := V.maxPadding_lt (min 1200 n)
    have hrest := unitsTotal_maxFrame_le V hroom (n - min 1200 n)
    omega
  · have hrest := unitsTotal_maxFrame_le V hroom n
    omega

/-- Full units only. -/
theorem unitsTotal_mul (size : ℕ → ℕ) {unit : ℕ} (hunit : 0 < unit) (k : ℕ) :
    unitsTotal size unit ((k + 1) * unit) = (k + 1) * size unit := by
  induction k with
  | zero => rw [Nat.zero_add, Nat.one_mul, Nat.one_mul, unitsTotal_short size (Nat.le_refl _)]
  | succ k ih =>
      have hmul : (k + 1 + 1) * unit = (k + 1) * unit + unit := Nat.succ_mul _ _
      have hpos : 0 < (k + 1) * unit := Nat.mul_pos (Nat.succ_pos k) hunit
      rw [unitsTotal_long size hunit (by omega), hmul, Nat.add_sub_cancel, ih, Nat.succ_mul (k + 1)]
      omega

/-- The buffer is large enough for any number of bytes exactly when a unit leaves room for the largest
padding. -/
theorem outBufferFits_all_iff (V : Variant) {tcpMss overhead : ℕ} (hmss : overhead < tcpMss) :
    (∀ sent n, OutBufferFits V tcpMss overhead sent n) ↔
      V.maxPadding (tcpMss - overhead) + 4 ≤ tcpMss - overhead := by
  constructor
  · intro hall
    by_contra hroom
    have hfits := (outBufferFits_iff V hmss true _).1
      (hall true ((4096 + 1) * (tcpMss - overhead)))
    have hframe : V.maxFrame (tcpMss - overhead) =
        tcpMss - overhead + V.maxPadding (tcpMss - overhead) + 4 := if_neg (by omega)
    rw [Variant.maxWritten, if_neg (by simp), unitsTotal_mul _ (by omega), hframe] at hfits
    unfold outBufferSize SSR_BUFF_SIZE at hfits
    omega
  · intro hroom sent n
    exact (outBufferFits_iff V hmss sent n).2 (maxWritten_le V hroom sent n)

/-! ## auth_chain_a -/

/-- The larger a frame, the smaller its largest padding. -/
theorem authChainA_maxPadding_le {n : ℕ} (h : 524 ≤ n) : authChainA.maxPadding n + 4 ≤ n := by
  obtain ⟨r, bytes, hmax⟩ := authChainA.exists_maxPadding n
  have hlen : authChainA.maxPadding n = (authChainAGetRandLen n r bytes).2 := hmax.symm
  rw [hlen]
  unfold authChainAGetRandLen classLen Shift128Plus.draw
  split_ifs with hover h1300 h900 h400
  · omega
  · have hlt := Nat.mod_lt (initFromBinDatalen bytes n).next.2.toNat (show 0 < 31 by decide)
    omega
  · have hlt := Nat.mod_lt (initFromBinDatalen bytes n).next.2.toNat (show 0 < 127 by decide)
    omega
  · have hlt := Nat.mod_lt (initFromBinDatalen bytes n).next.2.toNat (show 0 < 521 by decide)
    omega
  · omega

/-- Hashes of two bytes, each repeated, one of which makes the padding of a small frame larger than
the frame. -/
def wideHashes : List Bytes :=
  [(42, 21), (77, 20), (223, 13), (77, 113), (232, 199), (65, 72), (181, 115), (170, 31), (101, 173),
    (9, 180), (78, 208), (248, 99), (177, 181), (130, 40), (92, 3)].map fun p : UInt8 × UInt8 =>
      List.replicate 8 p.1 ++ List.replicate 8 p.2

theorem authChainA_lt_maxPadding {n : ℕ} (h : n < 524) : n < authChainA.maxPadding n + 4 := by
  have hwide : ∀ n < 524, ∃ bytes ∈ wideHashes, n < (authChainAGetRandLen n ⟨0, 0⟩ bytes).2 + 4 := by
    decide +kernel
  obtain ⟨bytes, -, hlt⟩ := hwide n h
  have hle := authChainA.le_maxPadding n ⟨0, 0⟩ bytes
  exact Nat.lt_of_lt_of_le hlt (Nat.add_le_add_right hle 4)

/-- For every protocol and every negotiated size: the frames of `n` bytes fit into the scratch buffer,
whatever their paddings are, exactly when they do with the largest ones.  They do for every number of
bytes exactly when a unit is not smaller than the rest of its largest frame, which for auth_chain_a
means that it has at least 524 bytes. -/
theorem out_buffer_iff (p : Protocol) (key : Bytes) (time keyChangeInterval : ℕ) {tcpMss overhead : ℕ}
    (hmss : overhead < tcpMss) :
    (∀ sent n, OutBufferFits (p.variant key overhead time keyChangeInterval) tcpMss overhead sent n ↔
      (p.variant key overhead time keyChangeInterval).maxWritten sent (tcpMss - overhead) n ≤
        outBufferSize n) ∧
    ((∀ sent n, OutBufferFits (p.variant key overhead time keyChangeInterval) tcpMss overhead sent n) ↔
      (p.variant key overhead time keyChangeInterval).maxPadding (tcpMss - overhead) + 4 ≤
        tcpMss - overhead) ∧
    ((∀ sent n, OutBufferFits (Protocol.a.variant key overhead time keyChangeInterval) tcpMss overhead
        sent n) ↔ 524 ≤ tcpMss - overhead) := by
  refine ⟨outBufferFits_iff _ hmss, outBufferFits_all_iff _ hmss, ?_⟩
  rw [outBufferFits_all_iff _ hmss]
  constructor
  · intro hroom
    by_contra hsmall
    have hlt := authChainA_lt_maxPadding (Nat.lt_of_not_le hsmall)
    exact absurd hroom (Nat.not_le.2 hlt)
  · exact authChainA_maxPadding_le

/-- The first call of an ordinary connection. -/
theorem out_buffer_sample : OutBufferFits authChainA 1460 9 false 5000 :=
  (out_buffer_iff .a [] 0 0 (show 9 < 1460 by decide)).2.2.2 (by decide) false 5000

/-- The smallest size that is reported to a peer, and 210 bytes: the frames are longer than the
buffer. -/
theorem out_buffer_overrun : ¬ OutBufferFits authChainA 51 9 true 210 := by
  intro hfits
  have hlen := hfits authChainA (PadsLike.refl _) (constSuite 2) ⟨[], [], [], 9, none⟩
    (⟨[], 0⟩, { contextInit (constSuite 2) 51 with hasSentHeader := true }) unitDraws
    (List.replicate 210 0) ⟨rfl, rfl, rfl, rfl, List.length_replicate ..⟩
  revert hlen
  decide +kernel

end AuthChain
end Obfs
end SsrNative
