import Mathlib.Data.List.SplitLengths
import SsrNative.Encrypt
import SsrNative.Lib.ChaCha20Poly1305
import SsrNative.Lib.KeyStream

/-!
# SodiumStream — the salsa20 family inside `ss_encrypt` and `ss_decrypt`

libsodium's functions can only start at a block boundary.  `encrypt.c` therefore keeps a byte counter
in the context, puts zero bytes for the used part of the current block in front of each call's data,
and drops them from the result.  The counter is a `uint64_t`, and chacha20-ietf is handed the low 32
bits of the block number; it ends the process when a call leads over the last block.

`relay_iff` says exactly for which calls the result is one continuous keystream on both sides.
-/

namespace SsrNative
namespace SodiumStream

open Bytes
open Lib.Segments
open Lib.KeyStream

/-- The methods from `ss_cipher_salsa20` on that are no AEAD methods. -/
inductive Method where
  | salsa20
  | chacha20
  | chacha20ietf
deriving DecidableEq

/-- `enc_iv_len` as `ssr_cipher_names.h` has it. -/
def Method.ivLen : Method → ℕ
  | .salsa20 => 8
  | .chacha20 => 8
  | .chacha20ietf => 12

def SODIUM_BLOCK_SIZE : ℕ := 64

/-- The keystream of each method under the connection's key: nonce, then byte position. -/
abbrev KeyStream := Method → Bytes → ℕ → UInt8

/-- The part of `struct enc_ctx` that these methods use. -/
structure EncCtx where
  init : Bool
  counter : ℕ
  iv : Bytes
deriving DecidableEq

/-- `enc_ctx_new_instance`: only the encrypting side draws an IV. -/
def encCtxNew (iv : Bytes) : EncCtx := ⟨false, 0, iv⟩

section Model

variable (method : Method) (ks : KeyStream)

/-- `crypto_stream_*_xor_ic`: xor with the keystream from block `ic` on. -/
def streamXorIc (m n : Bytes) (ic : ℕ) : Bytes := xorAt (ks method n) (SODIUM_BLOCK_SIZE * ic) m

/-- What the function writes when it returns. -/
def cryptoStreamXorIc (m n : Bytes) (ic : ℕ) : Bytes :=
  match method with
  | .salsa20 => streamXorIc .salsa20 ks m n ic
  | .chacha20 => streamXorIc .chacha20 ks m n ic
  | .chacha20ietf => streamXorIc .chacha20ietf ks m n (ic % 2 ^ 32)

/-- What both functions do with the data of a call once the IV is known. -/
def xorBody (ctx : EncCtx) (data : Bytes) : EncCtx × Bytes :=
  let padding := ctx.counter % SODIUM_BLOCK_SIZE
  let out := cryptoStreamXorIc method ks (List.replicate padding 0 ++ data) ctx.iv
    (ctx.counter / SODIUM_BLOCK_SIZE)
  ({ ctx with counter := (ctx.counter + data.length) % 2 ^ 64 }, out.drop padding)

/-- `ss_encrypt`: the first call puts the IV in front. -/
def ssEncrypt (ctx : EncCtx) (plain : Bytes) : EncCtx × Bytes :=
  if ctx.init then xorBody method ks ctx plain
  else
    let r := xorBody method ks { ctx with init := true, counter := 0 } plain
    (r.1, ctx.iv.take method.ivLen ++ r.2)

/-- `ss_decrypt`; `none` in the last place is a return value other than 0. -/
def ssDecrypt (s : IvCache × EncCtx) (cipher : Bytes) : (IvCache × EncCtx) × Option Bytes :=
  if s.2.init then
    let r := xorBody method ks s.2 cipher
    ((s.1, r.1), some r.2)
  else if cipher.length < method.ivLen then (s, none)
  else
    let iv := cipher.take method.ivLen
    let ctx : EncCtx := ⟨true, 0, iv⟩
    -- All three methods are behind `ss_cipher_rc4`, so the IV is always looked up.
    let seen := cacheKeyExist s.1 iv
    if seen.2 = true then ((seen.1, ctx), none)
    else
      let r := xorBody method ks ctx (cipher.drop method.ivLen)
      ((cacheInsert s.1 iv, r.1), some r.2)

/-! ## Calls that do not return -/

/-- `crypto_stream_chacha20_ietf_xor_ic` calls `sodium_misuse`.  The difference is unsigned: for more than 2^32
blocks it wraps around, and the check passes. -/
def ietfMisuse (mlen ic : ℕ) : Prop := (mlen + 63) / 64 ≤ 2 ^ 32 ∧ 2 ^ 32 - (mlen + 63) / 64 < ic

instance (mlen ic : ℕ) : Decidable (ietfMisuse mlen ic) := inferInstanceAs (Decidable (_ ∧ _))

/-- The `n` bytes of a call that starts at `counter` end the process. -/
def Misuse (counter n : ℕ) : Prop :=
  method = .chacha20ietf ∧
    ietfMisuse (counter % SODIUM_BLOCK_SIZE + n) (counter / SODIUM_BLOCK_SIZE % 2 ^ 32)

instance (counter n : ℕ) : Decidable (Misuse method counter n) := inferInstanceAs (Decidable (_ ∧ _))

def EncryptReturns (ctx : EncCtx) (plain : Bytes) : Prop :=
  ¬ Misuse method (if ctx.init = true then ctx.counter else 0) plain.length

instance (ctx : EncCtx) (plain : Bytes) : Decidable (EncryptReturns method ctx plain) :=
  inferInstanceAs (Decidable (¬ _))

def ssEncryptChecked (ctx : EncCtx) (plain : Bytes) : Option (EncCtx × Bytes) :=
  if EncryptReturns method ctx plain then some (ssEncrypt method ks ctx plain) else none

/-- A call that is refused before returns as well. -/
def DecryptReturns (s : IvCache × EncCtx) (cipher : Bytes) : Prop :=
  if s.2.init = true then ¬ Misuse method s.2.counter cipher.length
  else
    cipher.length < method.ivLen ∨ (cacheKeyExist s.1 (cipher.take method.ivLen)).2 = true ∨
      ¬ Misuse method 0 (cipher.length - method.ivLen)

instance (s : IvCache × EncCtx) (cipher : Bytes) : Decidable (DecryptReturns method s cipher) := by
  unfold DecryptReturns
  infer_instance

def ssDecryptChecked (s : IvCache × EncCtx) (cipher : Bytes) : Option ((IvCache × EncCtx) × Option Bytes) :=
  if DecryptReturns method s cipher then some (ssDecrypt method ks s cipher) else none

/-! ## One call -/

/-- The number of bytes after which the position that libsodium is given starts again at 0. -/
def Method.limit : Method → ℕ
  | .salsa20 => 2 ^ 64
  | .chacha20 => 2 ^ 64
  | .chacha20ietf => 2 ^ 38

theorem Method.limit_pos : 0 < method.limit := by
  cases method <;> decide

/-- A call of `n` bytes that starts below the limit.  For chacha20-ietf it does not lead over the limit either,
unless it is by itself so long that the check is passed. -/
def InReach (p n : ℕ) : Prop :=
  p < method.limit ∧
    (method = .chacha20ietf → p + n ≤ method.limit ∨ method.limit < p % SODIUM_BLOCK_SIZE + n)

instance (p n : ℕ) : Decidable (InReach method p n) := inferInstanceAs (Decidable (_ ∧ _))

/-- Every call that carries bytes is in reach; `p` bytes come before the first one. -/
def CallsInReach : ℕ → List ℕ → Prop
  | _, [] => True
  | p, n :: ns => (0 < n → InReach method p n) ∧ CallsInReach (p + n) ns

instance decidableCallsInReach : ∀ (p : ℕ) (ns : List ℕ), Decidable (CallsInReach method p ns)
  | _, [] => .isTrue trivial
  | p, n :: ns =>
      haveI := decidableCallsInReach (p + n) ns
      inferInstanceAs (Decidable ((0 < n → InReach method p n) ∧ CallsInReach method (p + n) ns))

/-- Every call returns. -/
def CallsReturn : ℕ → List ℕ → Prop
  | _, [] => True
  | p, n :: ns => ¬ Misuse method (p % 2 ^ 64) n ∧ CallsReturn (p + n) ns

theorem inReach_iff (p n : ℕ) :
    (0 < n → InReach method p n) ↔ (0 < n → p < method.limit) ∧ ¬ Misuse method (p % 2 ^ 64) n := by
  cases method with
  | salsa20 => simp [InReach, Misuse]
  | chacha20 => simp [InReach, Misuse]
  | chacha20ietf =>
      simp only [InReach, Misuse, ietfMisuse, Method.limit, SODIUM_BLOCK_SIZE, true_and, true_implies]
      omega

theorem callsInReach_iff (p : ℕ) (ns : List ℕ) :
    CallsInReach method p ns ↔ StartsBelow method.limit p ns ∧ CallsReturn method p ns := by
  induction ns generalizing p with
  | nil => exact iff_of_true trivial ⟨trivial, trivial⟩
  | cons n ns ih =>
      rw [CallsInReach, StartsBelow, CallsReturn, inReach_iff, ih]
      exact and_and_and_comm

/-- A context that has handled `p` bytes. -/
def ctxAt (iv : Bytes) (p : ℕ) : EncCtx := ⟨true, p % 2 ^ 64, iv⟩

@[simp] theorem ctxAt_init (iv : Bytes) (p : ℕ) : (ctxAt iv p).init = true := rfl

/-- The position at which libsodium starts when it is given block `ic`. -/
def Method.blockStart (ic : ℕ) : ℕ :=
  match method with
  | .salsa20 => SODIUM_BLOCK_SIZE * ic
  | .chacha20 => SODIUM_BLOCK_SIZE * ic
  | .chacha20ietf => SODIUM_BLOCK_SIZE * (ic % 2 ^ 32)

theorem cryptoStreamXorIc_eq (m n : Bytes) (ic : ℕ) :
    cryptoStreamXorIc method ks m n ic = xorAt (ks method n) (method.blockStart ic) m := by
  cases method <;> rfl

/-- Block number and padding together address byte `p`, as far as the counters reach. -/
theorem blockStart_add_padding (p : ℕ) :
    method.blockStart (p % 2 ^ 64 / SODIUM_BLOCK_SIZE) + p % 2 ^ 64 % SODIUM_BLOCK_SIZE =
      p % method.limit := by
  cases method <;> simp only [Method.blockStart, Method.limit, SODIUM_BLOCK_SIZE] <;> omega

theorem xorBody_ctxAt (iv : Bytes) (p : ℕ) (data : Bytes) :
    xorBody method ks (ctxAt iv p) data =
      (ctxAt iv (p + data.length), xorAt (ks method iv) (p % method.limit) data) := by
  have hctx : ctxAt iv (p + data.length) =
      { ctxAt iv p with counter := ((ctxAt iv p).counter + data.length) % 2 ^ 64 } := by
    simp [ctxAt]
  have hdrop := drop_xorAt_append (ks method iv)
    (method.blockStart (p % 2 ^ 64 / SODIUM_BLOCK_SIZE))
    (List.replicate (p % 2 ^ 64 % SODIUM_BLOCK_SIZE) 0) data
  rw [List.length_replicate, blockStart_add_padding] at hdrop
  rw [hctx, xorBody, cryptoStreamXorIc_eq, Prod.mk.injEq]
  exact ⟨rfl, hdrop⟩

theorem ssEncrypt_ctxAt (iv : Bytes) (p : ℕ) (plain : Bytes) :
    ssEncrypt method ks (ctxAt iv p) plain =
      (ctxAt iv (p + plain.length), xorAt (ks method iv) (p % method.limit) plain) := by
  rw [ssEncrypt, if_pos (ctxAt_init iv p), xorBody_ctxAt]

theorem ssDecrypt_ctxAt (cache : IvCache) (iv : Bytes) (p : ℕ) (cipher : Bytes) :
    ssDecrypt method ks (cache, ctxAt iv p) cipher =
      ((cache, ctxAt iv (p + cipher.length)),
        some (xorAt (ks method iv) (p % method.limit) cipher)) := by
  rw [ssDecrypt, if_pos (ctxAt_init iv p), xorBody_ctxAt]

/-! ## Whole runs -/

theorem run_ssEncrypt_ctxAt (iv : Bytes) (p : ℕ) (plains : List Bytes) :
    (run (ssEncrypt method ks) (ctxAt iv p) plains).2.flatten =
      xorCalls (ks method iv) method.limit p plains := by
  induction plains generalizing p with
  | nil => rfl
  | cons plain plains ih =>
      rw [run_cons, ssEncrypt_ctxAt, List.flatten_cons, ih, xorCalls]

theorem run_ssDecrypt_ctxAt (cache : IvCache) (iv : Bytes) (p : ℕ) (segs : List Bytes) :
    (∀ o ∈ (run (ssDecrypt method ks) (cache, ctxAt iv p) segs).2, o ≠ none) ∧
      delivered (run (ssDecrypt method ks) (cache, ctxAt iv p) segs).2 =
        xorCalls (ks method iv) method.limit p segs := by
  induction segs generalizing p with
  | nil => exact ⟨by simp, rfl⟩
  | cons seg segs ih =>
      rw [run_cons, ssDecrypt_ctxAt, List.forall_mem_cons, delivered_cons, xorCalls]
      exact ⟨⟨by simp, (ih _).1⟩, by rw [(ih _).2]; rfl⟩

/-- Whether a later call returns depends on its position and its length. -/
theorem along_encryptReturns (iv : Bytes) (p : ℕ) (plains : List Bytes) :
    Along (EncryptReturns method) (ssEncrypt method ks) (ctxAt iv p) plains ↔
      CallsReturn method p (plains.map List.length) := by
  induction plains generalizing p with
  | nil => exact Iff.rfl
  | cons plain plains ih =>
      have hcall : EncryptReturns method (ctxAt iv p) plain ↔ ¬ Misuse method (p % 2 ^ 64) plain.length := by
        rw [EncryptReturns, if_pos (ctxAt_init iv p)]
        rfl
      rw [Along, ssEncrypt_ctxAt, ih, hcall]
      rfl

theorem along_decryptReturns (cache : IvCache) (iv : Bytes) (p : ℕ) (segs : List Bytes) :
    Along (DecryptReturns method) (ssDecrypt method ks) (cache, ctxAt iv p) segs ↔
      CallsReturn method p (segs.map List.length) := by
  induction segs generalizing p with
  | nil => exact Iff.rfl
  | cons seg segs ih =>
      have hcall : DecryptReturns method (cache, ctxAt iv p) seg ↔
          ¬ Misuse method (p % 2 ^ 64) seg.length := by
        rw [DecryptReturns, if_pos (ctxAt_init iv p)]
        rfl
      rw [Along, ssDecrypt_ctxAt, ih, hcall]
      rfl

variable {method} {iv : Bytes}

theorem ssEncrypt_new (hiv : iv.length = method.ivLen) (plain : Bytes) :
    ssEncrypt method ks (encCtxNew iv) plain =
      (ctxAt iv plain.length, iv ++ xorAt (ks method iv) 0 plain) := by
  have hbody := xorBody_ctxAt method ks iv 0 plain
  rw [Nat.zero_add, Nat.zero_mod] at hbody
  have htake : iv.take method.ivLen = iv := List.take_of_length_le (Nat.le_of_eq hiv)
  change ((xorBody method ks (ctxAt iv 0) plain).1,
    iv.take method.ivLen ++ (xorBody method ks (ctxAt iv 0) plain).2) = _
  rw [hbody, htake]

theorem ssDecrypt_short {cache : IvCache} {old cipher : Bytes} (h : cipher.length < method.ivLen) :
    ssDecrypt method ks (cache, encCtxNew old) cipher = ((cache, encCtxNew old), none) := by
  have hinit : ¬ (encCtxNew old).init = true := by simp [encCtxNew]
  rw [ssDecrypt, if_neg hinit, if_pos h]

theorem ssDecrypt_new (hiv : iv.length = method.ivLen) {cache : IvCache} (hfresh : iv ∉ cache)
    (old cipher : Bytes) :
    ssDecrypt method ks (cache, encCtxNew old) (iv ++ cipher) =
      ((cacheInsert cache iv, ctxAt iv cipher.length), some (xorAt (ks method iv) 0 cipher)) := by
  have hbody := xorBody_ctxAt method ks iv 0 cipher
  rw [Nat.zero_add, Nat.zero_mod] at hbody
  have hinit : (encCtxNew old).init = false := rfl
  have hlong : ¬ (iv ++ cipher).length < method.ivLen := by
    rw [List.length_append]
    omega
  have hseen : (cacheKeyExist cache iv).2 = false := by simp [cacheKeyExist, hfresh]
  have hctx : (⟨true, 0, iv⟩ : EncCtx) = ctxAt iv 0 := rfl
  simp only [ssDecrypt, hinit, hlong, if_false, List.take_left' hiv, List.drop_left' hiv, hseen,
    hctx, hbody, Bool.false_eq_true]

/-- Everything a fresh encrypting context emits for its calls. -/
def wire (method : Method) (iv : Bytes) (plains : List Bytes) : Bytes :=
  (run (ssEncrypt method ks) (encCtxNew iv) plains).2.flatten

theorem wire_cons (hiv : iv.length = method.ivLen) (plain : Bytes) (plains : List Bytes) :
    wire ks method iv (plain :: plains) =
      iv ++ xorCalls (ks method iv) method.limit 0 (plain :: plains) := by
  rw [wire, run_cons, ssEncrypt_new ks hiv, List.flatten_cons, run_ssEncrypt_ctxAt, xorCalls,
    Nat.zero_mod, Nat.zero_add, List.append_assoc]

/-- What the calls give as far as they return: what was emitted is the IV and the plain text under one
continuous keystream, and a fresh decrypting context that is called with pieces of these lengths
accepts every call and gives the plain text back. -/
structure Carried (method : Method) (cache : IvCache) (iv : Bytes) (plains : List Bytes)
    (cuts : List ℕ) : Prop where
  encrypted : wire ks method iv plains =
    if plains = [] then [] else iv ++ xorAt (ks method iv) 0 plains.flatten
  accepted : ∀ o ∈ (run (ssDecrypt method ks) (cache, encCtxNew [])
    (cuts.splitLengths (wire ks method iv plains))).2, o ≠ none
  decrypted : delivered (run (ssDecrypt method ks) (cache, encCtxNew [])
    (cuts.splitLengths (wire ks method iv plains))).2 = plains.flatten

/-- The relay works for these calls: those of `ss_encrypt` return and emit the IV and the plain text under one
continuous keystream, and those of `ss_decrypt` on a fresh context, for pieces of these lengths, return,
accept every piece and give the plain text back. -/
def Relayed (method : Method) (cache : IvCache) (iv : Bytes) (plains : List Bytes) (cuts : List ℕ) : Prop :=
  ∃ up, runChecked (ssEncryptChecked method ks) (encCtxNew iv) plains = some up ∧
    up.2.flatten = (if plains = [] then [] else iv ++ xorAt (ks method iv) 0 plains.flatten) ∧
    ∃ down, runChecked (ssDecryptChecked method ks) (cache, encCtxNew []) (cuts.splitLengths up.2.flatten) =
        some down ∧
      (∀ o ∈ down.2, o ≠ none) ∧ delivered down.2 = plains.flatten

theorem relayed_iff_carried {cache : IvCache} {plains : List Bytes} {cuts : List ℕ} :
    Relayed ks method cache iv plains cuts ↔
      Along (EncryptReturns method) (ssEncrypt method ks) (encCtxNew iv) plains ∧
        Along (DecryptReturns method) (ssDecrypt method ks) (cache, encCtxNew [])
          (cuts.splitLengths (wire ks method iv plains)) ∧
        Carried ks method cache iv plains cuts := by
  have hup : ∀ up, runChecked (ssEncryptChecked method ks) (encCtxNew iv) plains = some up ↔
      Along (EncryptReturns method) (ssEncrypt method ks) (encCtxNew iv) plains ∧
        run (ssEncrypt method ks) (encCtxNew iv) plains = up :=
    fun _ => runChecked_eq_some_iff fun _ _ => rfl
  have hdown : ∀ segs down,
      runChecked (ssDecryptChecked method ks) (cache, encCtxNew []) segs = some down ↔
        Along (DecryptReturns method) (ssDecrypt method ks) (cache, encCtxNew []) segs ∧
          run (ssDecrypt method ks) (cache, encCtxNew []) segs = down :=
    fun _ _ => runChecked_eq_some_iff fun _ _ => rfl
  constructor
  · rintro ⟨up, hsent, hbytes, down, hreceived, haccepted, hplain⟩
    obtain ⟨hreturns, rfl⟩ := (hup up).1 hsent
    obtain ⟨hreturns', rfl⟩ := (hdown _ down).1 hreceived
    exact ⟨hreturns, hreturns', hbytes, haccepted, hplain⟩
  · rintro ⟨hreturns, hreturns', hcarried⟩
    exact ⟨_, (hup _).2 ⟨hreturns, rfl⟩, hcarried.encrypted, _, (hdown _ _).2 ⟨hreturns', rfl⟩,
      hcarried.accepted, hcarried.decrypted⟩

/-- A first piece that does not hold the IV is refused. -/
theorem not_carried_of_short {cache : IvCache} {plains : List Bytes} {n : ℕ} {ns : List ℕ}
    (hn : n < method.ivLen) : ¬ Carried ks method cache iv plains (n :: ns) := by
  intro h
  have hshort : ((wire ks method iv plains).take n).length < method.ivLen := by
    rw [List.length_take]
    omega
  have haccepted := h.accepted
  rw [List.splitLengths_cons, run_cons, ssDecrypt_short ks hshort, List.forall_mem_cons] at haccepted
  exact haccepted.1 rfl

/-- The first call has the IV and `k` bytes behind it. -/
theorem splitLengths_iv (hiv : iv.length = method.ivLen) (X : Bytes) (k : ℕ) (ns : List ℕ) :
    ((method.ivLen + k) :: ns).splitLengths (iv ++ X) = (iv ++ X.take k) :: ns.splitLengths (X.drop k) := by
  rw [List.splitLengths_cons, ← hiv, List.take_length_add_append, List.drop_length_add_append]

/-- Otherwise both directions are calls that xor from their position modulo the limit. -/
theorem carried_iff_xorCalls (hiv : iv.length = method.ivLen) {cache : IvCache} (hfresh : iv ∉ cache)
    (plain : Bytes) (plains : List Bytes) (k : ℕ) (ns : List ℕ) :
    Carried ks method cache iv (plain :: plains) ((method.ivLen + k) :: ns) ↔
      xorCalls (ks method iv) method.limit 0 (plain :: plains) =
          xorAt (ks method iv) 0 (plain :: plains).flatten ∧
        xorCalls (ks method iv) method.limit 0 ((k :: ns).splitLengths
            (xorCalls (ks method iv) method.limit 0 (plain :: plains))) =
          (plain :: plains).flatten := by
  have hwire := wire_cons ks hiv plain plains
  generalize hX : xorCalls (ks method iv) method.limit 0 (plain :: plains) = X at hwire ⊢
  have hsplit := splitLengths_iv hiv X k ns
  have hdec := run_ssDecrypt_ctxAt method ks (cacheInsert cache iv) iv (X.take k).length
    (ns.splitLengths (X.drop k))
  have hrun : (run (ssDecrypt method ks) (cache, encCtxNew [])
      (((method.ivLen + k) :: ns).splitLengths (wire ks method iv (plain :: plains)))).2 =
      some (xorAt (ks method iv) 0 (X.take k)) :: (run (ssDecrypt method ks)
        (cacheInsert cache iv, ctxAt iv (X.take k).length) (ns.splitLengths (X.drop k))).2 := by
    rw [hwire, hsplit, run_cons, ssDecrypt_new ks hiv hfresh]
  have hcalls : xorCalls (ks method iv) method.limit 0 ((k :: ns).splitLengths X) =
      xorAt (ks method iv) 0 (X.take k) ++ xorCalls (ks method iv) method.limit (X.take k).length
        (ns.splitLengths (X.drop k)) := by
    rw [List.splitLengths_cons, xorCalls, Nat.zero_mod, Nat.zero_add]
  -- both directions of the relay are a run of `xorCalls` behind the IV
  constructor
  · intro h
    have henc := h.encrypted
    have hplain := h.decrypted
    rw [hwire, if_neg (by simp)] at henc
    rw [hrun, delivered_cons, hdec.2] at hplain
    exact ⟨List.append_cancel_left henc, by rw [hcalls]; exact hplain⟩
  · rintro ⟨henc, hplain⟩
    refine ⟨?_, ?_, ?_⟩
    · rw [hwire, if_neg (by simp), henc]
    · rw [hrun, List.forall_mem_cons]
      exact ⟨by simp, hdec.1⟩
    · rw [hrun, delivered_cons, hdec.2, ← hplain, hcalls]
      rfl

theorem length_xorCalls (ks : ℕ → UInt8) (limit p : ℕ) (cs : List Bytes) :
    (xorCalls ks limit p cs).length = cs.flatten.length := by
  induction cs generalizing p with
  | nil => rfl
  | cons c cs ih => simp [xorCalls, ih]

/-- The number of bytes that a fresh encrypting context emits. -/
def wireLength (method : Method) (plains : List Bytes) : ℕ :=
  (if plains = [] then 0 else method.ivLen) + plains.flatten.length

/-- When the first piece is to hold the IV, the calls of both sides decide. -/
theorem carried_forall_iff (hiv : iv.length = method.ivLen) {cache : IvCache} (hfresh : iv ∉ cache)
    (plain : Bytes) (plains : List Bytes) (k : ℕ) (ns : List ℕ)
    (hsum : (k :: ns).sum = (plain :: plains).flatten.length) :
    (∀ ks, Carried ks method cache iv (plain :: plains) ((method.ivLen + k) :: ns)) ↔
      StartsBelow method.limit 0 ((plain :: plains).map List.length) ∧
        StartsBelow method.limit 0 (k :: ns) := by
  have hflat : ∀ X : Bytes, X.length = (plain :: plains).flatten.length →
      ((k :: ns).splitLengths X).flatten = X := by
    intro X hX
    exact List.flatten_splitLengths _ _ (by omega)
  have hlens : ∀ X : Bytes, X.length = (plain :: plains).flatten.length →
      ((k :: ns).splitLengths X).map List.length = k :: ns := by
    intro X hX
    exact List.map_splitLengths_length _ _ (by omega)
  constructor
  · intro h
    -- the keystream `jump` shows every call that starts behind the limit
    obtain ⟨henc, hdec⟩ :=
      (carried_iff_xorCalls (fun _ _ => jump method.limit) hiv hfresh plain plains k ns).1 (h _)
    have hX := length_xorCalls (jump method.limit) method.limit 0 (plain :: plains)
    refine ⟨startsBelow_of_xorCalls_eq method.limit_pos henc, ?_⟩
    rw [← hlens _ hX]
    refine startsBelow_of_xorCalls_eq method.limit_pos ?_
    rw [hflat _ hX, hdec, henc, xorAt_xorAt]
  · rintro ⟨hup, hdown⟩ ks
    rw [carried_iff_xorCalls ks hiv hfresh]
    have henc : xorCalls (ks method iv) method.limit 0 (plain :: plains) =
        xorAt (ks method iv) 0 (plain :: plains).flatten := xorCalls_eq hup
    have hX := length_xorAt (ks method iv) 0 (plain :: plains).flatten
    refine ⟨henc, ?_⟩
    rw [henc, xorCalls_eq (by rw [hlens _ hX]; exact hdown), hflat _ hX, xorAt_xorAt]

/-- The calls of both sides return when they are in reach of the counters. -/
theorem along_returns_iff (hiv : iv.length = method.ivLen) {cache : IvCache} (hfresh : iv ∉ cache)
    (plain : Bytes) (plains : List Bytes) (k : ℕ) (ns : List ℕ)
    (hsum : (k :: ns).sum = (plain :: plains).flatten.length) :
    Along (EncryptReturns method) (ssEncrypt method ks) (encCtxNew iv) (plain :: plains) ∧
        Along (DecryptReturns method) (ssDecrypt method ks) (cache, encCtxNew [])
          (((method.ivLen + k) :: ns).splitLengths (wire ks method iv (plain :: plains))) ↔
      CallsReturn method 0 ((plain :: plains).map List.length) ∧ CallsReturn method 0 (k :: ns) := by
  have hX := length_xorCalls (ks method iv) method.limit 0 (plain :: plains)
  rw [wire_cons ks hiv]
  generalize xorCalls (ks method iv) method.limit 0 (plain :: plains) = X at hX ⊢
  have hsplit := splitLengths_iv hiv X k ns
  have hlens : (X.take k).length :: (ns.splitLengths (X.drop k)).map List.length = k :: ns := by
    have h := List.map_splitLengths_length X (k :: ns) (by omega)
    rwa [List.splitLengths_cons, List.map_cons] at h
  have hseen : (cacheKeyExist cache iv).2 = false := by simp [cacheKeyExist, hfresh]
  have hfirst : DecryptReturns method (cache, encCtxNew []) (iv ++ X.take k) ↔
      ¬ Misuse method 0 (X.take k).length := by
    have hinit : ¬ (encCtxNew []).init = true := by simp [encCtxNew]
    have hlong : ¬ (iv ++ X.take k).length < method.ivLen := by
      rw [List.length_append]
      omega
    have hbehind : (iv ++ X.take k).length - method.ivLen = (X.take k).length := by
      rw [List.length_append, hiv, Nat.add_sub_cancel_left]
    rw [DecryptReturns, if_neg hinit, List.take_left' hiv, hseen, hbehind]
    simp only [hlong, Bool.false_eq_true, false_or]
  have hstart : EncryptReturns method (encCtxNew iv) plain ↔ ¬ Misuse method 0 plain.length := Iff.rfl
  rw [hsplit, Along, Along, ssEncrypt_new ks hiv, ssDecrypt_new ks hiv hfresh, along_encryptReturns,
    along_decryptReturns, hfirst, hstart, ← hlens, List.map_cons, CallsReturn, CallsReturn, Nat.zero_add,
    Nat.zero_add, Nat.zero_mod]

/-- The lengths of the pieces behind the IV. -/
def Method.dataCuts (method : Method) : List ℕ → List ℕ
  | [] => []
  | n :: ns => (n - method.ivLen) :: ns

/-- The relay works under every key exactly when the first call of `ss_decrypt` is given the whole
IV and the calls of both sides that carry bytes are in reach of the method's counters. -/
theorem relay_iff (hiv : iv.length = method.ivLen) {cache : IvCache} (hfresh : iv ∉ cache)
    (plains : List Bytes) (cuts : List ℕ) (hsum : cuts.sum = wireLength method plains) :
    (∀ ks, Relayed ks method cache iv plains cuts) ↔
      (∀ n ∈ cuts.head?, method.ivLen ≤ n) ∧
        CallsInReach method 0 (plains.map List.length) ∧
        CallsInReach method 0 (method.dataCuts cuts) := by
  have hivpos : 0 < method.ivLen := by
    cases method <;> decide
  simp only [relayed_iff_carried]
  cases cuts with
  | nil =>
      -- no byte was emitted, so there was no call
      have hnil : plains = [] := by
        by_contra hne
        simp only [wireLength, hne, if_false, List.sum_nil] at hsum
        omega
      subst hnil
      exact ⟨fun _ => ⟨by simp, trivial, trivial⟩, fun _ ks => ⟨trivial, trivial, rfl, by simp, rfl⟩⟩
  | cons n ns =>
      by_cases hn : n < method.ivLen
      · constructor
        · intro h
          exact absurd (h fun _ _ _ => 0).2.2 (not_carried_of_short _ hn)
        · rintro ⟨hhead, -⟩
          exact absurd (hhead n rfl) (Nat.not_le.2 hn)
      · obtain ⟨k, rfl⟩ := Nat.exists_eq_add_of_le (Nat.le_of_not_lt hn)
        cases plains with
        | nil =>
            simp only [wireLength, if_true, List.sum_cons, List.flatten_nil, List.length_nil] at hsum
            omega
        | cons plain plains =>
            have hk : (k :: ns).sum = (plain :: plains).flatten.length := by
              simp only [wireLength, List.cons_ne_nil, if_false, List.sum_cons] at hsum ⊢
              omega
            -- the IV is complete, and the calls of both sides decide
            have hcarried := carried_forall_iff hiv hfresh plain plains k ns hk
            have hreturns := fun ks => along_returns_iff ks hiv hfresh plain plains k ns hk
            have hhead : ∀ m ∈ ((method.ivLen + k) :: ns).head?, method.ivLen ≤ m := by simp
            rw [and_iff_right hhead, Method.dataCuts, Nat.add_sub_cancel_left, callsInReach_iff,
              callsInReach_iff]
            constructor
            · intro h
              have hstarts := hcarried.1 fun ks => (h ks).2.2
              have hreturn := (hreturns fun _ _ _ => 0).1 ⟨(h _).1, (h _).2.1⟩
              exact ⟨⟨hstarts.1, hreturn.1⟩, hstarts.2, hreturn.2⟩
            · rintro ⟨⟨hup, hupreturn⟩, hdown, hdownreturn⟩ ks
              obtain ⟨hsent, hreceived⟩ := (hreturns ks).2 ⟨hupreturn, hdownreturn⟩
              exact ⟨hsent, hreceived, hcarried.2 ⟨hup, hdown⟩ ks⟩

end Model

/-! ## A sample connection -/

/-- ChaCha20 with the key `0, 1, …, 31`. -/
def sampleKeyStream : KeyStream := fun _ nonce p =>
  (Lib.ChaCha20Poly1305.block ((List.range 32).map UInt8.ofNat) nonce (p / 64)).getD (p % 64) 0

def sampleIv : Bytes := (List.range 12).map UInt8.ofNat

/-- Three bytes in two calls; the receiver gets the IV with one byte and then the rest. -/
theorem relay_sample : Relayed sampleKeyStream .chacha20ietf [] sampleIv [[1, 2], [3]] [13, 2] :=
  (relay_iff (by decide) (by decide) [[1, 2], [3]] [13, 2] (by decide)).2 (by decide)
    sampleKeyStream

/-- The same bytes with four bytes of the IV in the first piece: the first call fails. -/
theorem relay_refuses_short_piece :
    ¬ Relayed sampleKeyStream .chacha20ietf [] sampleIv [[1, 2], [3]] [4, 11] :=
  fun h => not_carried_of_short sampleKeyStream (by decide) ((relayed_iff_carried sampleKeyStream).1 h).2.2

end SodiumStream
end SsrNative
