import SsrNative.Crypto
import SsrNative.Lib.ChaCha20Poly1305
import SsrNative.Lib.Framing

/-!
# Aead — the TCP stream of the AEAD methods

`aead_encrypt` and `aead_decrypt` of `aead.c`, and the branch of `ss_decrypt` for these methods.  A
stream is a salt and then chunks, each of which seals its length and its payload under consecutive
nonces.
-/

namespace SsrNative
namespace Aead

open Bytes
open Lib.Segments
open Lib.Framing

/-! ## Data -/

/-- An AEAD method together with the master key; the laws are those of the primitive. -/
structure AeadCipher where
  key : Bytes
  keyLen : ℕ
  nonceLen : ℕ
  tagLen : ℕ
  /-- `aead_cipher_encrypt`. -/
  encrypt : (nonce skey msg : Bytes) → Bytes
  /-- `aead_cipher_decrypt`. -/
  decrypt : (nonce skey box : Bytes) → Option Bytes
  encrypt_length : ∀ n k m, (encrypt n k m).length = m.length + tagLen
  decrypt_encrypt : ∀ n k m, decrypt n k (encrypt n k m) = some m

/-- The filter of used salts (`ppbloom.c`), which is global to the process. -/
structure Bloom where
  State : Type
  check : State → Bytes → Bool
  add : State → Bytes → State

inductive CryptoResult where
  | ok
  | needMore
  | error
  deriving DecidableEq

/-- `struct aead_cipher_ctx_t`.  `init` is 1 after the salt and 2 after the first plaintext. -/
structure AeadCtx where
  init : ℕ
  salt : Bytes
  skey : Bytes
  nonce : Bytes
  chunk : Bytes

def CHUNK_SIZE_LEN : ℕ := 2

/-- `sodium_increment`: little endian, with the carry lost at the end. -/
def sodiumIncrement : Bytes → Bytes
  | [] => []
  | x :: l => if x = 255 then 0 :: sodiumIncrement l else (x + 1) :: l

/-! ## Subkeys -/

/-- The blocks `T(1)`, `T(2)`, ... of `crypto_hkdf_expand`. -/
def hkdfBlocks (prk info : Bytes) : ℕ → ℕ → Bytes → Bytes
  | 0, _, _ => []
  | n + 1, i, t =>
      let t := hmacSha1.run (t ++ info ++ [UInt8.ofNat i]) prk
      t ++ hkdfBlocks prk info n (i + 1) t

def cryptoHkdf (salt ikm info : Bytes) (okmLen : ℕ) : Bytes :=
  let prk := hmacSha1.run ikm salt
  (hkdfBlocks prk info ((okmLen + 19) / 20) 1 []).take okmLen

def SUBKEY_INFO : Bytes := ascii "ss-subkey"

def aeadCtxInit (C : AeadCipher) (salt : Bytes) : AeadCtx :=
  ⟨0, salt, [], List.replicate C.nonceLen 0, []⟩

def subkey (C : AeadCipher) (salt : Bytes) : Bytes := cryptoHkdf salt C.key SUBKEY_INFO C.keyLen

def aeadCipherCtxSetKey (C : AeadCipher) (ctx : AeadCtx) : AeadCtx :=
  { ctx with skey := subkey C ctx.salt, nonce := List.replicate C.nonceLen 0 }

/-! ## Encryption -/

/-- The bytes of one chunk. -/
def chunkBytes (C : AeadCipher) (skey nonce p : Bytes) : Bytes :=
  C.encrypt nonce skey (be16 (p.length % 16384)) ++ C.encrypt (sodiumIncrement nonce) skey p

def nextNonce (nonce : Bytes) : Bytes := sodiumIncrement (sodiumIncrement nonce)

/-- `aead_chunk_encrypt`; there is no result when its assertion on the length fails. -/
def aeadChunkEncrypt (C : AeadCipher) (ctx : AeadCtx) (p : Bytes) : AeadCtx × Option Bytes :=
  if 0x3FFF < p.length then (ctx, none)
  else ({ ctx with nonce := nextNonce ctx.nonce }, some (chunkBytes C ctx.skey ctx.nonce p))

def aeadEncrypt (C : AeadCipher) (F : Bloom) (st : AeadCtx × F.State) (plaintext : Bytes) :
    (AeadCtx × F.State) × Option Bytes :=
  if plaintext.length = 0 then (st, some plaintext)
  else if st.1.init = 0 then
    let ctx := { aeadCipherCtxSetKey C st.1 with init := 1 }
    let r := aeadChunkEncrypt C ctx plaintext
    ((r.1, F.add st.2 ctx.salt), r.2.map (ctx.salt ++ ·))
  else
    let r := aeadChunkEncrypt C st.1 plaintext
    ((r.1, st.2), r.2)

/-! ## Decryption -/

/-- `aead_chunk_decrypt` at the nonce; it takes a chunk, waits for more input or fails. -/
def aeadChunkDecrypt (C : AeadCipher) (skey nonce c : Bytes) : Peel Bytes UInt8 Unit :=
  if c.length ≤ 2 * C.tagLen + CHUNK_SIZE_LEN then .more nonce
  else
    match C.decrypt nonce skey (c.take (CHUNK_SIZE_LEN + C.tagLen)) with
    | none => .halt nonce ()
    | some lenBuf =>
        let mlen := rdBe16 lenBuf 0 % 16384
        if mlen = 0 then .halt nonce ()
        -- the length is opened again, under the same nonce, on the next attempt
        else if c.length < 2 * C.tagLen + CHUNK_SIZE_LEN + mlen then .more nonce
        else
          let body := (c.drop (CHUNK_SIZE_LEN + C.tagLen)).take (mlen + C.tagLen)
          match C.decrypt (sodiumIncrement nonce) skey body with
          | none => .halt (sodiumIncrement nonce) ()
          | some p => .took (nextNonce nonce) p (2 * C.tagLen + CHUNK_SIZE_LEN + mlen)

/-- The part of `aead_decrypt` behind the salt: the loop over the chunks and the two exits for
missing input, of which the one without plaintext reports it. -/
def decryptChunks (C : AeadCipher) (F : Bloom) (ctx : AeadCtx) (b : F.State) (ciphertext : Bytes) :
    (AeadCtx × F.State) × (CryptoResult × Bytes) :=
  let d := drain (aeadChunkDecrypt C ctx.skey) (ctx.chunk.length + 1) ctx.nonce ctx.chunk []
  match d.stop with
  -- the carried bytes were counted down but not moved
  | some _ =>
      (({ ctx with nonce := d.state, chunk := ctx.chunk.take d.rest.length }, b), (.error, ciphertext))
  | none =>
      let ctx := { ctx with nonce := d.state, chunk := d.rest }
      if d.out = [] ∧ d.rest ≠ [] then ((ctx, b), (.needMore, ciphertext))
      else if ctx.init = 1 then
        if F.check b ctx.salt = true then ((ctx, b), (.error, ciphertext))
        else (({ ctx with init := 2 }, F.add b ctx.salt), (.ok, d.out))
      else ((ctx, b), (.ok, d.out))

def aeadDecrypt (C : AeadCipher) (F : Bloom) (st : AeadCtx × F.State) (ciphertext : Bytes) :
    (AeadCtx × F.State) × (CryptoResult × Bytes) :=
  let ctx := { st.1 with chunk := st.1.chunk ++ ciphertext }
  if ctx.init = 0 then
    if ctx.chunk.length ≤ C.keyLen then ((ctx, st.2), (.needMore, ciphertext))
    else
      let ctx := { ctx with salt := ctx.chunk.take C.keyLen }
      if F.check st.2 ctx.salt = true then ((ctx, st.2), (.error, ciphertext))
      else
        let ctx := { aeadCipherCtxSetKey C ctx with init := 1, chunk := ctx.chunk.drop C.keyLen }
        decryptChunks C F ctx st.2 ciphertext
  else decryptChunks C F ctx st.2 ciphertext

/-- `ss_decrypt` for an AEAD method: missing input is no error, but leaves nothing to deliver. -/
def ssDecryptAead (C : AeadCipher) (F : Bloom) (st : AeadCtx × F.State) (cipher : Bytes) :
    (AeadCtx × F.State) × (CryptoResult × Bytes) :=
  let r := aeadDecrypt C F st cipher
  -- `buffer_compare` with a copy of the input
  if r.2.1 = .needMore ∧ r.2.2 = cipher then (r.1, (.ok, [])) else r

/-! ## One chunk -/

section Chunk

variable {C : AeadCipher}

theorem chunkBytes_length (skey nonce p : Bytes) :
    (chunkBytes C skey nonce p).length = 2 * C.tagLen + CHUNK_SIZE_LEN + p.length := by
  simp only [chunkBytes, List.length_append, C.encrypt_length, be16_length, CHUNK_SIZE_LEN]
  omega

/-- The sealed length at the front of a chunk. -/
theorem decrypt_length_of_take {skey nonce p c l : Bytes} (hp : p.length ≤ 0x3FFF)
    (hc : c ++ l = chunkBytes C skey nonce p) (hlen : CHUNK_SIZE_LEN + C.tagLen ≤ c.length) :
    ∃ lenBuf, C.decrypt nonce skey (c.take (CHUNK_SIZE_LEN + C.tagLen)) = some lenBuf ∧
      rdBe16 lenBuf 0 % 16384 = p.length := by
  refine ⟨be16 (p.length % 16384), ?_, ?_⟩
  · have hhead : (C.encrypt nonce skey (be16 (p.length % 16384))).length =
        CHUNK_SIZE_LEN + C.tagLen := by
      simp [C.encrypt_length, CHUNK_SIZE_LEN]
    have htake : c.take (CHUNK_SIZE_LEN + C.tagLen) =
        C.encrypt nonce skey (be16 (p.length % 16384)) := by
      have h := congrArg (List.take (CHUNK_SIZE_LEN + C.tagLen)) hc
      rwa [List.take_append_of_le_length hlen, chunkBytes, List.take_left' hhead] at h
    rw [htake, C.decrypt_encrypt]
  · have h := rdBe16_be16_append (p.length % 16384) []
    rw [List.append_nil] at h
    omega

theorem aeadChunkDecrypt_full {skey nonce p : Bytes} (hpos : 1 ≤ p.length)
    (hp : p.length ≤ 0x3FFF) (l : Bytes) :
    aeadChunkDecrypt C skey nonce (chunkBytes C skey nonce p ++ l) =
      .took (nextNonce nonce) p (chunkBytes C skey nonce p).length := by
  have hlen := chunkBytes_length (C := C) skey nonce p
  have hcat : chunkBytes C skey nonce p ++ [] = chunkBytes C skey nonce p := List.append_nil _
  obtain ⟨lenBuf, hdec, hmlen⟩ := decrypt_length_of_take hp hcat (by omega)
  have hhead : (C.encrypt nonce skey (be16 (p.length % 16384))).length =
      CHUNK_SIZE_LEN + C.tagLen := by
    simp [C.encrypt_length, CHUNK_SIZE_LEN]
  have hbody : ((chunkBytes C skey nonce p ++ l).drop (CHUNK_SIZE_LEN + C.tagLen)).take
      (p.length + C.tagLen) = C.encrypt (sodiumIncrement nonce) skey p := by
    rw [chunkBytes, List.append_assoc, List.drop_left' hhead]
    exact List.take_left' (C.encrypt_length _ _ _)
  rw [aeadChunkDecrypt, if_neg (by rw [List.length_append]; omega),
    List.take_append_of_le_length (by omega), hdec]
  simp only [hmlen, hbody, C.decrypt_encrypt, hlen]
  rw [if_neg (by omega), if_neg (by rw [List.length_append]; omega)]

theorem aeadChunkDecrypt_wait {skey nonce p c l : Bytes} (hpos : 1 ≤ p.length)
    (hp : p.length ≤ 0x3FFF) (hc : c ++ l = chunkBytes C skey nonce p) (hl : l ≠ []) :
    aeadChunkDecrypt C skey nonce c = .more nonce := by
  have hlen := congrArg List.length hc
  rw [List.length_append, chunkBytes_length] at hlen
  have hlpos := List.length_pos_iff.2 hl
  rw [aeadChunkDecrypt]
  split
  · rfl
  · -- the length is there, the payload is not
    obtain ⟨lenBuf, hdec, hmlen⟩ := decrypt_length_of_take hp hc (by omega)
    simp only [hdec, hmlen]
    rw [if_neg (by omega), if_pos (by omega)]

/-! ## A stream of chunks -/

/-- The chunks of a sequence of plaintexts, and the nonce behind them. -/
def chunkStream (C : AeadCipher) (skey : Bytes) : Bytes → List Bytes → Bytes × Bytes
  | nonce, [] => ([], nonce)
  | nonce, p :: ps =>
      let r := chunkStream C skey (nextNonce nonce) ps
      (chunkBytes C skey nonce p ++ r.1, r.2)

/-- A plaintext that one chunk can carry. -/
def ChunkSized (p : Bytes) : Prop := 1 ≤ p.length ∧ p.length ≤ 0x3FFF

theorem chunkStream_parses (skey nonce : Bytes) {ps : List Bytes} (hps : ∀ p ∈ ps, ChunkSized p) :
    Parses (aeadChunkDecrypt C skey) Eq (fun _ => True) (fun _ => True) nonce (chunkStream C skey nonce ps).1
      ps.flatten (chunkStream C skey nonce ps).2 [] := by
  induction ps generalizing nonce with
  | nil =>
      refine .rest (waits_nil trivial ?_)
      rintro s₀ rfl
      exact ⟨s₀, by simp [aeadChunkDecrypt], rfl⟩
  | cons p ps ih =>
      obtain ⟨hpos, hmax⟩ := hps p (by simp)
      have hrest := ih (nextNonce nonce) fun q hq => hps q (List.mem_cons_of_mem _ hq)
      have hne : chunkBytes C skey nonce p ≠ [] := by
        have hlen := chunkBytes_length (C := C) skey nonce p
        rintro h
        rw [h, List.length_nil] at hlen
        omega
      refine .frame hne (takes_of_waits ?_ ?_) hrest
      · rintro s₀ rfl l
        exact ⟨_, aeadChunkDecrypt_full hpos hmax l, rfl⟩
      · rintro s₀ rfl c l hc hl
        exact ⟨_, aeadChunkDecrypt_wait hpos hmax hc hl, rfl⟩

end Chunk

/-! ## The decrypting side -/

section Decrypt

variable {C : AeadCipher} {F : Bloom}

/-- Between two calls behind the salt: the context holds this subkey, and its salt is still unused
as long as no plaintext has been returned. -/
structure Opened (skey : Bytes) (st : AeadCtx × F.State) (t : Bytes × Bytes) : Prop where
  init : st.1.init ≠ 0
  skey : st.1.skey = skey
  nonce : st.1.nonce = t.1
  chunk : st.1.chunk = t.2
  fresh : st.1.init = 1 → F.check st.2 st.1.salt = false

/-- What `ss_decrypt` makes of a result of `aead_decrypt`. -/
def ssResult (F : Bloom) (cipher : Bytes) (r : (AeadCtx × F.State) × (CryptoResult × Bytes)) :
    (AeadCtx × F.State) × (CryptoResult × Bytes) :=
  if r.2.1 = .needMore ∧ r.2.2 = cipher then (r.1, (.ok, [])) else r

@[simp] theorem ssResult_needMore (st : AeadCtx × F.State) (cipher : Bytes) :
    ssResult F cipher (st, (.needMore, cipher)) = (st, (.ok, [])) := by
  simp [ssResult]

@[simp] theorem ssResult_ok (st : AeadCtx × F.State) (cipher out : Bytes) :
    ssResult F cipher (st, (.ok, out)) = (st, (.ok, out)) := by
  simp [ssResult]

theorem ssDecryptAead_eq (st : AeadCtx × F.State) (cipher : Bytes) :
    ssDecryptAead C F st cipher = ssResult F cipher (aeadDecrypt C F st cipher) := rfl

/-- Behind the salt a call is a pass of the receive loop over the carried bytes. -/
theorem decryptChunks_opened {skey : Bytes} {ctx : AeadCtx} {b : F.State} {nonce buf : Bytes}
    (h : Opened skey (ctx, b) (nonce, buf)) (cipher : Bytes) {d : Drained Bytes UInt8 UInt8 Unit}
    (hd : drain (aeadChunkDecrypt C skey) (buf.length + 1) nonce buf [] = d) (hok : d.stop = none) :
    Opened skey (ssResult F cipher (decryptChunks C F ctx b cipher)).1 (d.state, d.rest) ∧
      (ssResult F cipher (decryptChunks C F ctx b cipher)).2 = (.ok, d.out) := by
  obtain ⟨init, salt, skey', nonce', chunk⟩ := ctx
  obtain ⟨hinit, hskey, hnonce, hchunk, hfresh⟩ := h
  dsimp only at hinit hskey hnonce hchunk hfresh
  subst hskey hnonce hchunk
  by_cases hwait : d.out = [] ∧ d.rest ≠ []
  · have hres : decryptChunks C F ⟨init, salt, skey', nonce', chunk⟩ b cipher =
        ((⟨init, salt, skey', d.state, d.rest⟩, b), (.needMore, cipher)) := by
      simp only [decryptChunks, hd, hok, if_pos hwait]
    rw [hres, hwait.1, ssResult_needMore]
    exact ⟨⟨hinit, rfl, rfl, rfl, hfresh⟩, rfl⟩
  · by_cases hone : init = 1
    · -- the first plaintext: the salt becomes a used one
      have hres : decryptChunks C F ⟨init, salt, skey', nonce', chunk⟩ b cipher =
          ((⟨2, salt, skey', d.state, d.rest⟩, F.add b salt), (.ok, d.out)) := by
        simp only [decryptChunks, hd, hok, if_neg hwait, hone, if_true, hfresh hone,
          Bool.false_eq_true, if_false]
      rw [hres, ssResult_ok]
      exact ⟨⟨by simp, rfl, rfl, rfl, by simp⟩, rfl⟩
    · have hres : decryptChunks C F ⟨init, salt, skey', nonce', chunk⟩ b cipher =
          ((⟨init, salt, skey', d.state, d.rest⟩, b), (.ok, d.out)) := by
        simp only [decryptChunks, hd, hok, if_neg hwait, if_neg hone]
      rw [hres, ssResult_ok]
      exact ⟨⟨hinit, rfl, rfl, rfl, fun h => absurd h hone⟩, rfl⟩

theorem ssDecryptAead_opened {skey : Bytes} {st : AeadCtx × F.State} {t : Bytes × Bytes}
    (h : Opened skey st t) (seg : Bytes)
    (hok : (feed (aeadChunkDecrypt C skey) t seg).2.2 = none) :
    Opened skey (ssDecryptAead C F st seg).1 (feed (aeadChunkDecrypt C skey) t seg).1 ∧
      (ssDecryptAead C F st seg).2 = (.ok, (feed (aeadChunkDecrypt C skey) t seg).2.1) := by
  have hcall : aeadDecrypt C F st seg =
      decryptChunks C F { st.1 with chunk := st.1.chunk ++ seg } st.2 seg := by
    simp [aeadDecrypt, h.init]
  have hopen : Opened skey ({ st.1 with chunk := st.1.chunk ++ seg }, st.2) (t.1, t.2 ++ seg) :=
    ⟨h.init, h.skey, h.nonce, by rw [h.chunk], h.fresh⟩
  rw [ssDecryptAead_eq, hcall]
  exact decryptChunks_opened hopen seg rfl hok

/-- The call that completes the salt is a first pass over what follows the salt. -/
theorem ssDecryptAead_salt {ctx : AeadCtx} {b : F.State} {seg salt buf : Bytes}
    (hinit : ctx.init = 0) (hsalt : salt.length = C.keyLen) (hfresh : F.check b salt = false)
    (hbuf : buf ≠ []) (hcat : ctx.chunk ++ seg = salt ++ buf)
    (hok : (feed (aeadChunkDecrypt C (subkey C salt)) (List.replicate C.nonceLen 0, []) buf).2.2 =
      none) :
    Opened (subkey C salt) (ssDecryptAead C F (ctx, b) seg).1
        (feed (aeadChunkDecrypt C (subkey C salt)) (List.replicate C.nonceLen 0, []) buf).1 ∧
      (ssDecryptAead C F (ctx, b) seg).2 =
        (.ok, (feed (aeadChunkDecrypt C (subkey C salt)) (List.replicate C.nonceLen 0, []) buf).2.1) := by
  have hpos := List.length_pos_iff.2 hbuf
  have hlong : ¬ (salt ++ buf).length ≤ C.keyLen := by
    rw [List.length_append]
    omega
  have htake : (salt ++ buf).take C.keyLen = salt := List.take_left' hsalt
  have hdrop : (salt ++ buf).drop C.keyLen = buf := List.drop_left' hsalt
  have hcall : aeadDecrypt C F (ctx, b) seg =
      decryptChunks C F ⟨1, salt, subkey C salt, List.replicate C.nonceLen 0, buf⟩ b seg := by
    simp only [aeadDecrypt, hinit, hcat, if_true, if_neg hlong, htake, hdrop, hfresh,
      Bool.false_eq_true, if_false, aeadCipherCtxSetKey]
  have hopen : Opened (subkey C salt)
      ((⟨1, salt, subkey C salt, List.replicate C.nonceLen 0, buf⟩, b) : AeadCtx × F.State)
      (List.replicate C.nonceLen 0, [] ++ buf) :=
    ⟨by simp, rfl, rfl, rfl, fun _ => hfresh⟩
  rw [ssDecryptAead_eq, hcall]
  exact decryptChunks_opened hopen seg rfl hok

/-- A call before the salt is complete only collects bytes. -/
theorem ssDecryptAead_collect {ctx : AeadCtx} (hinit : ctx.init = 0) (b : F.State) {seg : Bytes}
    (hlen : (ctx.chunk ++ seg).length ≤ C.keyLen) :
    ssDecryptAead C F (ctx, b) seg = (({ ctx with chunk := ctx.chunk ++ seg }, b), (.ok, [])) := by
  have hcall : aeadDecrypt C F (ctx, b) seg =
      (({ ctx with chunk := ctx.chunk ++ seg }, b), (.needMore, seg)) := by
    simp only [aeadDecrypt, hinit, if_true, if_pos hlen]
  rw [ssDecryptAead_eq, hcall, ssResult_needMore]

/-- The plaintext of a call that succeeded. -/
def plaintext? (r : CryptoResult × Bytes) : Option Bytes := if r.1 = .ok then some r.2 else none

theorem delivered_plaintext {rs : List (CryptoResult × Bytes)} (h : ∀ r ∈ rs, r.1 = .ok) :
    delivered (rs.map plaintext?) = (rs.map Prod.snd).flatten := by
  have hval : rs.map plaintext? = rs.map fun r => some r.2 :=
    List.map_congr_left fun r hr => if_pos (h r hr)
  rw [hval, delivered_map_some]

/-- The salt is a header that is used when at least one byte has arrived behind it. -/
theorem ssDecryptAead_prelude {b : F.State} {salt : Bytes} (hsalt : salt.length = C.keyLen)
    (hfresh : F.check b salt = false) (stream : Bytes) :
    Prelude (ssDecryptAead C F) id plaintext? (aeadChunkDecrypt C (subkey C salt))
      (List.replicate C.nonceLen 0) (fun _ => True) salt stream [] (C.keyLen + 1)
      (fun c st => st.1.init = 0 ∧ st.1.chunk = c ∧ st.2 = b) (Opened (subkey C salt)) where
  header_le := by omega
  wait := by
    rintro _ ⟨ctx, b'⟩ seg ⟨hinit, rfl, rfl⟩ - - hlen
    dsimp only [id] at hinit hlen ⊢
    rw [ssDecryptAead_collect hinit _ (Nat.lt_succ_iff.1 hlen)]
    exact ⟨⟨hinit, rfl, rfl⟩, rfl⟩
  start := by
    rintro _ ⟨ctx, b'⟩ seg buf ⟨hinit, rfl, rfl⟩ - hcat hlen hok
    dsimp only [id] at hinit hcat hlen ⊢
    have hbuf : buf ≠ [] := by
      rintro rfl
      rw [hcat, List.append_nil] at hlen
      omega
    obtain ⟨hopen, hval⟩ := ssDecryptAead_salt hinit hsalt hfresh hbuf hcat hok
    exact ⟨hopen, by rw [hval]; rfl⟩
  next := by
    intro st t seg hopen _ hok
    obtain ⟨hopen', hval⟩ := ssDecryptAead_opened hopen seg hok
    exact ⟨hopen', by rw [id_eq, hval]; rfl⟩

end Decrypt

/-! ## The encrypting side -/

section Encrypt

variable {C : AeadCipher} {F : Bloom}

theorem aeadChunkEncrypt_of_sized {p : Bytes} (hp : ChunkSized p) (ctx : AeadCtx) :
    aeadChunkEncrypt C ctx p =
      ({ ctx with nonce := nextNonce ctx.nonce }, some (chunkBytes C ctx.skey ctx.nonce p)) := by
  rw [aeadChunkEncrypt, if_neg (by have := hp.2; omega)]

theorem aeadEncrypt_run_keyed {ctx : AeadCtx} (hinit : ctx.init ≠ 0) (b : F.State)
    {ps : List Bytes} (hps : ∀ p ∈ ps, ChunkSized p) :
    delivered (run (aeadEncrypt C F) (ctx, b) ps).2 = (chunkStream C ctx.skey ctx.nonce ps).1 ∧
      (run (aeadEncrypt C F) (ctx, b) ps).1.1.nonce = (chunkStream C ctx.skey ctx.nonce ps).2 := by
  induction ps generalizing ctx with
  | nil => exact ⟨rfl, rfl⟩
  | cons p ps ih =>
      have hp := hps p (by simp)
      have hstep : aeadEncrypt C F (ctx, b) p =
          (({ ctx with nonce := nextNonce ctx.nonce }, b),
            some (chunkBytes C ctx.skey ctx.nonce p)) := by
        rw [aeadEncrypt, if_neg (by have := hp.1; omega), if_neg hinit,
          aeadChunkEncrypt_of_sized hp]
      have hrec := @ih { ctx with nonce := nextNonce ctx.nonce } hinit
        fun q hq => hps q (List.mem_cons_of_mem _ hq)
      rw [run_cons, hstep]
      refine ⟨?_, hrec.2⟩
      rw [delivered_cons, hrec.1]
      rfl

/-- A fresh context emits its salt in front of the first chunk. -/
theorem aeadEncrypt_run_fresh (salt : Bytes) (b : F.State) {p : Bytes} {ps : List Bytes}
    (hps : ∀ q ∈ p :: ps, ChunkSized q) :
    delivered (run (aeadEncrypt C F) (aeadCtxInit C salt, b) (p :: ps)).2 =
        salt ++ (chunkStream C (subkey C salt) (List.replicate C.nonceLen 0) (p :: ps)).1 ∧
      (run (aeadEncrypt C F) (aeadCtxInit C salt, b) (p :: ps)).1.1.nonce =
        (chunkStream C (subkey C salt) (List.replicate C.nonceLen 0) (p :: ps)).2 := by
  have hp := hps p (by simp)
  have hstep : aeadEncrypt C F (aeadCtxInit C salt, b) p =
      ((⟨1, salt, subkey C salt, nextNonce (List.replicate C.nonceLen 0), []⟩, F.add b salt),
        some (salt ++ chunkBytes C (subkey C salt) (List.replicate C.nonceLen 0) p)) := by
    have hinit : (aeadCtxInit C salt).init = 0 := rfl
    rw [aeadEncrypt, if_neg (by have := hp.1; omega), if_pos hinit]
    dsimp only
    rw [aeadChunkEncrypt_of_sized hp]
    rfl
  have hone : (⟨1, salt, subkey C salt, nextNonce (List.replicate C.nonceLen 0), []⟩ :
      AeadCtx).init ≠ 0 := by simp
  have hrec := aeadEncrypt_run_keyed (C := C) hone (F.add b salt)
    fun q hq => hps q (List.mem_cons_of_mem _ hq)
  rw [run_cons, hstep]
  refine ⟨?_, hrec.2⟩
  rw [delivered_cons, hrec.1, Option.getD_some, List.append_assoc]
  rfl

end Encrypt

/-- Segmentation independence of an AEAD stream: every call succeeds, the plaintexts arrive, and in
the end nothing is carried over and the nonces agree. -/
theorem aead_stream_segmentation (C : AeadCipher) (F : Bloom) (bEnc bDec : F.State) (salt : Bytes)
    (hsalt : salt.length = C.keyLen) (hfresh : F.check bDec salt = false) (ps : List Bytes)
    (hps : ∀ p ∈ ps, 1 ≤ p.length ∧ p.length ≤ 0x3FFF) (segs : List Bytes)
    (hne : ∀ s ∈ segs, s ≠ [])
    (hcat : segs.flatten = delivered (run (aeadEncrypt C F) (aeadCtxInit C salt, bEnc) ps).2) :
    (∀ r ∈ (run (ssDecryptAead C F) (aeadCtxInit C (List.replicate C.keyLen 0), bDec) segs).2,
        r.1 = .ok) ∧
      ((run (ssDecryptAead C F) (aeadCtxInit C (List.replicate C.keyLen 0), bDec) segs).2.map
        Prod.snd).flatten = ps.flatten ∧
      (run (ssDecryptAead C F) (aeadCtxInit C (List.replicate C.keyLen 0), bDec) segs).1.1.chunk =
        [] ∧
      (run (ssDecryptAead C F) (aeadCtxInit C (List.replicate C.keyLen 0), bDec) segs).1.1.nonce =
        (run (aeadEncrypt C F) (aeadCtxInit C salt, bEnc) ps).1.1.nonce := by
  cases ps with
  | nil =>
      have hnil : segs = [] := eq_nil_of_flatten_eq_nil hne hcat
      subst hnil
      exact ⟨by simp, rfl, rfl, rfl⟩
  | cons p ps =>
      -- the wire is the salt and the chunks that it keys
      obtain ⟨hbytes, hnonce⟩ := aeadEncrypt_run_fresh (C := C) (F := F) salt bEnc hps
      have hparse := chunkStream_parses (C := C) (subkey C salt) (List.replicate C.nonceLen 0) hps
      have hstream :
          (chunkStream C (subkey C salt) (List.replicate C.nonceLen 0) (p :: ps)).1 ≠ [] := by
        have hlen := chunkBytes_length (C := C) (subkey C salt) (List.replicate C.nonceLen 0) p
        intro h
        rw [chunkStream, List.append_eq_nil_iff] at h
        rw [h.1, List.length_nil] at hlen
        have hpos := (hps p (by simp)).1
        omega
      have hpos := List.length_pos_iff.2 hstream
      rw [hbytes] at hcat
      have hinit : (aeadCtxInit C (List.replicate C.keyLen 0)).init = 0 ∧
          (aeadCtxInit C (List.replicate C.keyLen 0)).chunk = [] ∧ bDec = bDec := ⟨rfl, rfl, rfl⟩
      -- the salt is a prelude, the chunks are frames: `Lib.Framing` does the segmentation
      obtain ⟨s₂, hopen, hs₂, hall, hout⟩ := (ssDecryptAead_prelude hsalt hfresh _).run_complete
        (s := (aeadCtxInit C (List.replicate C.keyLen 0), bDec)) hinit (Nat.zero_lt_succ _)
        (fun _ _ => trivial) (by simpa using hcat) (by rw [List.length_append]; omega) hparse rfl
        (cutsOk_of_forall (fun _ => trivial) _)
      rw [hnonce]
      have hok : ∀ r ∈ (run (ssDecryptAead C F)
          (aeadCtxInit C (List.replicate C.keyLen 0), bDec) segs).2, r.1 = .ok := by
        intro r hr
        by_contra hne
        exact hall r hr (if_neg hne)
      exact ⟨hok, by rw [← delivered_plaintext hok, hout]; rfl, hopen.chunk, hopen.nonce.trans hs₂⟩

/-! ## The method chacha20-ietf-poly1305 -/

def chacha20IetfPoly1305 (key : Bytes) : AeadCipher where
  key := key
  keyLen := 32
  nonceLen := 12
  tagLen := 16
  encrypt nonce skey msg := Lib.ChaCha20Poly1305.sealBox skey nonce msg
  decrypt nonce skey box := Lib.ChaCha20Poly1305.openBox skey nonce box
  encrypt_length n k m := Lib.ChaCha20Poly1305.sealBox_length k n m
  decrypt_encrypt n k m := Lib.ChaCha20Poly1305.openBox_sealBox k n m

/-- A filter without false positives. -/
def exactBloom : Bloom := ⟨List Bytes, fun s x => s.contains x, fun s x => x :: s⟩

def emptyBloom : exactBloom.State := ([] : List Bytes)

def sampleSalt : Bytes := (List.range 32).map fun i => UInt8.ofNat (11 * i)

def sampleStream : Bytes :=
  delivered (run (aeadEncrypt (chacha20IetfPoly1305 sampleSalt) exactBloom)
    (aeadCtxInit (chacha20IetfPoly1305 sampleSalt) sampleSalt, emptyBloom) [[1, 2, 3], [4]]).2

theorem sampleStream_length : sampleStream.length = 104 := by
  have hps : ∀ q ∈ ([[1, 2, 3], [4]] : List Bytes), ChunkSized q := by
    simp [ChunkSized]
  rw [sampleStream, (aeadEncrypt_run_fresh sampleSalt emptyBloom hps).1]
  simp only [chunkStream, List.length_append, chunkBytes_length]
  rfl

/-- Two chunks, cut inside the salt and inside the first sealed length. -/
theorem aead_stream_segmentation_sample :
    ((run (ssDecryptAead (chacha20IetfPoly1305 sampleSalt) exactBloom)
      (aeadCtxInit (chacha20IetfPoly1305 sampleSalt) (List.replicate 32 0), emptyBloom)
      [sampleStream.take 7, (sampleStream.drop 7).take 30, sampleStream.drop 37]).2.map
        Prod.snd).flatten = [1, 2, 3, 4] := by
  have hlen := sampleStream_length
  refine (aead_stream_segmentation (chacha20IetfPoly1305 sampleSalt) exactBloom emptyBloom emptyBloom
    sampleSalt rfl rfl [[1, 2, 3], [4]] (by simp) _ ?_ ?_).2.1
  · intro s hs
    refine List.length_pos_iff.1 ?_
    simp only [List.mem_cons, List.not_mem_nil, or_false] at hs
    rcases hs with rfl | rfl | rfl <;> simp only [List.length_take, List.length_drop, hlen] <;> omega
  · have hcut : sampleStream.drop 37 = (sampleStream.drop 7).drop 30 := by rw [List.drop_drop]
    simp only [List.flatten_cons, List.flatten_nil, List.append_nil, hcut, List.take_append_drop]
    rfl

end Aead
end SsrNative
