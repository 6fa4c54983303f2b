import SsrNative.Bytes
import SsrNative.Lib.Aes
import SsrNative.Lib.Hash
import SsrNative.Lib.Segments

/-!
# Crypto — the primitives behind the plugins

The plugins use hashes and ciphers of an external library.  What the code relies on is a field of
the structure that stands for the primitive; results quantify over these structures.
-/

namespace SsrNative

open Lib.Hash
open Lib.Segments

/-! ## Keyed hashes -/

/-- A keyed hash with an `n`-byte digest (`ss_sha1_hmac_with_key`, `ss_md5_hmac_with_key`). -/
structure Mac (n : ℕ) where
  run : (msg key : Bytes) → Bytes
  run_length : ∀ msg key, (run msg key).length = n

attribute [simp] Mac.run_length

def hmacSha1 : Mac 20 := ⟨hmac sha1, hmac_length sha1_length⟩

def hmacMd5 : Mac 16 := ⟨hmac md5, hmac_length md5_length⟩

/-! ## Block ciphers -/

/-- A cipher on blocks of sixteen bytes; `ss_aes_128_cbc_encrypt` is only used on one block, where
the zero IV has no effect. -/
structure BlockCipher where
  encrypt : (key block : Bytes) → Bytes
  decrypt : (key block : Bytes) → Bytes
  encrypt_length : ∀ key block, (encrypt key block).length = 16
  decrypt_encrypt : ∀ key block, block.length = 16 → decrypt key (encrypt key block) = block

attribute [simp] BlockCipher.encrypt_length

def aes128 : BlockCipher where
  encrypt := Lib.Aes.encrypt
  decrypt := Lib.Aes.decrypt
  encrypt_length := Lib.Aes.encrypt_length
  decrypt_encrypt key _ h := Lib.Aes.decrypt_encrypt key h

/-! ## Ciphers that work byte by byte -/

/-- Every byte advances the state, and decryption in the same state undoes encryption. -/
structure ByteCipher where
  State : Type
  enc : State → UInt8 → State × UInt8
  dec : State → UInt8 → State × UInt8
  dec_enc : ∀ s x, dec s (enc s x).2 = ((enc s x).1, x)

theorem ByteCipher.run_dec_enc (C : ByteCipher) (s : C.State) (plain : Bytes) :
    run C.dec s (run C.enc s plain).2 = ((run C.enc s plain).1, plain) := by
  induction plain generalizing s with
  | nil => rfl
  | cons x xs ih => simp only [run_cons, C.dec_enc, ih]

end SsrNative
