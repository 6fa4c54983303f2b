import SsrNative.CText
import SsrNative.SsrBuffer
import SsrNative.Lib.Chained
import SsrNative.Lib.Hash
import SsrNative.Lib.Memory

/-!
# KeyDerivation — keys from passwords

`bytes_to_key_with_size` and `bytes_to_key` of `encrypt.c`, and `crypto_derive_key` of `aead.c`.  All
three stretch the MD5 digest of the password; the first does so in one array that is both input and
output of the hash, and writes a digest before it looks at the size.
-/

namespace SsrNative
namespace KeyDerivation

open Bytes
open Lib.Chained
open Lib.Memory (store store_field)

/-- MD5, of which nothing is used but the size of its digests. -/
structure Digest where
  run : Bytes → Bytes
  run_length : ∀ msg, (run msg).length = 16

attribute [simp] Digest.run_length

def md5 : Digest := ⟨Lib.Hash.md5, Lib.Hash.md5_length⟩

/-- `(int)n`. -/
def castInt (n : ℕ) : ℤ := (BitVec.ofNat 32 n).toInt

theorem castInt_of_lt {n : ℕ} (h : n < 2147483648) : castInt n = n := by
  have hmod : n % 2 ^ 32 = n := Nat.mod_eq_of_lt (by omega)
  rw [castInt, BitVec.toInt_eq_toNat_of_lt (by rw [BitVec.toNat_ofNat, hmod]; omega), BitVec.toNat_ofNat, hmod]

/-! ## The functions -/

section Functions

variable (D : Digest)

/-- The loop of `bytes_to_key_with_size`; `result` has the last digest in front. -/
def withSizeLoop (pass : Bytes) (mdSize : ℕ) : ℕ → ℕ → Bytes → Bytes → Option Bytes
  | 0, _, _, _ => none
  | fuel + 1, i, result, md =>
      if (i : ℤ) < castInt mdSize then do
        let result ← store result 16 pass
        let result ← store result 0 (D.run (result.take (16 + pass.length)))
        let md ← store md i (result.take 16)
        withSizeLoop pass mdSize fuel (i + 16) result md
      else some md

/-- `bytes_to_key_with_size`; `result` is what its array holds before it is written. -/
def bytesToKeyWithSize (result pass md : Bytes) (mdSize : ℕ) : Option Bytes := do
  let result ← store result 0 (D.run pass)
  let md ← store md 0 (result.take 16)
  withSizeLoop D pass mdSize (mdSize + 1) 16 result md

/-- The inner loop over the bytes of a digest. -/
def copyDigest (keyLen : ℕ) : Bytes → ℕ → Bytes → Option (ℕ × Bytes)
  | [], j, key => some (j, key)
  | b :: md, j, key =>
      if keyLen ≤ j then some (j, key)
      else do
        let key ← store key j [b]
        copyDigest keyLen md (j + 1) key

/-- The outer loop of `bytes_to_key` and of `crypto_derive_key`. -/
def deriveLoop (pass : Bytes) (keyLen : ℕ) : ℕ → ℕ → Bytes → ℕ → Bytes → Option Bytes
  | 0, _, _, _, _ => none
  | fuel + 1, addmd, mdBuf, j, key =>
      if j < keyLen then do
        let mdBuf := D.run ((if addmd ≠ 0 then mdBuf else []) ++ pass)
        let r ← copyDigest keyLen mdBuf j key
        deriveLoop pass keyLen fuel (addmd + 1) mdBuf r.1 r.2
      else some key

/-- `bytes_to_key`, with either crypto library; `cipher` is the key size of the cipher, if there is one. -/
def bytesToKey (cipher : Option ℕ) (pass key : Bytes) : Option (ℕ × Bytes) :=
  let nkey := cipher.getD 16
  (deriveLoop D (cString pass) nkey (nkey + 1) 0 [] 0 key).map fun key => (nkey, key)

def cryptoDeriveKey (pass key : Bytes) (keyLen : ℕ) : Option (ℕ × Bytes) :=
  (deriveLoop D (cString pass) keyLen (keyLen + 1) 0 [] 0 key).map fun key => (keyLen, key)

/-! ## The chain of digests -/

/-- The digest of the one before and the password. -/
def nextDigest (pass : Bytes) (_ : ℕ) (digest : Bytes) : Bytes := D.run (digest ++ pass)

/-- The first `n` bytes of the chain. -/
def chainKey (pass : Bytes) (n : ℕ) : Bytes := expand (nextDigest D pass) 16 n

variable {D}

theorem nextDigest_length (pass : Bytes) (i : ℕ) (digest : Bytes) : (nextDigest D pass i digest).length = 16 :=
  D.run_length _

/-! ## The loops that stop inside a digest -/

theorem copyDigest_eq (keyLen : ℕ) (md : Bytes) {a l : Bytes} (hroom : keyLen ≤ a.length + l.length) :
    copyDigest keyLen md a.length (a ++ l) =
      some (a.length + min md.length (keyLen - a.length),
        a ++ (md.take (keyLen - a.length) ++ l.drop (min md.length (keyLen - a.length)))) := by
  induction md generalizing a l with
  | nil => simp [copyDigest]
  | cons b md ih =>
      rw [copyDigest]
      by_cases hfull : keyLen ≤ a.length
      · simp [hfull, Nat.sub_eq_zero_of_le hfull]
      · cases l with
        | nil => exact absurd hroom (by simpa using hfull)
        | cons x l =>
            have hstore : store (a ++ x :: l) a.length [b] = some ((a ++ [b]) ++ l) := by
              have hfield := store_field (a := a) (x := [x]) (w := [b]) (l := l) rfl rfl
              simpa using hfield
            have hrest := ih (a := a ++ [b]) (l := l) (by
              rw [List.length_append, List.length_singleton]
              rw [List.length_cons] at hroom
              omega)
            rw [if_neg hfull, hstore, Option.bind_eq_bind, Option.bind_some]
            rw [List.length_append, List.length_singleton] at hrest
            rw [hrest]
            have hleft : keyLen - a.length = (keyLen - (a.length + 1)) + 1 := by omega
            rw [hleft, List.length_cons, List.take_succ_cons, Nat.succ_min_succ, List.drop_succ_cons]
            refine congrArg some (Prod.ext ?_ ?_)
            · dsimp only
              omega
            · simp

/-- The outer loop with `c` digests behind it, the last of which may have been cut. -/
theorem deriveLoop_eq (pass : Bytes) {key : Bytes} {n fuel c : ℕ} (hroom : n ≤ key.length) (hfuel : n ≤ (c + fuel) * 16) :
    deriveLoop D pass n (fuel + 1) c (block (nextDigest D pass) c) (min (c * 16) n)
        ((blocks (nextDigest D pass) c).take n ++ key.drop (min (c * 16) n)) =
      some (chainKey D pass n ++ key.drop n) := by
  have hsize := nextDigest_length (D := D) pass
  have hdone : ∀ {c fuel}, n ≤ c * 16 →
      deriveLoop D pass n (fuel + 1) c (block (nextDigest D pass) c) (min (c * 16) n)
          ((blocks (nextDigest D pass) c).take n ++ key.drop (min (c * 16) n)) =
        some (chainKey D pass n ++ key.drop n) := by
    intro c fuel hle
    rw [deriveLoop, Nat.min_eq_right hle, if_neg (Nat.lt_irrefl n), chainKey,
      expand_eq_take hsize (by decide) hle]
  induction fuel generalizing c with
  | zero => exact hdone hfuel
  | succ fuel ih =>
      rcases Nat.lt_or_ge (c * 16) n with hlt | hle
      swap
      · exact hdone hle
      have hbefore : (blocks (nextDigest D pass) c).length = c * 16 := blocks_length hsize c
      have hinput : (if c ≠ 0 then block (nextDigest D pass) c else []) = block (nextDigest D pass) c := by
        cases c with
        | zero => rfl
        | succ c => rfl
      have hdigest : D.run (block (nextDigest D pass) c ++ pass) = block (nextDigest D pass) (c + 1) := rfl
      have hcopy := copyDigest_eq n (block (nextDigest D pass) (c + 1))
        (a := blocks (nextDigest D pass) c) (l := key.drop (c * 16)) (by
          rw [hbefore, List.length_drop]
          omega)
      rw [hbefore, block_length hsize] at hcopy
      have hcount : c * 16 + min 16 (n - c * 16) = min ((c + 1) * 16) n := by omega
      have hkey : blocks (nextDigest D pass) c ++ ((block (nextDigest D pass) (c + 1)).take (n - c * 16) ++
          (key.drop (c * 16)).drop (min 16 (n - c * 16))) =
          (blocks (nextDigest D pass) (c + 1)).take n ++ key.drop (min ((c + 1) * 16) n) := by
        have hwhole : (blocks (nextDigest D pass) c).take n = blocks (nextDigest D pass) c :=
          List.take_of_length_le (by omega)
        rw [List.drop_drop, hcount, blocks_succ, List.take_append, hbefore, hwhole, List.append_assoc]
      have hwhole : (blocks (nextDigest D pass) c).take n = blocks (nextDigest D pass) c :=
        List.take_of_length_le (by omega)
      rw [deriveLoop, Nat.min_eq_left (Nat.le_of_lt hlt), if_pos hlt, hinput, hdigest, hwhole]
      dsimp only
      rw [hcopy, Option.bind_eq_bind, Option.bind_some, hcount, hkey]
      exact ih (by omega)

theorem cString_text (p : CText) (behind : Bytes) : cString (p.chars ++ 0 :: behind) = p.chars := by
  have hnil : cString (0 :: behind) = [] := rfl
  rw [cString_append p.nul_not_mem, hnil, List.append_nil]

theorem bytesToKey_eq (p : CText) (behind : Bytes) {n : ℕ} {key : Bytes} (hroom : n ≤ key.length) :
    bytesToKey D (some n) (p.chars ++ 0 :: behind) key = some (n, chainKey D p.chars n ++ key.drop n) := by
  have hloop := deriveLoop_eq (D := D) p.chars (c := 0) hroom (by omega : n ≤ (0 + n) * 16)
  rw [Nat.zero_mul, Nat.zero_min, blocks_zero, List.take_nil, List.nil_append, List.drop_zero] at hloop
  rw [bytesToKey, cString_text, Option.getD_some]
  exact congrArg (Option.map _) hloop

theorem cryptoDeriveKey_eq (p : CText) (behind : Bytes) {n : ℕ} {key : Bytes} (hroom : n ≤ key.length) :
    cryptoDeriveKey D (p.chars ++ 0 :: behind) key n = some (n, chainKey D p.chars n ++ key.drop n) :=
  bytesToKey_eq p behind hroom

/-! ## The loop over whole digests -/

/-- One array for input and output: the last digest is in front of the password when it is hashed. -/
theorem withSizeLoop_eq {pass key tail : Bytes} {m fuel c : ℕ} (hpass : pass.length ≤ tail.length)
    (hroom : m * 16 ≤ key.length) (hbound : m * 16 < 2147483648) (hc : c + 1 ≤ m) (hfuel : m ≤ c + 1 + fuel) :
    withSizeLoop D pass (m * 16) (fuel + 1) ((c + 1) * 16) (block (nextDigest D pass) (c + 1) ++ tail)
        (blocks (nextDigest D pass) (c + 1) ++ key.drop ((c + 1) * 16)) =
      some (blocks (nextDigest D pass) m ++ key.drop (m * 16)) := by
  have hsize := nextDigest_length (D := D) pass
  have hcast : castInt (m * 16) = (m * 16 : ℕ) := castInt_of_lt hbound
  have hdone : ∀ {fuel tail}, withSizeLoop D pass (m * 16) (fuel + 1) (m * 16)
      (block (nextDigest D pass) m ++ tail) (blocks (nextDigest D pass) m ++ key.drop (m * 16)) =
      some (blocks (nextDigest D pass) m ++ key.drop (m * 16)) := by
    intro fuel tail
    rw [withSizeLoop, hcast, if_neg (lt_irrefl _)]
  induction fuel generalizing c tail with
  | zero =>
      have hlast : c + 1 = m := by omega
      rw [hlast]
      exact hdone
  | succ fuel ih =>
      rcases Nat.lt_or_eq_of_le hc with hlt | heq
      swap
      · rw [heq]
        exact hdone
      have hmore : (((c + 1) * 16 : ℕ) : ℤ) < castInt (m * 16) := by
        rw [hcast]
        exact Int.ofNat_lt.2 (by omega)
      have hoff : (c + 1) * 16 + 16 = (c + 1 + 1) * 16 := by omega
      have hinput : store (block (nextDigest D pass) (c + 1) ++ tail) 16 pass =
          some (block (nextDigest D pass) (c + 1) ++ (pass ++ tail.drop pass.length)) := by
        have hfield := store_field (a := block (nextDigest D pass) (c + 1)) (x := tail.take pass.length)
          (w := pass) (l := tail.drop pass.length) (hsize _ _) (by simpa using hpass)
        rwa [List.take_append_drop] at hfield
      have hhashed : (block (nextDigest D pass) (c + 1) ++ (pass ++ tail.drop pass.length)).take
          (16 + pass.length) = block (nextDigest D pass) (c + 1) ++ pass := by
        rw [← List.append_assoc]
        exact List.take_left' (by rw [List.length_append, block_length hsize])
      have hdigest : D.run (block (nextDigest D pass) (c + 1) ++ pass) = block (nextDigest D pass) (c + 1 + 1) := rfl
      have houtput : store (block (nextDigest D pass) (c + 1) ++ (pass ++ tail.drop pass.length)) 0
          (block (nextDigest D pass) (c + 1 + 1)) =
          some (block (nextDigest D pass) (c + 1 + 1) ++ (pass ++ tail.drop pass.length)) :=
        store_field (a := []) rfl ((block_length hsize _).trans (block_length hsize _).symm)
      have hcopied : (block (nextDigest D pass) (c + 1 + 1) ++ (pass ++ tail.drop pass.length)).take 16 =
          block (nextDigest D pass) (c + 1 + 1) := List.take_left' (block_length hsize _)
      have hkey : store (blocks (nextDigest D pass) (c + 1) ++ key.drop ((c + 1) * 16)) ((c + 1) * 16)
          (block (nextDigest D pass) (c + 1 + 1)) =
          some (blocks (nextDigest D pass) (c + 1 + 1) ++ key.drop ((c + 1 + 1) * 16)) := by
        have hold : ((key.drop ((c + 1) * 16)).take 16).length =
            (block (nextDigest D pass) (c + 1 + 1)).length := by
          rw [block_length hsize, List.length_take, List.length_drop]
          omega
        have hfield := store_field (l := (key.drop ((c + 1) * 16)).drop 16) (blocks_length hsize (c + 1)) hold
        rw [List.take_append_drop, List.drop_drop, hoff, ← List.append_assoc, ← blocks_succ] at hfield
        exact hfield
      rw [withSizeLoop, if_pos hmore, hinput, Option.bind_eq_bind, Option.bind_some, hhashed, hdigest, houtput,
        Option.bind_some, hcopied, hkey, Option.bind_some, hoff]
      exact ih (by simp) hlt (by omega)

/-- The first digest goes into the key whatever the size is. -/
theorem bytesToKeyWithSize_first {pass result key : Bytes} (hresult : result.length = 128)
    (hroom : 16 ≤ key.length) (mdSize : ℕ) :
    bytesToKeyWithSize D result pass key mdSize =
      withSizeLoop D pass mdSize (mdSize + 1) 16 (block (nextDigest D pass) 1 ++ result.drop 16)
        (blocks (nextDigest D pass) 1 ++ key.drop 16) := by
  have hsize := nextDigest_length (D := D) pass
  have hfirst : D.run pass = block (nextDigest D pass) 1 := rfl
  have hstore : ∀ mem : Bytes, 16 ≤ mem.length → store mem 0 (block (nextDigest D pass) 1) =
      some (block (nextDigest D pass) 1 ++ mem.drop 16) := by
    intro mem hmem
    have hfield := store_field (a := []) (x := mem.take 16) (l := mem.drop 16)
      (w := block (nextDigest D pass) 1) List.length_nil (by
        rw [block_length hsize, List.length_take]
        omega)
    rwa [List.nil_append, List.take_append_drop] at hfield
  have hcopied : (block (nextDigest D pass) 1 ++ result.drop 16).take 16 = block (nextDigest D pass) 1 :=
    List.take_left' (block_length hsize _)
  rw [bytesToKeyWithSize, hfirst, hstore result (by omega), Option.bind_eq_bind, Option.bind_some, hcopied,
    hstore key hroom, Option.bind_some, blocks_succ, blocks_zero, List.nil_append]

theorem bytesToKeyWithSize_eq {pass result key : Bytes} (hresult : result.length = 128)
    (hpass : pass.length ≤ 112) {m : ℕ} (hpos : 0 < m) (hbound : m * 16 < 2147483648)
    (hroom : m * 16 ≤ key.length) :
    bytesToKeyWithSize D result pass key (m * 16) =
      some (chainKey D pass (m * 16) ++ key.drop (m * 16)) := by
  rw [bytesToKeyWithSize_first hresult (by omega), chainKey,
    expand_mul (nextDigest_length (D := D) pass) (by decide)]
  exact withSizeLoop_eq (c := 0) (by rw [List.length_drop, hresult]; exact hpass) hroom hbound hpos (by omega)

/-- For the empty key as well. -/
theorem bytesToKeyWithSize_zero {pass result key : Bytes} (hresult : result.length = 128)
    (hroom : 16 ≤ key.length) : bytesToKeyWithSize D result pass key 0 = some (D.run pass ++ key.drop 16) := by
  have hstop : ¬ ((16 : ℕ) : ℤ) < castInt 0 := by decide
  rw [bytesToKeyWithSize_first hresult hroom, withSizeLoop, if_neg hstop, blocks_succ, blocks_zero,
    List.nil_append]
  rfl

end Functions

/-! ## The three keys -/

/-- All three write the first `n` bytes of the chain over as many bytes of the key and leave those behind
it alone, whatever the arrays hold before; and a smaller key is the beginning of a larger one. -/
def KeysAgree (D : Digest) (p : CText) (n : ℕ) : Prop :=
  (∀ behind result key : Bytes, result.length = 128 → n ≤ key.length →
    let written := chainKey D p.chars n ++ key.drop n
    (chainKey D p.chars n).length = n ∧
      bytesToKeyWithSize D result p.chars key n = some written ∧
      bytesToKey D (some n) (p.chars ++ 0 :: behind) key = some (n, written) ∧
      cryptoDeriveKey D (p.chars ++ 0 :: behind) key n = some (n, written)) ∧
    ∀ m ≤ n, chainKey D p.chars m <+: chainKey D p.chars n

/-- A digest is there before the size is looked at, so the empty key is the only one of the sizes that
is not left alone. -/
theorem key_derivations_iff (D : Digest) {p : CText} (hp : p.chars.length ≤ 112) {n : ℕ} (hn : n ≤ 64)
    (h16 : n % 16 = 0) : KeysAgree D p n ↔ n ≠ 0 := by
  have hsize := nextDigest_length (D := D) p.chars
  constructor
  · rintro h rfl
    -- sixteen bytes, none of which is what the digest has there
    have hkey : ((D.run p.chars).map (· + 1)).length = 16 := by rw [List.length_map, D.run_length]
    have hresult : (List.replicate 128 (0 : UInt8)).length = 128 := List.length_replicate
    have hwritten := (h.1 [] _ _ hresult (Nat.zero_le ((D.run p.chars).map (· + 1)).length)).2.1
    rw [bytesToKeyWithSize_zero hresult (Nat.le_of_eq hkey.symm), List.drop_eq_nil_of_le (Nat.le_of_eq hkey),
      List.append_nil, List.drop_zero] at hwritten
    have hsame : D.run p.chars = (D.run p.chars).map (· + 1) := Option.some.inj hwritten
    rcases hdigest : D.run p.chars with _ | ⟨x, l⟩
    · have hlen := D.run_length p.chars
      rw [hdigest] at hlen
      exact absurd hlen (by decide)
    · rw [hdigest, List.map_cons, List.cons.injEq] at hsame
      have hvalue := congrArg UInt8.toNat hsame.1
      have hx := x.toNat_lt
      rw [UInt8.toNat_add, UInt8.toNat_one] at hvalue
      omega
  · intro hne
    have hmul : n = n / 16 * 16 := by omega
    refine ⟨fun behind result key hresult hroom => ?_, fun m hm => expand_prefix hsize (by decide) hm⟩
    have hfirst := bytesToKeyWithSize_eq (D := D) (m := n / 16) hresult hp (by omega) (by omega)
      (by rwa [← hmul])
    rw [← hmul] at hfirst
    exact ⟨expand_length hsize (by decide) n, hfirst, bytesToKey_eq p behind hroom,
      cryptoDeriveKey_eq p behind hroom⟩

theorem key_derivations_two : KeysAgree md5 ⟨ascii "secret", by decide⟩ 32 :=
  (key_derivations_iff md5 (by decide) (by decide) (by decide)).2 (by decide)

/-- A key of no bytes, and the array of a caller in which the digest of `a` is found then. -/
theorem empty_key_written :
    bytesToKeyWithSize md5 (List.replicate 128 0) (ascii "a") (List.replicate 16 0) 0 =
        some [0x0C, 0xC1, 0x75, 0xB9, 0xC0, 0xF1, 0xB6, 0xA8, 0x31, 0xC3, 0x99, 0xE2, 0x69, 0x77, 0x26, 0x61] ∧
      bytesToKey md5 (some 0) (ascii "a" ++ [0]) (List.replicate 16 0) = some (0, List.replicate 16 0) ∧
      ¬ KeysAgree md5 ⟨ascii "a", by decide⟩ 0 := by
  have hwritten : bytesToKeyWithSize md5 (List.replicate 128 0) (ascii "a") (List.replicate 16 0) 0 =
      some [0x0C, 0xC1, 0x75, 0xB9, 0xC0, 0xF1, 0xB6, 0xA8, 0x31, 0xC3, 0x99, 0xE2, 0x69, 0x77, 0x26, 0x61] := by
    decide +kernel
  refine ⟨hwritten, by decide +kernel, fun h => ?_⟩
  have hagree := (h.1 [] (List.replicate 128 0) (List.replicate 16 0) List.length_replicate (Nat.zero_le _)).2.1
  rw [hwritten] at hagree
  exact absurd hagree (by decide +kernel)

end KeyDerivation
end SsrNative
