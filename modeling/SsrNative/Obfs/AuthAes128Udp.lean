import SsrNative.ProtocolParam

/-!
# AuthAes128Udp — the datagrams of the auth_aes128 protocols

A datagram carries its data, four bytes of a user id towards the server, and four bytes of a keyed
hash.  The client hashes with its user's key, the server always with its own.
-/

namespace SsrNative
namespace Obfs
namespace AuthAes128

open Bytes
open CString
open Lib.Text

/-! ## Sending -/

/-- The user id and the user's key for a datagram.  The two parts of `uid:key` are copied into
arrays of 16 and 128 bytes, and nothing comes back when they do not fit. -/
def udpUser (S : Suite) (key param : Bytes) (l : LocalData) (uid : ℕ → UInt8) : Option (Bytes × Bytes) :=
  if l.userKey.length = 0 then
    match cut 58 param with
    | some (uidStr, keyStr) =>
        if uidStr.length < 16 ∧ keyStr.length < 128 then
          some (le32 (UInt32.ofInt (strtol uidStr)).toNat, S.hash keyStr)
        else none
    | none => some (randBytes uid 4, key)
  else some (l.uid, l.userKey)

/-- `auth_aes128_sha1_client_udp_pre_encrypt` with `extra_param` and the random choice of a user id. -/
def clientUdpPreEncrypt (S : Suite) (key param : Bytes) (l : LocalData) (uid : ℕ → UInt8)
    (data : Bytes) : Option (LocalData × Bytes) :=
  (udpUser S key param l uid).map fun user =>
    let body := data ++ window user.1 0 4
    ({ l with uid := user.1, userKey := user.2 }, body ++ (S.hmac.run body user.2).take 4)

def serverUdpPreEncrypt (S : Suite) (key buf : Bytes) : Bytes := buf ++ (S.hmac.run buf key).take 4

/-! ## Receiving -/

/-- What `auth_aes128_sha1_client_udp_post_decrypt` leaves of a datagram: the bytes up to the length
that it returns, which is zero for a datagram that it does not accept. -/
def clientUdpPostDecrypt (S : Suite) (key data : Bytes) : Bytes :=
  if data.length ≤ 4 then []
  else if (S.hmac.run (data.take (data.length - 4)) key).take 4 ≠ window data (data.length - 4) 4 then []
  else data.take (data.length - 4)

inductive UdpPostDecrypt where
  | accept (buf : Bytes)
  | reject
  | crash
  deriving DecidableEq

/-- `auth_aes128_sha1_server_udp_post_decrypt`, with or without a place for the user id.  Lengths are
unsigned: a datagram that is too short makes them wrap around. -/
def serverUdpPostDecrypt (S : Suite) (key : Bytes) (uid : Bool) (buf : Bytes) : UdpPostDecrypt :=
  if uid = true ∧ buf.length < 8 then .crash
  else if buf.length < 4 then .crash
  else if (S.hmac.run (buf.take (buf.length - 4)) key).take 4 ≠ window buf (buf.length - 4) 4 then
    .reject
  else if buf.length < 8 then .crash
  else .accept (buf.take (buf.length - 8))

/-! ## What the receivers do -/

section Datagram

variable {S : Suite} {key body tag : Bytes}

theorem hmac_take_length (S : Suite) (msg key : Bytes) : ((S.hmac.run msg key).take 4).length = 4 := by
  have hsize := S.size_le
  rw [List.length_take, S.hmac.run_length]
  omega

theorem take_body (htag : tag.length = 4) : (body ++ tag).take ((body ++ tag).length - 4) = body := by
  rw [List.length_append, htag, Nat.add_sub_cancel, List.take_left]

theorem window_tag (htag : tag.length = 4) : window (body ++ tag) ((body ++ tag).length - 4) 4 = tag := by
  have hlast := window_field (a := body) (w := tag) (l := []) rfl htag
  rwa [List.append_nil, ← Nat.add_sub_cancel (n := body.length) (m := 4), ← htag,
    ← List.length_append, htag] at hlast

/-- The server accepts a datagram with room for a user id exactly when the four bytes behind the
body are those of its own keyed hash. -/
theorem serverUdpPostDecrypt_accept_iff (uid : Bool) (hbody : 4 ≤ body.length) (htag : tag.length = 4)
    {out : Bytes} (hout : body.take (body.length - 4) = out) :
    serverUdpPostDecrypt S key uid (body ++ tag) = .accept out ↔ (S.hmac.run body key).take 4 = tag := by
  have hlen : (body ++ tag).length = body.length + 4 := by rw [List.length_append, htag]
  unfold serverUdpPostDecrypt
  rw [take_body htag, window_tag htag, if_neg (by omega), if_neg (by omega)]
  by_cases hmac : (S.hmac.run body key).take 4 = tag
  · have hkeep : (body ++ tag).take ((body ++ tag).length - 8) = out := by
      rw [hlen, ← hout]
      exact List.take_append_of_le_length (by omega)
    rw [if_neg (not_not.2 hmac), if_neg (by omega), hkeep]
    exact iff_of_true rfl hmac
  · rw [if_pos hmac]
    exact iff_of_false nofun hmac

/-- A datagram of less than eight bytes is rejected, with no length below zero, only when no user id
is asked for, it has room for the hash, and the hash is wrong. -/
theorem serverUdpPostDecrypt_short_iff (uid : Bool) {buf : Bytes} (hshort : buf.length < 8) :
    serverUdpPostDecrypt S key uid buf = .reject ↔
      uid = false ∧ 4 ≤ buf.length ∧
        (S.hmac.run (buf.take (buf.length - 4)) key).take 4 ≠ window buf (buf.length - 4) 4 := by
  unfold serverUdpPostDecrypt
  split_ifs with huid hfour hmac
  · exact iff_of_false nofun fun h => by simp [h.1] at huid
  · exact iff_of_false nofun fun h => absurd h.2.1 (Nat.not_le.2 hfour)
  · refine iff_of_true rfl ⟨?_, Nat.not_lt.1 hfour, hmac⟩
    cases uid with
    | false => rfl
    | true => exact absurd ⟨rfl, hshort⟩ huid
  · exact iff_of_false nofun fun h => hmac h.2.2

/-- The client restores what the server sends. -/
theorem clientUdpPostDecrypt_server (S : Suite) (key buf : Bytes) :
    clientUdpPostDecrypt S key (serverUdpPreEncrypt S key buf) = buf := by
  have htag := hmac_take_length S buf key
  unfold clientUdpPostDecrypt serverUdpPreEncrypt
  rw [take_body htag, window_tag htag, List.length_append, htag]
  by_cases hempty : buf = []
  · rw [hempty]
    rfl
  · have hpos := List.length_pos_iff.2 hempty
    rw [if_neg (by omega), if_neg (not_not.2 rfl)]

end Datagram

/-- The round trips of a datagram.  Towards the server the data is restored exactly when the
parameter fits its arrays and the client's key gives the same four bytes of the keyed hash as the
server's, as it does without a parameter.  Towards the client it always is.  A datagram of less than
eight bytes is rejected properly only if no user id is asked for. -/
theorem udp_round_trip_iff (S : Suite) (key param : Bytes) (l : LocalData) (uid : ℕ → UInt8)
    (wanted : Bool) (data buf : Bytes) :
    ((∃ l' out, clientUdpPreEncrypt S key param l uid data = some (l', out) ∧
        serverUdpPostDecrypt S key wanted out = .accept data) ↔
      ∃ user, udpUser S key param l uid = some user ∧
        (S.hmac.run (data ++ window user.1 0 4) key).take 4 =
          (S.hmac.run (data ++ window user.1 0 4) user.2).take 4) ∧
    (l.userKey = [] → param = [] →
      ∃ user, udpUser S key param l uid = some user ∧
        (S.hmac.run (data ++ window user.1 0 4) key).take 4 =
          (S.hmac.run (data ++ window user.1 0 4) user.2).take 4) ∧
    clientUdpPostDecrypt S key (serverUdpPreEncrypt S key data) = data ∧
    (buf.length < 8 → (serverUdpPostDecrypt S key wanted buf = .reject ↔
      wanted = false ∧ 4 ≤ buf.length ∧
        (S.hmac.run (buf.take (buf.length - 4)) key).take 4 ≠ window buf (buf.length - 4) 4)) := by
  refine ⟨?_, ?_, clientUdpPostDecrypt_server S key data, serverUdpPostDecrypt_short_iff wanted⟩
  · have haccept : ∀ user : Bytes × Bytes,
        serverUdpPostDecrypt S key wanted
            ((data ++ window user.1 0 4) ++ (S.hmac.run (data ++ window user.1 0 4) user.2).take 4) =
          .accept data ↔
        (S.hmac.run (data ++ window user.1 0 4) key).take 4 =
          (S.hmac.run (data ++ window user.1 0 4) user.2).take 4 := fun user => by
      refine serverUdpPostDecrypt_accept_iff wanted ?_ (hmac_take_length S _ _) ?_
      · rw [List.length_append, window_length]
        omega
      · rw [List.length_append, window_length, Nat.add_sub_cancel, List.take_left]
    unfold clientUdpPreEncrypt
    cases huser : udpUser S key param l uid with
    | none => exact iff_of_false (by rintro ⟨_, _, ⟨⟩, _⟩) (by rintro ⟨_, ⟨⟩, _⟩)
    | some user =>
        constructor
        · rintro ⟨l', out, ⟨⟩, hout⟩
          exact ⟨user, rfl, (haccept user).1 hout⟩
        · rintro ⟨_, ⟨⟩, hmac⟩
          exact ⟨_, _, rfl, (haccept user).2 hmac⟩
  · intro hkey hparam
    refine ⟨(randBytes uid 4, key), ?_, rfl⟩
    rw [udpUser, hkey, hparam]
    rfl

/-- The first datagram of a client without a parameter, and one that is too short. -/
theorem udp_round_trip_sample :
    (∃ l' out, clientUdpPreEncrypt authAes128Md5 [1] [] (localDataInit 0) (fun _ => 5) [1, 2, 3] =
        some (l', out) ∧ serverUdpPostDecrypt authAes128Md5 [1] true out = .accept [1, 2, 3]) ∧
    ¬ serverUdpPostDecrypt authAes128Md5 [1] true [1, 2, 3] = .reject := by
  have hmain := udp_round_trip_iff authAes128Md5 [1] [] (localDataInit 0) (fun _ => 5) true [1, 2, 3]
    [1, 2, 3]
  exact ⟨hmain.1.2 (hmain.2.1 rfl rfl), fun h => nomatch ((hmain.2.2.2 (by decide)).1 h).1⟩

/-- A client that names a user is not understood by the server, and a datagram of three bytes makes a
length wrap around. -/
theorem udp_user_rejected :
    (∃ l' out, clientUdpPreEncrypt authAes128Md5 [1] (ascii "1:a") (localDataInit 0) (fun _ => 5)
        [1, 2, 3] = some (l', out) ∧ serverUdpPostDecrypt authAes128Md5 [1] true out = .reject) ∧
    serverUdpPostDecrypt authAes128Md5 [1] true [1, 2, 3] = .crash := by
  refine ⟨⟨_, _, rfl, ?_⟩, rfl⟩
  decide +kernel

end AuthAes128
end Obfs
end SsrNative
