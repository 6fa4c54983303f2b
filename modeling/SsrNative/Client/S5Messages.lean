import SsrNative.Client.S5Grammar

/-!
# S5Messages — what the parser takes for a message

The four counted fields are read in the same way (`CountedField`): a byte is stored while the field is not
full, and the end of the field is noticed with the byte that fills it, or with any byte if it is empty.
From this the parser's messages are those of the grammar with a width of at least one byte.
-/

namespace SsrNative
namespace S5

open Lib.Segments

/-! ## Events until the first error -/

section Events

variable (choose : BitVec 32 → AuthMethod) (cut : ℕ → Bool)

/-- What is reported from a state on, until the first error. -/
def events (s : Ctx × UInt8) (n : ℕ) (l : Bytes) : List Report := untilError (byteEvents choose cut s n l)

variable {choose cut}

@[simp] theorem events_nil (s : Ctx × UInt8) (n : ℕ) : events choose cut s n [] = [] := rfl

theorem events_cons (s : Ctx × UInt8) (n : ℕ) (c : UInt8) (cs : Bytes) :
    events choose cut s n (c :: cs) =
      match eventStep choose cut (s, n) c with
      | (s', none) => events choose cut s'.1 s'.2 cs
      | (s', some e) => if e.isError = true then [e] else e :: events choose cut s'.1 s'.2 cs := by
  unfold events byteEvents
  rw [run_cons]
  rcases eventStep choose cut (s, n) c with ⟨s', _ | e⟩
  · rfl
  · rw [List.reduceOption_cons_of_some]
    rfl

variable (choose cut) in
/-- A byte in a stage that does not use `port`. -/
theorem events_stageByte {cx : Ctx} (h0 : cx.stage ≠ .reqDport0) (h1 : cx.stage ≠ .reqDport1)
    (p : UInt8) (n : ℕ) (c : UInt8) (cs : Bytes) :
    ∃ q, events choose cut (cx, p) n (c :: cs) =
      match stageByte cx c with
      | (cx', none) => events choose cut (cx', q) (n + 1) cs
      | (cx', some r) =>
          if (report cx' (n + 1) r).isError = true then [report cx' (n + 1) r]
          else report cx' (n + 1) r :: events choose cut (afterResult choose cx' r, 0) (n + 1) cs := by
  refine ⟨if cut n = true then 0 else p, ?_⟩
  have hparse := parseByte_of_ne h0 h1 (if cut n = true then 0 else p) c
  rw [events_cons]
  rcases hbyte : stageByte cx c with ⟨cx', _ | r⟩
  · rw [hbyte] at hparse
    have hstep := eventStep_none choose cut rfl hparse
    rw [hstep]
  · rw [hbyte] at hparse
    have hstep := eventStep_some choose cut rfl hparse
    rw [hstep]

theorem events_dead {cx : Ctx} (h : cx.stage = .dead) (p : UInt8) (n : ℕ) (l : Bytes) :
    events choose cut (cx, p) n l = [] := by
  induction l generalizing p n with
  | nil => rfl
  | cons c cs ih =>
      obtain ⟨q, hev⟩ := events_stageByte choose cut (show cx.stage ≠ .reqDport0 by simp [h]) (by simp [h]) p n c cs
      -- `s5_dead` swallows every byte
      have hbyte : stageByte cx c = (cx, none) := by simp only [stageByte, h]
      rw [hev, hbyte]
      exact ih q (n + 1)

end Events

/-! ## Counted fields -/

/-- A field of `k` bytes that ends with the result `r`, if with any: `At cx done` is the context when
`done` was read of it, and `Out cx bytes` the one behind it. -/
structure CountedField (k : ℕ) (r : Option Result) (At Out : Ctx → Bytes → Prop) : Prop where
  stage : ∀ cx done, At cx done → cx.stage ≠ .reqDport0 ∧ cx.stage ≠ .reqDport1
  store : ∀ cx done c, At cx done → done.length + 1 < k →
    ∃ cx', stageByte cx c = (cx', none) ∧ At cx' (done ++ [c])
  last : ∀ cx done c, At cx done → done.length + 1 = k →
    ∃ cx', stageByte cx c = (cx', r) ∧ Out cx' (done ++ [c])
  empty : ∀ cx c, At cx [] → k = 0 → ∃ cx', stageByte cx c = (cx', r) ∧ Out cx' []
  noError : ∀ cx n, ∀ x ∈ r, (report cx n x).isError = false

section Fields

variable (choose : BitVec 32 → AuthMethod) (cut : ℕ → Bool)

/-- What is reported behind a field. -/
def behindField (r : Option Result) (cx : Ctx) (q : UInt8) (n : ℕ) (l : Bytes) : List Report :=
  match r with
  | none => events choose cut (cx, q) n l
  | some r => report cx n r :: events choose cut (afterResult choose cx r, 0) n l

variable {choose cut}
variable {k : ℕ} {r : Option Result} {At Out : Ctx → Bytes → Prop}

/-- The byte that ends a field. -/
theorem events_endField (h : CountedField k r At Out) {cx cx' : Ctx} {done : Bytes} (hat : At cx done)
    {c : UInt8} (hbyte : stageByte cx c = (cx', r)) (p : UInt8) (n : ℕ) (cs : Bytes) :
    ∃ q, events choose cut (cx, p) n (c :: cs) = behindField choose cut r cx' q (n + 1) cs := by
  obtain ⟨h0, h1⟩ := h.stage cx done hat
  obtain ⟨q, hev⟩ := events_stageByte choose cut h0 h1 p n c cs
  refine ⟨q, ?_⟩
  rw [hev, hbyte]
  cases r with
  | none => rfl
  | some x =>
      have hno := h.noError cx' (n + 1) x rfl
      simp only [hno, Bool.false_eq_true, if_false, behindField]

/-- The bytes of a field from where `done` was read. -/
theorem events_field (h : CountedField k r At Out) (l : Bytes) {cx : Ctx} {done : Bytes}
    (hat : At cx done) (hdone : done.length < k ∨ k = 0 ∧ done = []) (p : UInt8) (n : ℕ) :
    (l.length < max k 1 - done.length ∧ events choose cut (cx, p) n l = []) ∨
      (max k 1 - done.length ≤ l.length ∧ ∃ cx' q, Out cx' (done ++ l.take (k - done.length)) ∧
        events choose cut (cx, p) n l = behindField choose cut r cx' q (n + (max k 1 - done.length))
          (l.drop (max k 1 - done.length))) := by
  induction l generalizing cx done p n with
  | nil =>
      refine .inl ⟨?_, rfl⟩
      rw [List.length_nil]
      rcases hdone with hlt | ⟨rfl, rfl⟩
      · omega
      · exact Nat.one_pos
  | cons c cs ih =>
      rcases hdone with hlt | ⟨rfl, rfl⟩
      · by_cases hlast : done.length + 1 = k
        · -- the byte that fills the field
          obtain ⟨cx', hbyte, hout⟩ := h.last cx done c hat hlast
          obtain ⟨q, hev⟩ := events_endField h hat hbyte p n cs
          have hone : max k 1 - done.length = 1 := by omega
          have hrest : k - done.length = 1 := by omega
          rw [hone, hrest]
          exact .inr ⟨by simp, cx', q, hout, hev⟩
        · obtain ⟨cx', hbyte, hat'⟩ := h.store cx done c hat (by omega)
          obtain ⟨h0, h1⟩ := h.stage cx done hat
          obtain ⟨q, hev⟩ := events_stageByte choose cut h0 h1 p n c cs
          rw [hbyte] at hev
          have hlen : (done ++ [c]).length = done.length + 1 := by simp
          have hrec := ih hat' (.inl (by rw [hlen]; omega)) q (n + 1)
          have hwidth : max k 1 - done.length = max k 1 - (done ++ [c]).length + 1 := by omega
          have hcount : k - done.length = k - (done ++ [c]).length + 1 := by omega
          rw [hev, hwidth, hcount, List.length_cons]
          rcases hrec with ⟨hshort, hnil⟩ | ⟨hlong, cx'', q', hout, hend⟩
          · exact .inl ⟨by omega, hnil⟩
          · refine .inr ⟨by omega, cx'', q', ?_, ?_⟩
            · rwa [List.take_succ_cons, List.append_cons]
            · rw [List.drop_succ_cons, ← Nat.add_assoc, Nat.add_right_comm]
              exact hend
      · -- an empty field takes the byte
        obtain ⟨cx', hbyte, hout⟩ := h.empty cx c hat rfl
        obtain ⟨q, hev⟩ := events_endField h hat hbyte p n cs
        exact .inr ⟨by simp, cx', q, hout, hev⟩

/-- A whole field. -/
theorem events_fieldStart (h : CountedField k r At Out) {cx : Ctx} (hat : At cx []) (l : Bytes)
    (p : UInt8) (n : ℕ) :
    (l.length < max k 1 ∧ events choose cut (cx, p) n l = []) ∨
      (max k 1 ≤ l.length ∧ ∃ cx' q, Out cx' (l.take k) ∧
        events choose cut (cx, p) n l = behindField choose cut r cx' q (n + max k 1) (l.drop (max k 1))) := by
  have hdone : ([] : Bytes).length < k ∨ k = 0 ∧ ([] : Bytes) = [] := by
    rcases Nat.eq_zero_or_pos k with hzero | hpos
    · exact .inr ⟨hzero, rfl⟩
    · exact .inl hpos
  exact events_field h l hat hdone p n

end Fields

/-! ## The four fields -/

/-- The bit of one offered method. -/
def methodBit (c : UInt8) : BitVec 32 :=
  match c.toNat with
  | 0 => AuthMethod.none.bit
  | 1 => AuthMethod.gssapi.bit
  | 2 => AuthMethod.passwd.bit
  | _ => 0

theorem offered_append (bs : Bytes) (c : UInt8) : offered (bs ++ [c]) = offered bs ||| methodBit c := by
  induction bs with
  | nil =>
      have hone : offered [c] = methodBit c ||| 0 := rfl
      have hzero : offered [] = 0 := rfl
      rw [List.nil_append, hone, hzero, BitVec.or_comm]
  | cons b bs ih =>
      have hcons : ∀ l, offered (b :: l) = methodBit b ||| offered l := fun _ => rfl
      rw [List.cons_append, hcons, hcons, ih, BitVec.or_assoc]

/-- The counter of a field and the length that it is compared with, for each of the three ways a byte is
taken. -/
theorem count_store {arg0 len k : ℕ} {done : Bytes} (h0 : arg0 = done.length) (h1 : len = k)
    (hlt : done.length + 1 < k) : arg0 < len ∧ ¬ arg0 + 1 = len := by omega

theorem count_last {arg0 len k : ℕ} {done : Bytes} (h0 : arg0 = done.length) (h1 : len = k)
    (hlast : done.length + 1 = k) : arg0 < len ∧ arg0 + 1 = len := by omega

theorem count_empty {arg0 len k : ℕ} (h0 : arg0 = 0) (h1 : len = k) (hzero : k = 0) :
    ¬ arg0 < len ∧ arg0 = len := by omega

/-- A byte that is stored in an array of 257 bytes behind the ones before. -/
theorem take_store {v : Vector UInt8 257} {done : Bytes} {i : ℕ} (hi : i = done.length)
    (hlt : done.length < 257) (h : v.toList.take done.length = done) (c : UInt8) :
    (v.setIfInBounds i c).toList.take (done ++ [c]).length = done ++ [c] := by
  have hlen : done.length < v.toList.length := by simpa using hlt
  rw [hi, List.length_append, List.length_singleton, Vector.toList_setIfInBounds, List.take_add_one,
    List.take_set_of_le (Nat.le_refl _), h, List.getElem?_set_self hlen]
  rfl

/-- The last byte of a field of `k` bytes, with the zero behind it. -/
theorem take_last {v : Vector UInt8 257} {done : Bytes} {i j k : ℕ} (hi : i = done.length)
    (hj : j = k) (hk : done.length + 1 = k) (hlt : k ≤ 257) (h : v.toList.take done.length = done)
    (c : UInt8) : ((v.setIfInBounds i c).setIfInBounds j 0).toList.take k = done ++ [c] := by
  have hstore := take_store hi (show done.length < 257 by omega) h c
  rw [List.length_append, List.length_singleton, hk] at hstore
  rw [hj, Vector.toList_setIfInBounds, List.take_set_of_le (Nat.le_refl k)]
  exact hstore

/-- `METHODS`. -/
structure AtMethods (k : ℕ) (cx : Ctx) (done : Bytes) : Prop where
  stage : cx.stage = .methods
  arg0 : cx.arg0 = done.length
  arg1 : cx.arg1 = k
  methods : cx.methods = offered done

theorem stageByte_methods {cx : Ctx} (h : cx.stage = .methods) (h0 : cx.arg0 < cx.arg1) (c : UInt8) :
    stageByte cx c =
      ({ cx with methods := cx.methods ||| methodBit c, arg0 := cx.arg0 + 1 },
        if cx.arg0 + 1 = cx.arg1 then some .authSelect else none) := by
  simp only [stageByte, h, if_pos h0, methodBit]
  generalize c.toNat = i
  match i with
  | 0 => split_ifs <;> rfl
  | 1 => split_ifs <;> rfl
  | 2 => split_ifs <;> rfl
  | _ + 3 =>
      split_ifs <;> simp

theorem methodsField (k : ℕ) :
    CountedField k (some .authSelect) (AtMethods k) fun cx bytes => cx.methods = offered bytes where
  stage cx done h := by simp [h.stage]
  store cx done c h hlt := by
    obtain ⟨h0, h1⟩ := count_store h.arg0 h.arg1 hlt
    have hmethods : cx.methods ||| methodBit c = offered (done ++ [c]) := by rw [offered_append, h.methods]
    refine ⟨{ cx with methods := cx.methods ||| methodBit c, arg0 := cx.arg0 + 1 }, ?_,
      h.stage, by simp [h.arg0], h.arg1, hmethods⟩
    rw [stageByte_methods h.stage h0, if_neg h1]
  last cx done c h hlast := by
    obtain ⟨h0, h1⟩ := count_last h.arg0 h.arg1 hlast
    have hmethods : cx.methods ||| methodBit c = offered (done ++ [c]) := by rw [offered_append, h.methods]
    refine ⟨{ cx with methods := cx.methods ||| methodBit c, arg0 := cx.arg0 + 1 }, ?_, hmethods⟩
    rw [stageByte_methods h.stage h0, if_pos h1]
  -- with no methods the comparison comes one byte late
  empty cx c h hzero := by
    obtain ⟨h0, h1⟩ := count_empty h.arg0 h.arg1 hzero
    refine ⟨cx, ?_, h.methods⟩
    simp only [stageByte, h.stage, if_neg h0, if_pos h1]
  noError cx n x hx := by
    cases hx
    rfl

/-- `UNAME`. -/
structure AtUsername (k : ℕ) (cx : Ctx) (done : Bytes) : Prop where
  stage : cx.stage = .authPwUsername
  arg0 : cx.arg0 = done.length
  userlen : cx.userlen.toNat = k
  username : cx.username.toList.take done.length = done

theorem AtUsername.fits {k : ℕ} {cx : Ctx} {done : Bytes} (h : AtUsername k cx done) : k < 257 := by
  have hlt := cx.userlen.toNat_lt
  have hlen := h.userlen
  omega

/-- The user name is in the context, and the length of the password is next. -/
structure BehindUsername (k : ℕ) (cx : Ctx) (user : Bytes) : Prop where
  stage : cx.stage = .authPwPasslen
  userlen : cx.userlen.toNat = k
  username : cx.username.toList.take k = user

theorem usernameField (k : ℕ) : CountedField k none (AtUsername k) (BehindUsername k) where
  stage cx done h := by simp [h.stage]
  store cx done c h hlt := by
    obtain ⟨h0, h1⟩ := count_store h.arg0 h.userlen hlt
    have hk := h.fits
    refine ⟨{ cx with username := cx.username.setIfInBounds cx.arg0 c, arg0 := cx.arg0 + 1 }, ?_,
      h.stage, by simp [h.arg0], h.userlen, take_store h.arg0 (by omega) h.username c⟩
    simp only [stageByte, h.stage, if_pos h0, if_neg h1]
  last cx done c h hlast := by
    obtain ⟨h0, h1⟩ := count_last h.arg0 h.userlen hlast
    refine ⟨{ cx with
      username := (cx.username.setIfInBounds cx.arg0 c).setIfInBounds cx.userlen.toNat 0
      arg0 := cx.arg0 + 1
      stage := .authPwPasslen }, ?_, rfl, h.userlen,
      take_last h.arg0 h.userlen hlast (Nat.le_of_lt h.fits) h.username c⟩
    simp only [stageByte, h.stage, if_pos h0, if_pos h1]
  empty cx c h hzero := by
    obtain ⟨h0, h1⟩ := count_empty h.arg0 h.userlen hzero
    refine ⟨{ cx with
      username := cx.username.setIfInBounds cx.userlen.toNat 0, stage := .authPwPasslen }, ?_, rfl,
      h.userlen, by rw [hzero, List.take_zero]⟩
    simp only [stageByte, h.stage, if_neg h0, if_pos h1]
  noError cx n x hx := by cases hx

/-- The user name that was read. -/
def HasUser (user : Bytes) (cx : Ctx) : Prop := cx.username.toList.take cx.userlen.toNat = user

/-- `PASSWD`. -/
structure AtPassword (user : Bytes) (k : ℕ) (cx : Ctx) (done : Bytes) : Prop where
  stage : cx.stage = .authPwPassword
  arg0 : cx.arg0 = done.length
  passlen : cx.passlen.toNat = k
  password : cx.password.toList.take done.length = done
  user : HasUser user cx

theorem AtPassword.fits {user : Bytes} {k : ℕ} {cx : Ctx} {done : Bytes} (h : AtPassword user k cx done) :
    k < 257 := by
  have hlt := cx.passlen.toNat_lt
  have hlen := h.passlen
  omega

/-- Both strings are in the context, and the request is next. -/
structure BehindPassword (user : Bytes) (k : ℕ) (cx : Ctx) (pass : Bytes) : Prop where
  stage : cx.stage = .reqVersion
  passlen : cx.passlen.toNat = k
  password : cx.password.toList.take k = pass
  user : HasUser user cx

theorem passwordField (user : Bytes) (k : ℕ) :
    CountedField k (some .authVerify) (AtPassword user k) (BehindPassword user k) where
  stage cx done h := by simp [h.stage]
  store cx done c h hlt := by
    obtain ⟨h0, h1⟩ := count_store h.arg0 h.passlen hlt
    have hk := h.fits
    refine ⟨{ cx with password := cx.password.setIfInBounds cx.arg0 c, arg0 := cx.arg0 + 1 }, ?_,
      h.stage, by simp [h.arg0], h.passlen, take_store h.arg0 (by omega) h.password c, h.user⟩
    simp only [stageByte, h.stage, if_pos h0, if_neg h1]
  last cx done c h hlast := by
    obtain ⟨h0, h1⟩ := count_last h.arg0 h.passlen hlast
    refine ⟨{ cx with
      password := (cx.password.setIfInBounds cx.arg0 c).setIfInBounds cx.passlen.toNat 0
      arg0 := cx.arg0 + 1
      stage := .reqVersion }, ?_, rfl, h.passlen,
      take_last h.arg0 h.passlen hlast (Nat.le_of_lt h.fits) h.password c, h.user⟩
    simp only [stageByte, h.stage, if_pos h0, if_pos h1]
  empty cx c h hzero := by
    obtain ⟨h0, h1⟩ := count_empty h.arg0 h.passlen hzero
    refine ⟨{ cx with
      password := cx.password.setIfInBounds cx.passlen.toNat 0, stage := .reqVersion }, ?_, rfl,
      h.passlen, by rw [hzero, List.take_zero], h.user⟩
    simp only [stageByte, h.stage, if_neg h0, if_pos h1]
  noError cx n x hx := by
    cases hx
    rfl

/-- `ADDR`. -/
structure AtDaddr (cmd : Cmd) (atyp : Atyp) (k : ℕ) (cx : Ctx) (done : Bytes) : Prop where
  stage : cx.stage = .reqDaddr
  arg0 : cx.arg0 = done.length
  arg1 : cx.arg1 = k
  fits : k < 257
  daddr : cx.daddr.toList.take done.length = done
  cmd : cx.cmd = some cmd
  atyp : cx.atyp = some atyp

/-- The address is in the context, and the port is next. -/
structure BehindDaddr (cmd : Cmd) (atyp : Atyp) (k : ℕ) (cx : Ctx) (addr : Bytes) : Prop where
  stage : cx.stage = .reqDport0
  daddr : cx.daddr.toList.take cx.arg1 = addr
  cmd : cx.cmd = some cmd
  atyp : cx.atyp = some atyp

theorem daddrField (cmd : Cmd) (atyp : Atyp) (k : ℕ) :
    CountedField k none (AtDaddr cmd atyp k) (BehindDaddr cmd atyp k) where
  stage cx done h := by simp [h.stage]
  store cx done c h hlt := by
    obtain ⟨h0, h1⟩ := count_store h.arg0 h.arg1 hlt
    have hk := h.fits
    refine ⟨{ cx with daddr := cx.daddr.setIfInBounds cx.arg0 c, arg0 := cx.arg0 + 1 }, ?_,
      h.stage, by simp [h.arg0], h.arg1, h.fits, take_store h.arg0 (by omega) h.daddr c, h.cmd, h.atyp⟩
    simp only [stageByte, h.stage, if_pos h0, if_neg h1]
  last cx done c h hlast := by
    obtain ⟨h0, h1⟩ := count_last h.arg0 h.arg1 hlast
    refine ⟨{ cx with
      daddr := (cx.daddr.setIfInBounds cx.arg0 c).setIfInBounds cx.arg1 0
      arg0 := cx.arg0 + 1
      stage := .reqDport0 }, ?_, rfl, ?_, h.cmd, h.atyp⟩
    · simp only [stageByte, h.stage, if_pos h0, if_pos h1]
    · dsimp only
      rw [h.arg1]
      exact take_last h.arg0 rfl hlast (Nat.le_of_lt h.fits) h.daddr c
  -- the byte is neither stored nor counted, but it is gone
  empty cx c h hzero := by
    obtain ⟨h0, h1⟩ := count_empty h.arg0 h.arg1 hzero
    refine ⟨{ cx with daddr := cx.daddr.setIfInBounds cx.arg1 0, stage := .reqDport0 }, ?_, rfl, ?_,
      h.cmd, h.atyp⟩
    · simp only [stageByte, h.stage, if_neg h0, if_pos h1]
    · dsimp only
      rw [h.arg1, hzero, List.take_zero]
  noError cx n x hx := by cases hx

/-! ## Messages -/

section Messages

variable {choose : BitVec 32 → AuthMethod} {cut : ℕ → Bool}

/-- The port that is read when the second byte of it stands behind `n` bytes. -/
def keptPort (cut : ℕ → Bool) (n : ℕ) (p₀ p₁ : UInt8) : ℕ :=
  (if cut n = true then 0 else p₀).toNat * 256 + p₁.toNat

/-- The width of a field in the parser. -/
def fieldWidth (k : ℕ) : ℕ := max k 1

theorem fieldWidth_of_ne {k : ℕ} (h : k ≠ 0) : fieldWidth k = k := by
  unfold fieldWidth
  omega

theorem events_port {cmd : Cmd} {atyp : Atyp} {k : ℕ} {cx : Ctx} {addr : Bytes}
    (h : BehindDaddr cmd atyp k cx addr) (p : UInt8) (n : ℕ) (l : Bytes) :
    events choose cut (cx, p) n l =
      match l with
      | p₀ :: p₁ :: _ => [.execCmd (n + 2) (some cmd) (some atyp) addr (keptPort cut (n + 1) p₀ p₁)]
      | _ => [] := by
  have hfirst : ∀ q c, parseByte cx q c = ({ cx with stage := .reqDport1 }, c, none) := by
    intro q c
    simp only [parseByte, h.stage]
  rcases l with _ | ⟨p₀, _ | ⟨p₁, l⟩⟩
  · rfl
  · have hstep := eventStep_none choose cut (p := p) (n := n) rfl (hfirst _ p₀)
    rw [events_cons, hstep]
    rfl
  · -- the first byte is in `port[0]`, if no call has zeroed it since
    have hsecond : ∀ q, parseByte { cx with stage := .reqDport1 } q p₁ =
        ({ cx with dport := q.toNat * 256 + p₁.toNat, stage := .dead }, q, some .execCmd) :=
      fun q => rfl
    have hstep := eventStep_none choose cut (p := p) (n := n) rfl (hfirst _ p₀)
    have hstep' := eventStep_some choose cut (p := p₀) (n := n + 1) rfl (hsecond _)
    rw [events_cons, hstep]
    dsimp only
    rw [events_cons, hstep']
    dsimp only
    have hafter : ∀ cx, afterResult choose cx .execCmd = cx := fun _ => if_neg (by decide)
    rw [hafter, events_dead rfl]
    simp only [report, Report.isError, Bool.false_eq_true, if_false, h.daddr, h.cmd, h.atyp, keptPort]

theorem events_addressPort {cmd : Cmd} {atyp : Atyp} {k : ℕ} {cx : Ctx} (h : AtDaddr cmd atyp k cx [])
    (p : UInt8) (n : ℕ) (l : Bytes) :
    events choose cut (cx, p) n l = addressPort fieldWidth (keptPort cut) cmd atyp k n l := by
  have hwidth : fieldWidth k = max k 1 := rfl
  -- the segment ends inside the address, or behind it
  rcases events_fieldStart (daddrField cmd atyp k) h l p n with ⟨hshort, hev⟩ | ⟨hlong, cx', q, hout, hev⟩
  · have hnil : l.drop (fieldWidth k) = [] := List.drop_eq_nil_of_le (Nat.le_of_lt (hwidth ▸ hshort))
    rw [hev, addressPort, hnil]
  · rw [hev, behindField, events_port hout, addressPort, hwidth]
    cases hdrop : l.drop (max k 1) with
    | nil => rfl
    | cons p₀ rest =>
        cases rest with
        | nil => rfl
        | cons p₁ rest => rfl

variable (choose cut) in
/-- A byte that is no error, in a stage that does not use `port`. -/
theorem events_next {cx cx' : Ctx} {c : UInt8} (h0 : cx.stage ≠ .reqDport0) (h1 : cx.stage ≠ .reqDport1)
    (hbyte : stageByte cx c = (cx', none)) (p : UInt8) (n : ℕ) (cs : Bytes) :
    ∃ q, events choose cut (cx, p) n (c :: cs) = events choose cut (cx', q) (n + 1) cs := by
  obtain ⟨q, hev⟩ := events_stageByte choose cut h0 h1 p n c cs
  rw [hbyte] at hev
  exact ⟨q, hev⟩

variable (choose cut) in
theorem events_error {cx cx' : Ctx} {c : UInt8} {r : Result} (h0 : cx.stage ≠ .reqDport0)
    (h1 : cx.stage ≠ .reqDport1) (hbyte : stageByte cx c = (cx', some r))
    (hr : ∀ cx n, report cx n r = .error n r) (p : UInt8) (n : ℕ) (cs : Bytes) :
    events choose cut (cx, p) n (c :: cs) = [.error (n + 1) r] := by
  obtain ⟨q, hev⟩ := events_stageByte choose cut h0 h1 p n c cs
  have hno : (Report.error (n + 1) r).isError = true := rfl
  rw [hev, hbyte]
  simp only [hr, hno, if_true]

/-- The request behind a version byte, a command and a reserved byte. -/
theorem events_atyp {cmd : Cmd} {cx : Ctx} (hstage : cx.stage = .reqAtyp) (hcmd : cx.cmd = some cmd)
    (p : UInt8) (n : ℕ) (atyp : UInt8) (l : Bytes) :
    events choose cut (cx, p) n (atyp :: l) =
      match atyp.toNat with
      | 1 => addressPort fieldWidth (keptPort cut) cmd .ipv4 4 (n + 1) l
      | 3 =>
          match l with
          | [] => []
          | len :: l => addressPort fieldWidth (keptPort cut) cmd .host len.toNat (n + 2) l
      | 4 => addressPort fieldWidth (keptPort cut) cmd .ipv6 16 (n + 1) l
      | _ => [.error (n + 1) .badAtyp] := by
  have h0 : cx.stage ≠ .reqDport0 := by simp [hstage]
  have h1 : cx.stage ≠ .reqDport1 := by simp [hstage]
  match hatyp : atyp.toNat with
  | 1 =>
      have hbyte : stageByte cx atyp =
          ({ cx with arg0 := 0, stage := .reqDaddr, atyp := some .ipv4, arg1 := 4 }, none) := by
        simp only [stageByte, hstage, hatyp]
      obtain ⟨q, hev⟩ := events_next choose cut h0 h1 hbyte p n l
      -- four bytes of address follow
      have hat : AtDaddr cmd .ipv4 4
          { cx with arg0 := 0, stage := .reqDaddr, atyp := some .ipv4, arg1 := 4 } [] :=
        ⟨rfl, rfl, rfl, by omega, rfl, hcmd, rfl⟩
      rw [hev]
      exact events_addressPort hat q (n + 1) l
  | 3 =>
      have hbyte : stageByte cx atyp =
          ({ cx with arg0 := 0, stage := .reqAtypHost, atyp := some .host, arg1 := 0 }, none) := by
        simp only [stageByte, hstage, hatyp]
      obtain ⟨q, hev⟩ := events_next choose cut h0 h1 hbyte p n l
      rw [hev]
      cases l with
      | nil => rfl
      | cons len l =>
          have hlen := len.toNat_lt
          -- one more byte for the length of the name
          have hlength :
              stageByte { cx with arg0 := 0, stage := .reqAtypHost, atyp := some .host, arg1 := 0 } len =
                ({ cx with arg0 := 0, stage := .reqDaddr, atyp := some .host, arg1 := len.toNat }, none) :=
            rfl
          obtain ⟨q', hev'⟩ := events_next choose cut (by simp) (by simp) hlength q (n + 1) l
          rw [hev']
          have hat : AtDaddr cmd .host len.toNat
              { cx with arg0 := 0, stage := .reqDaddr, atyp := some .host, arg1 := len.toNat } [] :=
            ⟨rfl, rfl, rfl, by omega, rfl, hcmd, rfl⟩
          exact events_addressPort hat q' (n + 2) l
  | 4 =>
      have hbyte : stageByte cx atyp =
          ({ cx with arg0 := 0, stage := .reqDaddr, atyp := some .ipv6, arg1 := 16 }, none) := by
        simp only [stageByte, hstage, hatyp]
      obtain ⟨q, hev⟩ := events_next choose cut h0 h1 hbyte p n l
      -- sixteen bytes of address follow
      have hat : AtDaddr cmd .ipv6 16
          { cx with arg0 := 0, stage := .reqDaddr, atyp := some .ipv6, arg1 := 16 } [] :=
        ⟨rfl, rfl, rfl, by omega, rfl, hcmd, rfl⟩
      rw [hev]
      exact events_addressPort hat q (n + 1) l
  | 0 =>
      have hbyte : stageByte cx atyp = ({ cx with arg0 := 0 }, some .badAtyp) := by
        simp only [stageByte, hstage, hatyp]
      exact events_error choose cut h0 h1 hbyte (fun _ _ => rfl) p n l
  | 2 =>
      have hbyte : stageByte cx atyp = ({ cx with arg0 := 0 }, some .badAtyp) := by
        simp only [stageByte, hstage, hatyp]
      exact events_error choose cut h0 h1 hbyte (fun _ _ => rfl) p n l
  | m + 5 =>
      have hbyte : stageByte cx atyp = ({ cx with arg0 := 0 }, some .badAtyp) := by
        simp only [stageByte, hstage, hatyp]
      exact events_error choose cut h0 h1 hbyte (fun _ _ => rfl) p n l

theorem stageByte_command {cx : Ctx} (hstage : cx.stage = .reqCmd) (c : UInt8) :
    stageByte cx c =
      match command c with
      | none => (cx, some .badCmd)
      | some cmd => ({ cx with cmd := some cmd, stage := .reqReserved }, none) := by
  simp only [stageByte, hstage, command]
  generalize c.toNat = i
  match i with
  | 0 => rfl
  | 1 => rfl
  | 2 => rfl
  | 3 => rfl
  | _ + 4 => rfl

theorem events_requestMessage {cx : Ctx} (hstage : cx.stage = .reqVersion) (p : UInt8) (n : ℕ)
    (l : Bytes) :
    events choose cut (cx, p) n l = requestMessage fieldWidth (keptPort cut) n l := by
  cases l with
  | nil => rfl
  | cons ver l =>
      have h0 : cx.stage ≠ .reqDport0 := by simp [hstage]
      have h1 : cx.stage ≠ .reqDport1 := by simp [hstage]
      by_cases hver : ver ≠ 5
      · have hbyte : stageByte cx ver = (cx, some .badVersion) := by
          simp only [stageByte, hstage, if_pos hver]
        unfold requestMessage
        dsimp only
        rw [if_pos hver]
        exact events_error choose cut h0 h1 hbyte (fun _ _ => rfl) p n l
      · -- the version is right; next is the command
        have hbyte : stageByte cx ver = ({ cx with stage := .reqCmd }, none) := by
          simp only [stageByte, hstage, if_neg hver]
        obtain ⟨q, hev⟩ := events_next choose cut h0 h1 hbyte p n l
        unfold requestMessage
        dsimp only
        rw [hev, if_neg hver]
        cases l with
        | nil => rfl
        | cons c l =>
            have hcommand : stageByte { cx with stage := .reqCmd } c = _ := stageByte_command rfl c
            dsimp only
            cases hcmd : command c with
            | none =>
                rw [hcmd] at hcommand
                exact events_error choose cut (by simp) (by simp) hcommand (fun _ _ => rfl) q (n + 1) l
            | some cmd =>
                rw [hcmd] at hcommand
                obtain ⟨q', hev'⟩ := events_next choose cut (by simp) (by simp) hcommand q (n + 1) l
                -- the reserved byte is not looked at
                have hreserved : ∀ rsv, stageByte { cx with cmd := some cmd, stage := .reqReserved } rsv =
                    ({ cx with cmd := some cmd, stage := .reqAtyp }, none) := fun _ => rfl
                rw [hev']
                rcases l with _ | ⟨rsv, _ | ⟨atyp, l⟩⟩
                · rfl
                · obtain ⟨q'', hev''⟩ := events_next choose cut (by simp) (by simp) (hreserved rsv) q'
                    (n + 1 + 1) []
                  exact hev''
                · obtain ⟨q'', hev''⟩ := events_next choose cut (by simp) (by simp) (hreserved rsv) q'
                    (n + 1 + 1) (atyp :: l)
                  exact hev''.trans (events_atyp rfl rfl q'' (n + 1 + 1 + 1) atyp l)

/-- The password behind the user name, and the request. -/
theorem events_password {user : Bytes} {k : ℕ} {cx : Ctx} (hat : AtPassword user k cx []) (p : UInt8)
    (n : ℕ) (l : Bytes) :
    events choose cut (cx, p) n l =
      if l.length < fieldWidth k then []
      else
        .authVerify (n + fieldWidth k) user (l.take k) ::
          requestMessage fieldWidth (keptPort cut) (n + fieldWidth k) (l.drop (fieldWidth k)) := by
  have hwidth : fieldWidth k = max k 1 := rfl
  have hafter : ∀ cx, afterResult choose cx .authVerify = cx := fun _ => if_neg (by decide)
  rw [hwidth]
  rcases events_fieldStart (passwordField user k) hat l p n with ⟨hshort, hev⟩ | ⟨hlong, cx', q, hout, hev⟩
  · rw [hev, if_pos hshort]
  · rw [hev, if_neg (Nat.not_lt.2 hlong), behindField, hafter, events_requestMessage hout.stage, report,
      hout.passlen, hout.password]
    have huser := hout.user
    rw [HasUser] at huser
    rw [huser]

theorem events_passwordMessage {cx : Ctx} (hstage : cx.stage = .authPwVersion) (p : UInt8) (n : ℕ)
    (l : Bytes) :
    events choose cut (cx, p) n l = passwordMessage fieldWidth (keptPort cut) n l := by
  cases l with
  | nil => rfl
  | cons ver l =>
      have h0 : cx.stage ≠ .reqDport0 := by simp [hstage]
      have h1 : cx.stage ≠ .reqDport1 := by simp [hstage]
      unfold passwordMessage
      dsimp only
      by_cases hver : ver ≠ 1
      · have hbyte : stageByte cx ver = (cx, some .badVersion) := by
          simp only [stageByte, hstage, if_pos hver]
        rw [if_pos hver]
        exact events_error choose cut h0 h1 hbyte (fun _ _ => rfl) p n l
      · have hbyte : stageByte cx ver = ({ cx with stage := .authPwUserlen }, none) := by
          simp only [stageByte, hstage, if_neg hver]
        obtain ⟨q, hev⟩ := events_next choose cut h0 h1 hbyte p n l
        rw [hev, if_neg hver]
        cases l with
        | nil => rfl
        | cons ulen l =>
            have hlen : stageByte { cx with stage := .authPwUserlen } ulen =
                ({ cx with arg0 := 0, userlen := ulen, stage := .authPwUsername }, none) := rfl
            obtain ⟨q', hev'⟩ := events_next choose cut (by simp) (by simp) hlen q (n + 1) l
            have hat : AtUsername ulen.toNat
                { cx with arg0 := 0, userlen := ulen, stage := .authPwUsername } [] :=
              ⟨rfl, rfl, rfl, rfl⟩
            have hwidth : fieldWidth ulen.toNat = max ulen.toNat 1 := rfl
            rw [hev']
            dsimp only
            rcases events_fieldStart (usernameField ulen.toNat) hat l q' (n + 1 + 1) with
              ⟨hshort, hend⟩ | ⟨hlong, cx', q'', hout, hend⟩
            · have hnil : l.drop (fieldWidth ulen.toNat) = [] :=
                List.drop_eq_nil_of_le (Nat.le_of_lt (hwidth ▸ hshort))
              rw [hend, hnil]
            · rw [hend, behindField, ← hwidth]
              cases hdrop : l.drop (fieldWidth ulen.toNat) with
              | nil => rfl
              | cons plen l' =>
                  have hlen' : stageByte cx' plen =
                      ({ cx' with arg0 := 0, passlen := plen, stage := .authPwPassword }, none) := by
                    simp only [stageByte, hout.stage]
                  obtain ⟨q₃, hev₃⟩ := events_next choose cut (by simp [hout.stage]) (by simp [hout.stage])
                    hlen' q'' (n + 1 + 1 + fieldWidth ulen.toNat) l'
                  have huser : HasUser (l.take ulen.toNat)
                      { cx' with arg0 := 0, passlen := plen, stage := .authPwPassword } := by
                    have hname := hout.username
                    rw [← hout.userlen] at hname
                    rw [HasUser, ← hout.userlen]
                    exact hname
                  have hat' : AtPassword (l.take ulen.toNat) plen.toNat
                      { cx' with arg0 := 0, passlen := plen, stage := .authPwPassword } [] :=
                    ⟨rfl, rfl, rfl, rfl, huser⟩
                  have hn : n + 1 + 1 + fieldWidth ulen.toNat + 1 = n + 3 + fieldWidth ulen.toNat := by
                    omega
                  rw [hev₃, events_password hat', hn]

/-- The parser's messages: those of the grammar with fields that are never empty, and with a port that may
have lost its first byte. -/
theorem events_eq_messages (hchoose : ∀ methods, choose methods ≠ .gssapi) (l : Bytes) :
    events choose cut (ctxCreate, 0) 0 l = messages fieldWidth (keptPort cut) choose l := by
  cases l with
  | nil => rfl
  | cons ver l =>
      unfold messages
      dsimp only
      by_cases hver : ver ≠ 5
      · have hbyte : stageByte ctxCreate ver = (ctxCreate, some .badVersion) := by
          simp only [stageByte, ctxCreate, if_pos hver]
        rw [if_pos hver]
        exact events_error choose cut (by simp [ctxCreate]) (by simp [ctxCreate]) hbyte (fun _ _ => rfl)
          0 0 l
      · have hbyte : stageByte ctxCreate ver = ({ ctxCreate with stage := .nmethods }, none) := by
          simp only [stageByte, ctxCreate, if_neg hver]
        obtain ⟨q, hev⟩ := events_next choose cut (by simp [ctxCreate]) (by simp [ctxCreate]) hbyte 0 0 l
        rw [hev, if_neg hver]
        cases l with
        | nil => rfl
        | cons nmethods l =>
            have hlen : stageByte { ctxCreate with stage := .nmethods } nmethods =
                ({ ctxCreate with arg1 := nmethods.toNat, stage := .methods }, none) := rfl
            obtain ⟨q', hev'⟩ := events_next choose cut (by simp) (by simp) hlen q (0 + 1) l
            have hat : AtMethods nmethods.toNat
                { ctxCreate with arg1 := nmethods.toNat, stage := .methods } [] := ⟨rfl, rfl, rfl, rfl⟩
            have hwidth : fieldWidth nmethods.toNat = max nmethods.toNat 1 := rfl
            rw [hev']
            dsimp only
            rw [hwidth]
            rcases events_fieldStart (methodsField nmethods.toNat) hat l q' (0 + 1 + 1) with
              ⟨hshort, hend⟩ | ⟨hlong, cx', q'', hout, hend⟩
            · rw [hend, if_pos hshort]
            · rw [hend, if_neg (Nat.not_lt.2 hlong), behindField, report, hout, afterResult, if_pos rfl,
                hout]
              congr 1
              cases hmethod : choose (offered (l.take nmethods.toNat)) with
              | none => exact events_requestMessage rfl 0 _ _
              | passwd => exact events_passwordMessage rfl 0 _ _
              | gssapi => exact absurd hmethod (hchoose _)

end Messages

end S5
end SsrNative
