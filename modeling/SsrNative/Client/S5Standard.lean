import SsrNative.Client.S5Messages

/-!
# S5Standard — where the parser is the grammar

A message is read as SOCKS5 says exactly if none of its counted fields is empty and no segment starts with
the second byte of a port whose first byte is not zero (`grammar_iff`).  Only an empty user name can go
unnoticed, while too few bytes have followed it.
-/

namespace SsrNative
namespace S5

open Lib.Segments

/-! ## Regular messages -/

section Regular

variable (cut : ℕ → Bool)

/-- An address of `k` bytes behind `n` bytes: it is not empty, or its message is not complete, and the first
port byte is not lost. -/
def AddressRegular (k n : ℕ) (l : Bytes) : Prop :=
  match l.drop k with
  | p₀ :: _ :: _ => k ≠ 0 ∧ (cut (n + k + 1) = true → p₀ = 0)
  | _ => True

def RequestRegular (n : ℕ) (l : Bytes) : Prop :=
  match l with
  | ver :: c :: _ :: atyp :: l =>
      ver = 5 → (command c).isSome = true →
        match atyp.toNat with
        | 1 => AddressRegular cut 4 (n + 4) l
        | 3 =>
            match l with
            | [] => True
            | len :: l => AddressRegular cut len.toNat (n + 5) l
        | 4 => AddressRegular cut 16 (n + 4) l
        | _ => True
  | _ => True

/-- Behind an empty user name the length of the password is skipped and its first byte is taken for the
length, so that nothing must be complete, neither as it is meant nor as it is read. -/
def EmptyUserRegular (l : Bytes) : Prop :=
  match l with
  | [] => True
  | plen :: l =>
      l.length < plen.toNat ∧
        match l with
        | [] => True
        | p :: l => l.length < max p.toNat 1

def PasswordRegular (n : ℕ) (l : Bytes) : Prop :=
  match l with
  | ver :: ulen :: l =>
      ver = 1 →
        if ulen.toNat = 0 then EmptyUserRegular l
        else
          match l.drop ulen.toNat with
          | [] => True
          | plen :: l =>
              plen.toNat ≠ 0 ∧
                (plen.toNat ≤ l.length →
                  RequestRegular cut (n + 3 + ulen.toNat + plen.toNat) (l.drop plen.toNat))
  | _ => True

def MessagesRegular (choose : BitVec 32 → AuthMethod) (l : Bytes) : Prop :=
  match l with
  | ver :: nmethods :: l =>
      ver = 5 →
        nmethods.toNat ≠ 0 ∧
          (nmethods.toNat ≤ l.length →
            match choose (offered (l.take nmethods.toNat)) with
            | .none => RequestRegular cut (2 + nmethods.toNat) (l.drop nmethods.toNat)
            | .passwd => PasswordRegular cut (2 + nmethods.toNat) (l.drop nmethods.toNat)
            | .gssapi => True)
  | _ => True

end Regular

/-! ## Message by message -/

section Compare

variable {cut : ℕ → Bool}

theorem standardPort_eq_iff (cut : ℕ → Bool) (n : ℕ) (p₀ p₁ : UInt8) :
    standardPort n p₀ p₁ = keptPort cut n p₀ p₁ ↔ (cut n = true → p₀ = 0) := by
  unfold standardPort keptPort
  by_cases hcut : cut n = true
  · rw [if_pos hcut]
    constructor
    · intro h _
      refine UInt8.toNat_inj.1 ?_
      rw [UInt8.toNat_zero] at h ⊢
      omega
    · intro h
      rw [h hcut]
  · rw [if_neg hcut]
    exact iff_of_true rfl fun h => absurd h hcut

theorem addressPort_eq_iff (cmd : Cmd) (atyp : Atyp) (k n : ℕ) (l : Bytes) :
    addressPort standardWidth standardPort cmd atyp k n l =
        addressPort fieldWidth (keptPort cut) cmd atyp k n l ↔ AddressRegular cut k n l := by
  unfold addressPort AddressRegular standardWidth
  -- an empty address: the parser reads the port one byte later than the standard
  by_cases hk : k = 0
  · subst hk
    have hone : fieldWidth 0 = 1 := rfl
    rw [hone, List.drop_zero]
    match l with
    | [] => exact iff_of_true rfl trivial
    | [p₀] => exact iff_of_true rfl trivial
    | [p₀, p₁] => exact iff_of_false nofun fun h => h.1 rfl
    | p₀ :: p₁ :: p₂ :: l =>
        refine iff_of_false ?_ fun h => h.1 rfl
        intro h
        simp only [List.drop_succ_cons, List.drop_zero, List.cons.injEq, Report.execCmd.injEq] at h
        omega
  · rw [fieldWidth_of_ne hk]
    match l.drop k with
    | [] => exact iff_of_true rfl trivial
    | [p₀] => exact iff_of_true rfl trivial
    | p₀ :: p₁ :: _ =>
        dsimp only
        rw [← standardPort_eq_iff cut (n + k + 1) p₀ p₁]
        simp [hk]

theorem requestMessage_eq_iff (n : ℕ) (l : Bytes) :
    requestMessage standardWidth standardPort n l = requestMessage fieldWidth (keptPort cut) n l ↔
      RequestRegular cut n l := by
  rcases l with _ | ⟨ver, _ | ⟨c, _ | ⟨rsv, _ | ⟨atyp, l⟩⟩⟩⟩
  · exact iff_of_true rfl trivial
  · refine iff_of_true ?_ trivial
    unfold requestMessage
    rfl
  · refine iff_of_true ?_ trivial
    unfold requestMessage
    rfl
  · refine iff_of_true ?_ trivial
    unfold requestMessage
    rfl
  · unfold requestMessage RequestRegular
    dsimp only
    by_cases hver : ver = 5
    · rw [if_neg (not_not.2 hver), if_neg (not_not.2 hver)]
      cases command c with
      | none => exact iff_of_true rfl (by simp)
      | some cmd =>
          simp only [hver, Option.isSome_some, true_implies]
          rcases atyp.toNat with _ | _ | _ | _ | _ | m
          · exact iff_of_true rfl trivial
          · exact addressPort_eq_iff cmd .ipv4 4 (n + 4) l
          · exact iff_of_true rfl trivial
          · cases l with
            | nil => exact iff_of_true rfl trivial
            | cons len l => exact addressPort_eq_iff cmd .host len.toNat (n + 5) l
          · exact addressPort_eq_iff cmd .ipv6 16 (n + 4) l
          · exact iff_of_true rfl trivial
    · rw [if_pos hver, if_pos hver]
      exact iff_of_true rfl fun h => absurd h hver

/-- What follows `ULEN`, when it is zero. -/
theorem emptyUser_eq_iff (cut : ℕ → Bool) (n : ℕ) (l : Bytes) :
    (match l with
      | [] => []
      | plen :: l' =>
          if l'.length < standardWidth plen.toNat then []
          else
            Report.authVerify (n + 3 + standardWidth 0 + standardWidth plen.toNat) (l.take 0)
                (l'.take plen.toNat) ::
              requestMessage standardWidth standardPort
                (n + 3 + standardWidth 0 + standardWidth plen.toNat) (l'.drop (standardWidth plen.toNat))) =
      (match l.drop 1 with
        | [] => []
        | plen :: l' =>
            if l'.length < fieldWidth plen.toNat then []
            else
              Report.authVerify (n + 3 + fieldWidth 0 + fieldWidth plen.toNat) (l.take 0)
                  (l'.take plen.toNat) ::
                requestMessage fieldWidth (keptPort cut) (n + 3 + fieldWidth 0 + fieldWidth plen.toNat)
                  (l'.drop (fieldWidth plen.toNat))) ↔
      EmptyUserRegular l := by
  cases l with
  | nil => exact iff_of_true rfl trivial
  | cons plen l =>
      have hstd : standardWidth plen.toNat = plen.toNat := rfl
      unfold EmptyUserRegular
      dsimp only
      rw [List.drop_succ_cons, List.drop_zero, hstd]
      by_cases hlen : l.length < plen.toNat
      · rw [if_pos hlen]
        cases l with
        | nil => exact iff_of_true rfl ⟨hlen, trivial⟩
        | cons p l =>
            dsimp only
            by_cases hshort : l.length < fieldWidth p.toNat
            · rw [if_pos hshort]
              exact iff_of_true rfl ⟨hlen, hshort⟩
            · rw [if_neg hshort]
              exact iff_of_false nofun fun h => hshort h.2
      · -- the message is complete, and what is reported is about other bytes
        rw [if_neg hlen]
        refine iff_of_false ?_ fun h => hlen h.1
        cases l with
        | nil => nofun
        | cons p l =>
            dsimp only
            split_ifs with hshort
            · nofun
            · intro h
              simp only [List.cons.injEq, Report.authVerify.injEq, true_and] at h
              obtain ⟨⟨hn, htake⟩, -⟩ := h
              have htake' := congrArg List.length htake
              rw [List.length_take, List.length_take] at htake'
              rw [List.length_cons] at htake' hlen
              unfold standardWidth fieldWidth at hn
              omega

theorem passwordMessage_eq_iff (n : ℕ) (l : Bytes) :
    passwordMessage standardWidth standardPort n l = passwordMessage fieldWidth (keptPort cut) n l ↔
      PasswordRegular cut n l := by
  rcases l with _ | ⟨ver, _ | ⟨ulen, l⟩⟩
  · exact iff_of_true rfl trivial
  · refine iff_of_true ?_ trivial
    unfold passwordMessage
    rfl
  · unfold passwordMessage PasswordRegular
    dsimp only
    by_cases hver : ver = 1
    · rw [if_neg (not_not.2 hver), if_neg (not_not.2 hver)]
      simp only [hver, true_implies]
      -- an empty user name is the case of `emptyUser_eq_iff`
      by_cases hulen : ulen.toNat = 0
      · have hone : fieldWidth 0 = 1 := rfl
        have hdrop : l.drop (standardWidth 0) = l := rfl
        rw [if_pos hulen, hulen, hdrop, ← emptyUser_eq_iff cut n l]
        rfl
      · rw [if_neg hulen, fieldWidth_of_ne hulen]
        have hstd : standardWidth ulen.toNat = ulen.toNat := rfl
        rw [hstd]
        cases l.drop ulen.toNat with
        | nil => exact iff_of_true rfl trivial
        | cons plen l' =>
            dsimp only
            -- an empty password: the two answer after different numbers of bytes
            by_cases hplen : plen.toNat = 0
            · refine iff_of_false ?_ fun h => h.1 hplen
              have hshort : ¬ l'.length < standardWidth 0 := Nat.not_lt_zero _
              rw [hplen, if_neg hshort]
              split_ifs
              · simp
              · intro h
                simp only [List.cons.injEq, Report.authVerify.injEq] at h
                have hn := h.1.1
                unfold standardWidth fieldWidth at hn
                omega
            · rw [fieldWidth_of_ne hplen]
              have hstd' : standardWidth plen.toNat = plen.toNat := rfl
              rw [hstd']
              by_cases hshort : l'.length < plen.toNat
              · rw [if_pos hshort, if_pos hshort]
                exact iff_of_true rfl ⟨hplen, fun h => absurd hshort (Nat.not_lt.2 h)⟩
              · rw [if_neg hshort, if_neg hshort, List.cons.injEq, requestMessage_eq_iff]
                simp [hplen, Nat.not_lt.1 hshort]
    · rw [if_pos hver, if_pos hver]
      exact iff_of_true rfl fun h => absurd h hver

theorem messages_eq_iff (choose : BitVec 32 → AuthMethod) (l : Bytes) :
    standard choose l = messages fieldWidth (keptPort cut) choose l ↔ MessagesRegular cut choose l := by
  unfold standard
  rcases l with _ | ⟨ver, _ | ⟨nmethods, l⟩⟩
  · exact iff_of_true rfl trivial
  · refine iff_of_true ?_ trivial
    unfold messages
    rfl
  · unfold messages MessagesRegular
    dsimp only
    by_cases hver : ver = 5
    · rw [if_neg (not_not.2 hver), if_neg (not_not.2 hver)]
      simp only [hver, true_implies]
      -- no methods: the answer is due after two bytes, and does not come
      by_cases hn : nmethods.toNat = 0
      · refine iff_of_false ?_ fun h => h.1 hn
        have hshort : ¬ l.length < standardWidth 0 := Nat.not_lt_zero _
        rw [hn, if_neg hshort]
        split_ifs
        · simp
        · intro h
          simp only [List.cons.injEq, Report.authSelect.injEq] at h
          exact absurd h.1.1 (by decide)
      · rw [fieldWidth_of_ne hn]
        have hstd : standardWidth nmethods.toNat = nmethods.toNat := rfl
        rw [hstd]
        by_cases hshort : l.length < nmethods.toNat
        · rw [if_pos hshort, if_pos hshort]
          exact iff_of_true rfl ⟨hn, fun h => absurd hshort (Nat.not_lt.2 h)⟩
        · have hlong := Nat.not_lt.1 hshort
          rw [if_neg hshort, if_neg hshort, List.cons.injEq]
          simp only [true_and, hlong, true_implies, ne_eq, hn, not_false_eq_true]
          cases choose (offered (l.take nmethods.toNat)) with
          | none => exact requestMessage_eq_iff _ _
          | passwd => exact passwordMessage_eq_iff _ _
          | gssapi => exact iff_of_true rfl trivial
    · rw [if_pos hver, if_pos hver]
      exact iff_of_true rfl fun h => absurd h hver

end Compare

/-- The calls of the parser report what the grammar has for the bytes exactly if the messages are regular;
`cut` marks where the segments start. -/
theorem grammar_iff (choose : BitVec 32 → AuthMethod) (hchoose : ∀ methods, choose methods ≠ .gssapi)
    (segs : List Bytes) :
    reportAll choose segs = standard choose segs.flatten ↔
      MessagesRegular (fun n => decide (n ∈ starts 0 segs)) choose segs.flatten := by
  have hrun : reportAll choose segs =
      events choose (fun n => decide (n ∈ starts 0 segs)) (ctxCreate, 0) 0 segs.flatten := by
    rw [reportAll, events, ← run_reportSegment_eq choose segs ctxCreate 0 0]
    intro m _ _
    exact decide_eq_true_iff
  rw [hrun, events_eq_messages hchoose, ← messages_eq_iff]
  exact eq_comm

/-- No authentication, then CONNECT to `a.b`, port 80, in two segments. -/
theorem grammar_iff_sample :
    reportAll (fun _ => .none) [[5, 1, 0], [5, 1, 0, 3, 3, 97, 46, 98, 0, 80]] =
      [.authSelect 3 1, .execCmd 13 (some .tcpConnect) (some .host) [97, 46, 98] 80] := by
  refine ((grammar_iff (fun _ => .none) (fun _ => nofun) _).2 ?_).trans ?_
  · exact fun _ => ⟨by decide, fun _ => fun _ _ => ⟨by decide, fun h => absurd h (by decide)⟩⟩
  · decide

/-- An empty list of methods: the answer is due after two bytes, and does not come. -/
theorem empty_methods_unanswered :
    reportAll (fun _ => .none) [[5, 0]] ≠ standard (fun _ => .none) [5, 0] := by
  decide

end S5
end SsrNative
