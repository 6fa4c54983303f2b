import SsrNative.Base64
import SsrNative.CText
import SsrNative.Lib.Memory
import SsrNative.Lib.Search

/-!
# HttpHeader — fields added to a request

`http_header_append_new_field` of `websocket_basic.c`.  A field is put in front of the first blank line of
a request, in an array that is enlarged for it.  What the array holds behind the request is not known, and
the blank line is searched for with `strstr`, which stops at a NUL.
-/

namespace SsrNative
namespace HttpHeader

open Bytes
open Lib.Memory
open Lib.Search

def CRLF : Bytes := ascii "\r\n"

def CRLFCRLF : Bytes := ascii "\r\n\r\n"

/-! ## The function -/

/-- `strstr`.  There is no result when the array ends before the needle or a NUL is found. -/
def strstr (needle : Bytes) : Bytes → Option (Option ℕ)
  | [] => none
  | x :: l =>
      if needle <+: x :: l then some (some 0)
      else if x = 0 then some none
      else (strstr needle l).map (Option.map (· + 1))

/-- Why there is no new request: the function returns `NULL`, or an assertion fails, or memory outside of
the array is touched. -/
inductive Refusal where
  | null
  | assertion
  | outside
  deriving DecidableEq

/-- An access that has to be inside its array. -/
def inside {α : Type} (x : Option α) : Except Refusal α := x.elim (.error .outside) .ok

/-- The text with which `strcmp` compares: a field ends with CRLF. -/
def EndsLine (field : CText) : Prop := field.chars.drop (field.chars.length - 2) = CRLF

instance (field : CText) : Decidable (EndsLine field) :=
  inferInstanceAs (Decidable (field.chars.drop (field.chars.length - 2) = CRLF))

/-- The move and the copy behind the second search. -/
def insertField (orig : Bytes) (len : ℕ) (field : CText) (keyPoint : ℕ) : Except Refusal (Bytes × ℕ) := do
  let tail ← inside (load orig keyPoint (subSize len keyPoint))
  let orig ← inside (store orig (keyPoint + field.chars.length) tail)
  let orig ← inside (store orig keyPoint field.chars)
  return (orig, len + field.chars.length)

/-- `http_header_append_new_field`, with the array that it returns and the new `*len`.  `fresh` is what
`re_alloc` leaves in new cells, and `none` when it fails. -/
def httpHeaderAppendNewField (fresh : Option (ℕ → UInt8)) (orig : Bytes) (len : ℕ) (field : CText) :
    Except Refusal (Bytes × ℕ) :=
  if len = 0 ∨ field.chars.length ≤ 2 then .error .null
  else if ¬ EndsLine field then .error .assertion
  else do
    let found ← inside (strstr CRLFCRLF orig)
    if found = none then .error .null
    else
      let junk ← fresh.elim (.error .assertion) .ok
      let orig ← inside (store (realloc junk orig (len + field.chars.length + 1)) (len + field.chars.length) [0])
      let found ← inside (strstr CRLFCRLF orig)
      found.elim (.error .null) fun keyPoint => insertField orig len field (keyPoint + 2)

/-- A chain of calls, each with what it finds in its new cells. -/
def appendFields (orig : Bytes) (len : ℕ) (calls : List ((ℕ → UInt8) × CText)) : Except Refusal (Bytes × ℕ) :=
  calls.foldlM (fun buf call => httpHeaderAppendNewField (some call.1) buf.1 buf.2 call.2) (orig, len)

/-! ## The search -/

/-- In a text without a NUL the needle is found where it is first. -/
theorem strstr_of_findSub {needle b : Bytes} {n : ℕ} (hnul : (0 : UInt8) ∉ b) (hne : needle ≠ [])
    (h : findSub needle b = some n) (rest : Bytes) : strstr needle (b ++ rest) = some (some n) := by
  induction b generalizing n with
  | nil => exact absurd h (by simp [findSub, hne])
  | cons x b ih =>
      rw [List.mem_cons, not_or] at hnul
      by_cases hp : needle <+: x :: b
      · rw [findSub_zero hp] at h
        rw [List.cons_append, strstr, if_pos (hp.trans (by simp)), Option.some.injEq]
        exact h
      · rw [findSub_cons_of_not hp] at h
        rcases Option.map_eq_some_iff.1 h with ⟨k, hk, rfl⟩
        have hlong : ¬ needle <+: x :: (b ++ rest) := by
          intro hpre
          have hle := findSub_le hk hne
          exact hp (List.prefix_of_prefix_length_le hpre (List.prefix_append (x :: b) rest) (by simp; omega))
        rw [List.cons_append, strstr, if_neg hlong, if_neg (Ne.symm hnul.1), ih hnul.2 hk]
        rfl

/-! ## One call -/

/-- What the function takes for a field. -/
structure IsField (field : CText) : Prop where
  long : 2 < field.chars.length
  ends : EndsLine field

/-- `b` with `field` in front of its item number `n`. -/
def insertAt (b : Bytes) (n : ℕ) (field : Bytes) : Bytes := b.take n ++ (field ++ b.drop n)

@[simp] theorem insertAt_length {b field : Bytes} {n : ℕ} (h : n ≤ b.length) :
    (insertAt b n field).length = b.length + field.length := by
  rw [insertAt, List.length_append, List.length_append, List.length_take, List.length_drop]
  omega

section Call

variable {request behind : Bytes} {n : ℕ}

/-- An array that is enlarged for `size` cells and one more. -/
theorem realloc_split (junk : ℕ → UInt8) (request behind : Bytes) (size : ℕ) :
    ∃ (mid : Bytes) (x : UInt8),
      realloc junk (request ++ behind) (request.length + size + 1) = request ++ (mid ++ [x]) ∧ mid.length = size := by
  have hfront : (realloc junk (request ++ behind) (request.length + size + 1)).take request.length = request := by
    rw [realloc_take junk (by omega) (by simp), List.take_left]
  have hrest : ((realloc junk (request ++ behind) (request.length + size + 1)).drop request.length).length =
      size + 1 := by
    rw [List.length_drop, realloc_length]
    omega
  rcases List.eq_nil_or_concat' ((realloc junk (request ++ behind) (request.length + size + 1)).drop request.length)
    with hnil | ⟨mid, x, hcat⟩
  · rw [hnil] at hrest
    cases hrest
  · refine ⟨mid, x, ?_, ?_⟩
    · have hwhole := List.take_append_drop request.length
        (realloc junk (request ++ behind) (request.length + size + 1))
      rw [hfront, hcat] at hwhole
      exact hwhole.symm
    · rw [hcat, List.length_append] at hrest
      exact Nat.succ.inj hrest

/-- The tail is moved and the field is copied, whatever was in the new cells. -/
theorem insertField_eq {field : CText} {mid : Bytes} {k : ℕ} (hk : k ≤ request.length)
    (hmid : mid.length = field.chars.length) :
    insertField (request ++ (mid ++ [0])) request.length field k =
      .ok (insertAt request k field.chars ++ [0], request.length + field.chars.length) := by
  have hhead : (request.take k).length = k := by
    rw [List.length_take]
    exact Nat.min_eq_left hk
  have htail : (request.drop k).length = request.length - k := List.length_drop
  have hload : load (request ++ (mid ++ [0])) k (subSize request.length k) = some (request.drop k) := by
    have hfield := load_field (l := mid ++ [0]) hhead htail
    rwa [← List.append_assoc, List.take_append_drop, ← subSize_of_le hk] at hfield
  -- the array by the place where the tail goes
  have hcut : ((request ++ mid).take (k + field.chars.length)).length = k + field.chars.length := by
    rw [List.length_take, List.length_append]
    omega
  have hrest : ((request ++ mid).drop (k + field.chars.length)).length = (request.drop k).length := by
    rw [List.length_drop, List.length_append, List.length_drop]
    omega
  have hmove : store (request ++ (mid ++ [0])) (k + field.chars.length) (request.drop k) =
      some ((request ++ mid).take (k + field.chars.length) ++ (request.drop k ++ [0])) := by
    have hfield := store_field (l := [0]) hcut hrest
    rwa [← List.append_assoc, List.take_append_drop, List.append_assoc] at hfield
  -- and its front by the place where the field goes
  have hfront : (request ++ mid).take (k + field.chars.length) =
      request.take k ++ ((request ++ mid).take (k + field.chars.length)).drop k := by
    have hsame : ((request ++ mid).take (k + field.chars.length)).take k = request.take k := by
      rw [List.take_take, Nat.min_eq_left (Nat.le_add_right _ _), List.take_append_of_le_length hk]
    rw [← hsame, List.take_append_drop]
  have hgap : (((request ++ mid).take (k + field.chars.length)).drop k).length = field.chars.length := by
    rw [List.length_drop, hcut]
    omega
  have hcopy : store ((request ++ mid).take (k + field.chars.length) ++ (request.drop k ++ [0])) k field.chars =
      some (request.take k ++ (field.chars ++ (request.drop k ++ [0]))) := by
    rw [hfront, List.append_assoc]
    exact store_field hhead hgap
  rw [insertField, hload]
  simp only [inside, Option.elim_some, Except.bind, bind, hmove, hcopy, insertAt, List.append_assoc]
  rfl

/-- The field is put in front of the first blank line, and a NUL behind the request. -/
theorem append_eq (junk : ℕ → UInt8) (behind : Bytes) {field : CText} (hnul : (0 : UInt8) ∉ request)
    (hfirst : findSub CRLFCRLF request = some n) (hfield : IsField field) :
    httpHeaderAppendNewField (some junk) (request ++ behind) request.length field =
      .ok (insertAt request (n + 2) field.chars ++ [0], request.length + field.chars.length) := by
  have hne : CRLFCRLF ≠ [] := by decide
  have hle : n + 4 ≤ request.length := findSub_le hfirst hne
  have hguard : ¬ (request.length = 0 ∨ field.chars.length ≤ 2) := by
    have hlong := hfield.long
    omega
  -- the enlarged array
  rcases realloc_split junk request behind field.chars.length with ⟨mid, x, hnew, hmid⟩
  have hstore : store (request ++ (mid ++ [x])) (request.length + field.chars.length) [0] =
      some (request ++ (mid ++ [0])) := by
    have hcut : (request ++ mid).length = request.length + field.chars.length := by
      rw [List.length_append, hmid]
    have hfield := store_field (x := [x]) (w := [0]) (l := []) hcut rfl
    rwa [List.append_nil, List.append_nil, List.append_assoc, List.append_assoc] at hfield
  rw [httpHeaderAppendNewField, if_neg hguard, if_neg (not_not.2 hfield.ends),
    strstr_of_findSub hnul hne hfirst]
  simp only [inside, Option.elim_some, Except.bind, bind, hnew, hstore, strstr_of_findSub hnul hne hfirst,
    reduceCtorEq, if_false]
  exact insertField_eq (by omega) hmid

end Call

/-! ## Blank lines -/

/-- The field makes no blank line with the line in front of it or by itself. -/
def NoBlankLine (field : CText) : Prop := findSub CRLFCRLF (CRLF ++ field.chars) = none

instance (field : CText) : Decidable (NoBlankLine field) :=
  inferInstanceAs (Decidable (findSub CRLFCRLF (CRLF ++ field.chars) = none))

theorem crlfcrlf_prefix_iff {l : Bytes} {j : ℕ} :
    CRLFCRLF <+: l.drop j ↔
      l[j]? = some 13 ∧ l[j + 1]? = some 10 ∧ l[j + 2]? = some 13 ∧ l[j + 3]? = some 10 := by
  have hcells : CRLFCRLF = [13, 10, 13, 10] := by decide
  rw [hcells, List.prefix_iff_getElem?]
  simp only [List.getElem?_drop]
  constructor
  · intro h
    exact ⟨h 0 (by decide), h 1 (by decide), h 2 (by decide), h 3 (by decide)⟩
  · rintro ⟨h₀, h₁, h₂, h₃⟩ i hi
    have hcase : i = 0 ∨ i = 1 ∨ i = 2 ∨ i = 3 := by
      simp only [List.length_cons, List.length_nil] at hi
      omega
    rcases hcase with rfl | rfl | rfl | rfl
    · exact h₀
    · exact h₁
    · exact h₂
    · exact h₃

/-- The last two characters of a field. -/
theorem IsField.last_two {field : CText} (h : IsField field) :
    field.chars[field.chars.length - 2]? = some 13 ∧ field.chars[field.chars.length - 2 + 1]? = some 10 := by
  have hends : field.chars.drop (field.chars.length - 2) = [13, 10] := h.ends.trans (by decide)
  constructor
  · have hcell : (field.chars.drop (field.chars.length - 2))[0]? = some 13 := by
      rw [hends]
      rfl
    rwa [List.getElem?_drop, Nat.add_zero] at hcell
  · have hcell : (field.chars.drop (field.chars.length - 2))[1]? = some 10 := by
      rw [hends]
      rfl
    rwa [List.getElem?_drop] at hcell

/-- A field without a blank line moves the first one to the end of the header. -/
theorem findSub_insertAt {request : Bytes} {n : ℕ} {field : CText} (hfirst : findSub CRLFCRLF request = some n)
    (hfield : IsField field) (hblank : NoBlankLine field) :
    findSub CRLFCRLF (insertAt request (n + 2) field.chars) = some (n + field.chars.length) := by
  have hlong := hfield.long
  have hle : n + 4 ≤ request.length := findSub_le hfirst (by decide)
  rcases findSub_eq_some_iff.1 hfirst with ⟨hocc, hnone⟩
  rcases crlfcrlf_prefix_iff.1 hocc with ⟨h₀, h₁, h₂, h₃⟩
  rcases hfield.last_two with ⟨hcr, hlf⟩
  have hcut : (request.take (n + 2)).length = n + 2 := by
    rw [List.length_take]
    omega
  -- the cells in front of the field, those of the field with a CRLF in front, and those behind it
  have hfront : ∀ i < n + 2, (insertAt request (n + 2) field.chars)[i]? = request[i]? := by
    intro i hi
    rw [insertAt, List.getElem?_append_left (by omega), List.getElem?_take_of_lt hi]
  have hcrlf : CRLF = [13, 10] := by decide
  have htwo : CRLF.length = 2 := by decide
  have hinner : ∀ i < field.chars.length + 2,
      (insertAt request (n + 2) field.chars)[n + i]? = (CRLF ++ field.chars)[i]? := by
    intro i hi
    rcases Nat.lt_or_ge i 2 with hlt | hge
    · rw [hfront (n + i) (by omega), List.getElem?_append_left (by rw [hcrlf]; exact hlt), hcrlf]
      rcases Nat.lt_succ_iff_lt_or_eq.1 hlt with hzero | rfl
      · rw [Nat.lt_one_iff.1 hzero]
        exact h₀
      · exact h₁
    · have hoff : n + i - (n + 2) = i - 2 := by omega
      rw [insertAt, List.getElem?_append_right (by omega), hcut, List.getElem?_append_left (by omega),
        List.getElem?_append_right (by rw [hcrlf]; exact hge), hoff, hcrlf]
      rfl
  have hbehind : ∀ i, (insertAt request (n + 2) field.chars)[n + field.chars.length + 2 + i]? =
      request[n + 2 + i]? := by
    intro i
    have hoff : n + field.chars.length + 2 + i - (n + 2) - field.chars.length = i := by omega
    rw [insertAt, List.getElem?_append_right (by omega), hcut, List.getElem?_append_right (by omega), hoff,
      List.getElem?_drop]
  have hlast : (insertAt request (n + 2) field.chars)[n + field.chars.length]? = some 13 := by
    rw [hinner _ (by omega), List.getElem?_append_right (by omega), htwo]
    exact hcr
  have hlast' : (insertAt request (n + 2) field.chars)[n + field.chars.length + 1]? = some 10 := by
    have hoff : field.chars.length + 1 - 2 = field.chars.length - 2 + 1 := by omega
    rw [Nat.add_assoc, hinner _ (by omega), List.getElem?_append_right (by omega), htwo, hoff]
    exact hlf
  refine findSub_eq_some_iff.2 ⟨crlfcrlf_prefix_iff.2 ⟨hlast, hlast', ?_, ?_⟩, fun j hj hearlier => ?_⟩
  · exact (hbehind 0).trans h₂
  · exact (hbehind 1).trans h₃
  · rcases crlfcrlf_prefix_iff.1 hearlier with ⟨hj₀, hj₁, hj₂, hj₃⟩
    rcases Nat.lt_or_ge (j + 1) n with hbefore | hnear
    · -- it would be in the request
      rw [hfront _ (by omega)] at hj₀ hj₁ hj₂ hj₃
      exact hnone j (by omega) (crlfcrlf_prefix_iff.2 ⟨hj₀, hj₁, hj₂, hj₃⟩)
    rcases Nat.lt_or_ge j n with hprev | hinside
    · -- its second cell would be the first of the old one
      have hsame : j + 1 = n := by omega
      rw [hfront _ (by omega), hsame, h₀] at hj₁
      exact absurd hj₁ (by decide)
    rcases Nat.exists_eq_add_of_le hinside with ⟨k, rfl⟩
    rcases Nat.lt_or_ge (k + 3) (field.chars.length + 2) with hk | hk
    · -- it would be in the field
      rw [Nat.add_assoc, hinner _ (by omega)] at hj₁ hj₂ hj₃
      rw [hinner _ (by omega)] at hj₀
      exact findSub_ne_none (crlfcrlf_prefix_iff.2 ⟨hj₀, hj₁, hj₂, hj₃⟩) hblank
    · -- its second cell would be the CR of the field's end
      have hsame : n + k + 1 = n + field.chars.length := by omega
      rw [hsame, hlast] at hj₁
      exact absurd hj₁ (by decide)

/-! ## Chains of calls -/

@[simp] theorem insertAt_nil (b : Bytes) (n : ℕ) : insertAt b n [] = b := by
  rw [insertAt, List.nil_append, List.take_append_drop]

/-- The next field goes behind the last one. -/
theorem insertAt_insertAt {b f : Bytes} {n : ℕ} (g : Bytes) (h : n ≤ b.length) :
    insertAt (insertAt b n f) (n + f.length) g = insertAt b n (f ++ g) := by
  have hfront : (b.take n ++ f).length = n + f.length := by
    rw [List.length_append, List.length_take, Nat.min_eq_left h]
  have hcat : insertAt b n f = (b.take n ++ f) ++ b.drop n := (List.append_assoc _ _ _).symm
  rw [hcat, insertAt, ← hfront, List.take_left, List.drop_left, insertAt, List.append_assoc, List.append_assoc]

theorem nul_not_mem_insertAt {b f : Bytes} {n : ℕ} (hb : (0 : UInt8) ∉ b) (hf : (0 : UInt8) ∉ f) :
    (0 : UInt8) ∉ insertAt b n f := by
  simp only [insertAt, List.mem_append, not_or]
  exact ⟨fun h => hb (List.mem_of_mem_take h), hf, fun h => hb (List.mem_of_mem_drop h)⟩

/-- The text of all fields of a chain. -/
def fieldsOf (calls : List ((ℕ → UInt8) × CText)) : Bytes := calls.flatMap fun call => call.2.chars

/-- All fields stand behind those that the request had, in their order, and the first blank line behind the
last of them. -/
def KeepsHeader (request behind : Bytes) (n : ℕ) (calls : List ((ℕ → UInt8) × CText)) : Prop :=
  ∃ buf, appendFields (request ++ behind) request.length calls =
      .ok (buf, request.length + (fieldsOf calls).length) ∧
    buf.take (request.length + (fieldsOf calls).length) = insertAt request (n + 2) (fieldsOf calls) ∧
    findSub CRLFCRLF (buf.take (request.length + (fieldsOf calls).length)) = some (n + (fieldsOf calls).length)

theorem keepsHeader {request : Bytes} {n : ℕ} (behind : Bytes) (hnul : (0 : UInt8) ∉ request)
    (hfirst : findSub CRLFCRLF request = some n) {calls : List ((ℕ → UInt8) × CText)}
    (hcalls : ∀ call ∈ calls, IsField call.2 ∧ NoBlankLine call.2) : KeepsHeader request behind n calls := by
  induction calls generalizing request behind n with
  | nil =>
      have hnone : fieldsOf [] = [] := rfl
      refine ⟨request ++ behind, rfl, ?_, ?_⟩
      · rw [hnone, List.length_nil, Nat.add_zero, List.take_left, insertAt_nil]
      · rw [hnone, List.length_nil, Nat.add_zero, List.take_left, hfirst]
        rfl
  | cons call calls ih =>
      rcases hcalls call List.mem_cons_self with ⟨hfield, hblank⟩
      have hle : n + 4 ≤ request.length := findSub_le hfirst (by decide)
      have hnext := findSub_insertAt hfirst hfield hblank
      have hlen : (insertAt request (n + 2) call.2.chars).length = request.length + call.2.chars.length :=
        insertAt_length (by omega)
      have hall : fieldsOf (call :: calls) = call.2.chars ++ fieldsOf calls := rfl
      rcases ih [0] (nul_not_mem_insertAt hnul call.2.nul_not_mem) hnext
        (fun c hc => hcalls c (List.mem_cons_of_mem _ hc)) with ⟨buf, hrun, htext, hblankAt⟩
      have htotal : request.length + call.2.chars.length + (fieldsOf calls).length =
          request.length + (fieldsOf (call :: calls)).length := by
        rw [hall, List.length_append, Nat.add_assoc]
      have hinserted : insertAt (insertAt request (n + 2) call.2.chars) (n + call.2.chars.length + 2)
          (fieldsOf calls) = insertAt request (n + 2) (fieldsOf (call :: calls)) := by
        rw [Nat.add_right_comm, insertAt_insertAt _ (by omega), hall]
      rw [hlen, htotal] at hrun htext hblankAt
      rw [hinserted] at htext
      refine ⟨buf, ?_, htext, ?_⟩
      · have hstep := append_eq call.1 behind hnul hfirst hfield
        rw [appendFields, List.foldlM_cons, hstep]
        exact hrun
      · rw [hblankAt, hall, List.length_append, Nat.add_assoc]

/-! ## The request of the client -/

/-- `"%s: %s\r\n"`. -/
def headerLine (key coded : Bytes) : CText := .ofBytes (key ++ ascii ": " ++ coded ++ CRLF)

/-- The chain of `tls_cli_on_connection_established`: the target, and for a UDP tunnel the address of its
peer; `junk` is what `realloc` leaves behind the text in each call. -/
def requestCalls (junk : ℕ → ℕ → UInt8) (target : Bytes) (udp : Option Bytes) : List ((ℕ → UInt8) × CText) :=
  (junk 0, headerLine (ascii "Target-Address") target) ::
    udp.toList.map fun coded => (junk 1, headerLine (ascii "UDP") coded)

/-- Neither NUL nor CR. -/
def Plain (b : Bytes) : Prop := (0 : UInt8) ∉ b ∧ (13 : UInt8) ∉ b

instance (b : Bytes) : Decidable (Plain b) := inferInstanceAs (Decidable ((0 : UInt8) ∉ b ∧ (13 : UInt8) ∉ b))

theorem Plain.append {a b : Bytes} (ha : Plain a) (hb : Plain b) : Plain (a ++ b) :=
  ⟨fun h => (List.mem_append.1 h).elim ha.1 hb.1, fun h => (List.mem_append.1 h).elim ha.2 hb.2⟩

theorem headerLine_chars {key coded : Bytes} (hkey : Plain key) (hcoded : Plain coded) :
    (headerLine key coded).chars = key ++ ascii ": " ++ coded ++ CRLF := by
  refine CText.ofBytes_chars fun h => ?_
  rcases List.mem_append.1 h with hbody | hend
  · exact ((hkey.append (by decide)).append hcoded).1 hbody
  · exact absurd hend (by decide)

theorem eq_zero_of_crlf {i : ℕ} (h : CRLF[i]? = some 13) : i = 0 := by
  have hcells : CRLF = [13, 10] := by decide
  rw [hcells] at h
  rcases i with _ | _ | i
  · rfl
  · exact absurd h (by decide)
  · exact absurd h (by simp)

/-- A line without a CR is a field without a blank line. -/
theorem headerLine_isField {key coded : Bytes} (hkey : Plain key) (hcoded : Plain coded) :
    IsField (headerLine key coded) ∧ NoBlankLine (headerLine key coded) := by
  have hbody : Plain (key ++ ascii ": " ++ coded) := (hkey.append (by decide)).append hcoded
  have hsome : 2 ≤ (key ++ ascii ": " ++ coded).length := by
    simp [ascii]
    omega
  have hchars := headerLine_chars hkey hcoded
  revert hchars hbody hsome
  generalize key ++ ascii ": " ++ coded = body
  intro hbody hsome hchars
  have htwo : CRLF.length = 2 := by decide
  refine ⟨⟨?_, ?_⟩, ?_⟩
  · rw [hchars, List.length_append, htwo]
    omega
  · rw [EndsLine, hchars, List.length_append, htwo, Nat.add_sub_cancel, List.drop_left]
  · rw [NoBlankLine, hchars]
    by_contra hfound
    rcases Option.ne_none_iff_exists'.1 hfound with ⟨j, hj⟩
    rcases crlfcrlf_prefix_iff.1 (prefix_drop_of_findSub hj) with ⟨hfirst, -, hthird, -⟩
    -- a CR is only in front of the line and at its end
    have hcr : ∀ i, (CRLF ++ (body ++ CRLF))[i]? = some 13 → i = 0 ∨ i = body.length + 2 := by
      intro i hi
      rcases Nat.lt_or_ge i 2 with hlt | hge
      · rw [List.getElem?_append_left (by omega)] at hi
        exact .inl (eq_zero_of_crlf hi)
      rw [List.getElem?_append_right (by omega), htwo] at hi
      rcases Nat.lt_or_ge (i - 2) body.length with hlt | hend
      · rw [List.getElem?_append_left hlt] at hi
        exact absurd (List.mem_of_getElem? hi) hbody.2
      · rw [List.getElem?_append_right hend] at hi
        have hzero := eq_zero_of_crlf hi
        omega
    rcases hcr _ hfirst with rfl | rfl
    · rcases hcr _ hthird with h | h
      · omega
      · omega
    · rcases hcr _ hthird with h | h
      · omega
      · omega

theorem plain_of_letters {b : Bytes} (h : ∀ c ∈ b, Base64.IsLetter c ∨ c = 0x3d) : Plain b := by
  constructor
  · intro hmem
    rcases h _ hmem with hletter | hpad
    · exact absurd hletter (by decide)
    · exact absurd hpad (by decide)
  · intro hmem
    rcases h _ hmem with hletter | hpad
    · exact absurd hletter (by decide)
    · exact absurd hpad (by decide)

theorem plain_base64 {src coded : Bytes} (h : Base64.stdBase64EncodeAlloc src = .out coded) : Plain coded := by
  rw [Base64.eq_base64_of_alloc h]
  rcases Base64.base64_eq_letters src with ⟨k, heq, -, -⟩
  refine plain_of_letters fun c hc => ?_
  rw [heq, List.mem_append] at hc
  exact hc.imp Base64.isLetter_of_mem_letters List.eq_of_mem_replicate

/-- No character becomes a CR. -/
theorem cr_not_mem_strReplaceChar {b : Bytes} {old new : UInt8} (hnew : (13 : UInt8) ≠ new)
    (h : (13 : UInt8) ∉ b) : (13 : UInt8) ∉ Base64.strReplaceChar b old new := by
  intro hmem
  rcases List.mem_map.1 hmem with ⟨c, hc, heq⟩
  have hmem' : c ∈ b := List.IsPrefix.mem hc (cString_initial b)
  split_ifs at heq
  · exact hnew heq.symm
  · exact h (heq ▸ hmem')

theorem plain_urlSafe {src coded : Bytes} (h : Base64.urlSafeBase64EncodeAlloc src = .out coded) : Plain coded := by
  cases hstd : Base64.stdBase64EncodeAlloc src with
  | out letters =>
      rw [Base64.urlSafeBase64EncodeAlloc, hstd] at h
      rw [← Lib.Segments.Returned.out.inj h]
      refine ⟨not_mem_cString _, fun hmem => ?_⟩
      refine cr_not_mem_strReplaceChar (by decide) ?_ (List.IsPrefix.mem hmem (cString_initial _))
      refine cr_not_mem_strReplaceChar (by decide) ?_
      exact cr_not_mem_strReplaceChar (by decide) (plain_base64 hstd).2
  | error =>
      rw [Base64.urlSafeBase64EncodeAlloc, hstd] at h
      exact absurd h (by simp)
  | crash =>
      rw [Base64.urlSafeBase64EncodeAlloc, hstd] at h
      exact absurd h (by simp)

/-- The fields of the client are lines without a blank one. -/
theorem requestCalls_fields {target : Bytes} {udp : Option Bytes} (junk : ℕ → ℕ → UInt8)
    (htarget : ∃ typ, Base64.stdBase64EncodeAlloc typ = .out target)
    (hudp : ∀ coded ∈ udp, ∃ addr, Base64.urlSafeBase64EncodeAlloc addr = .out coded) :
    ∀ call ∈ requestCalls junk target udp, IsField call.2 ∧ NoBlankLine call.2 := by
  intro call hcall
  rcases List.mem_cons.1 hcall with rfl | hrest
  · rcases htarget with ⟨typ, htyp⟩
    exact headerLine_isField (by decide) (plain_base64 htyp)
  · rcases List.mem_map.1 hrest with ⟨coded, hcoded, rfl⟩
    rcases hudp coded (Option.mem_toList.1 hcoded) with ⟨addr, haddr⟩
    exact headerLine_isField (by decide) (plain_urlSafe haddr)

/-! ## Insertion -/

/-- A call puts its field in front of the first blank line and changes nothing else; a chain of calls whose
fields have no blank line keeps all fields in their order, with the first blank line behind them; and the
fields of the client are such fields. -/
theorem header_fields_inserted {request : Bytes} {n : ℕ} (behind : Bytes) (hnul : (0 : UInt8) ∉ request)
    (hfirst : findSub CRLFCRLF request = some n) :
    (∀ (junk : ℕ → UInt8) (field : CText), IsField field →
      ∃ buf, httpHeaderAppendNewField (some junk) (request ++ behind) request.length field =
          .ok (buf, request.length + field.chars.length) ∧
        buf.take (request.length + field.chars.length) = insertAt request (n + 2) field.chars) ∧
    (∀ calls : List ((ℕ → UInt8) × CText), (∀ call ∈ calls, IsField call.2 ∧ NoBlankLine call.2) →
      KeepsHeader request behind n calls) ∧
    ∀ (junk : ℕ → ℕ → UInt8) (target : Bytes) (udp : Option Bytes),
      (∃ typ, Base64.stdBase64EncodeAlloc typ = .out target) →
      (∀ coded ∈ udp, ∃ addr, Base64.urlSafeBase64EncodeAlloc addr = .out coded) →
      KeepsHeader request behind n (requestCalls junk target udp) := by
  refine ⟨fun junk field hfield => ⟨_, append_eq junk behind hnul hfirst hfield, ?_⟩, fun calls hcalls =>
    keepsHeader behind hnul hfirst hcalls, fun junk target udp htarget hudp =>
    keepsHeader behind hnul hfirst (requestCalls_fields junk htarget hudp)⟩
  have hle : n + 4 ≤ request.length := findSub_le hfirst (by decide)
  exact List.take_left' (insertAt_length (by omega))

/-- Two fields for a request with one, in an array that is no larger than the request, and the two of a client
with a UDP tunnel. -/
theorem header_fields_inserted_two :
    KeepsHeader (ascii "GET / HTTP/1.1\r\nHost: h\r\n\r\n") [] 23
        [(fun _ => 0x0d, .ofBytes (ascii "A: b\r\n")), (fun _ => 0x0a, .ofBytes (ascii "C: d\r\n"))] ∧
      KeepsHeader (ascii "GET / HTTP/1.1\r\nHost: h\r\n\r\n") [] 23
        (requestCalls (fun _ _ => 0x0d) (ascii "AQID") (some (ascii "BAUG"))) := by
  have hnul : (0 : UInt8) ∉ ascii "GET / HTTP/1.1\r\nHost: h\r\n\r\n" := by decide +kernel
  have hfirst : findSub CRLFCRLF (ascii "GET / HTTP/1.1\r\nHost: h\r\n\r\n") = some 23 := by decide +kernel
  have hinserted := header_fields_inserted [] hnul hfirst
  constructor
  · refine hinserted.2.1 _ fun call hcall => ?_
    simp only [List.mem_cons, List.not_mem_nil, or_false] at hcall
    rcases hcall with rfl | rfl
    · exact ⟨⟨by decide +kernel, by decide +kernel⟩, by decide +kernel⟩
    · exact ⟨⟨by decide +kernel, by decide +kernel⟩, by decide +kernel⟩
  · refine hinserted.2.2 _ _ _ ⟨[1, 2, 3], rfl⟩ fun coded hcoded => ⟨[4, 5, 6], ?_⟩
    obtain rfl := Option.some.inj hcoded
    rfl

/-- A field with a blank line of its own ends the header in front of the old blank line. -/
theorem blank_field_ends_header :
    IsField (.ofBytes (ascii "A: b\r\n\r\n")) ∧
      ¬ KeepsHeader (ascii "GET / HTTP/1.1\r\n\r\n") [] 14
        [(fun _ => 0, .ofBytes (ascii "A: b\r\n\r\n")), (fun _ => 0, .ofBytes (ascii "C: d\r\n"))] := by
  refine ⟨⟨by decide +kernel, by decide +kernel⟩, ?_⟩
  rintro ⟨buf, -, htext, hblank⟩
  rw [htext] at hblank
  exact absurd hblank (by decide +kernel)

end HttpHeader
end SsrNative
