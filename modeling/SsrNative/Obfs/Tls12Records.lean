import SsrNative.Obfs.Tls12Ticket

/-!
# Tls12Records — data records on the wire

Both encoders cut their data into pieces and wrap each piece in a record; both decoders run a loop
that takes whole records from the front of what has arrived.
-/

namespace SsrNative
namespace Obfs
namespace Tls12TicketAuth

open Bytes
open Lib.Framing
open Lib.Segments

/-! ## Cutting data into pieces -/

/-- A piece that a record can carry. -/
def Fits (piece : Bytes) : Prop := piece ≠ [] ∧ piece.length < 65536

theorem splitLoop_flatten (limit : ℕ) (size : ℕ → ℕ) (fuel i : ℕ) (data : Bytes) :
    (splitLoop limit size fuel i data).1.flatten ++ (splitLoop limit size fuel i data).2.1 = data := by
  induction fuel generalizing i data with
  | zero => simp [splitLoop]
  | succ fuel ih =>
      by_cases h : limit < data.length
      · simp [splitLoop, h, ih]
      · simp [splitLoop, h]

/-- The loop ends because few enough bytes are left, never because the fuel ran out. -/
theorem splitLoop_rest_length {limit : ℕ} {size : ℕ → ℕ} (hsize : ∀ i, 0 < size i) {fuel : ℕ} (i : ℕ)
    {data : Bytes} (hfuel : data.length ≤ fuel) :
    (splitLoop limit size fuel i data).2.1.length ≤ limit := by
  induction fuel generalizing i data with
  | zero =>
      simp only [splitLoop]
      omega
  | succ fuel ih =>
      by_cases h : limit < data.length
      · have hpos := hsize i
        simp only [splitLoop, h, if_true]
        exact ih (i + 1) (by simp only [List.length_drop]; omega)
      · simp only [splitLoop, h, if_false]
        omega

theorem splitLoop_fits {limit : ℕ} {size : ℕ → ℕ} (hpos : ∀ i, 0 < size i)
    (hlt : ∀ i, size i < 65536) (fuel i : ℕ) (data : Bytes) :
    ∀ piece ∈ (splitLoop limit size fuel i data).1, Fits piece := by
  induction fuel generalizing i data with
  | zero => simp [splitLoop]
  | succ fuel ih =>
      by_cases h : limit < data.length
      · have h1 := hpos i
        have h2 := hlt i
        have hhead : Fits (data.take (min (size i) data.length)) := by
          refine ⟨List.length_pos_iff.1 ?_, ?_⟩ <;> simp only [List.length_take] <;> omega
        simpa [splitLoop, h, hhead] using ih (i + 1) (data.drop (min (size i) data.length))
      · simp [splitLoop, h]

/-- What remains after a splitting loop, as one more piece unless it is empty. -/
theorem fits_last {rest : Bytes} (h : rest.length < 65536) :
    ∀ piece ∈ (if 0 < rest.length then [rest] else []), Fits piece := by
  intro piece hp
  by_cases hpos : 0 < rest.length
  · simp only [hpos, if_true, List.mem_singleton] at hp
    subst hp
    exact ⟨List.length_pos_iff.1 hpos, h⟩
  · simp [hpos] at hp

theorem flatten_last (rest : Bytes) :
    (if 0 < rest.length then [rest] else [] : List Bytes).flatten = rest := by
  by_cases hpos : 0 < rest.length
  · simp [hpos]
  · have : rest = [] := by simpa using hpos
    simp [this]

theorem serverPieces_flatten (split : ℕ → ℕ) (data : Bytes) :
    (serverPieces split data).flatten = data := by
  simp only [serverPieces, List.flatten_append, flatten_last]
  exact splitLoop_flatten _ _ _ _ _

theorem serverPieces_fits (split : ℕ → ℕ) (data : Bytes) :
    ∀ piece ∈ serverPieces split data, Fits piece := by
  intro piece hp
  simp only [serverPieces, List.mem_append] at hp
  rcases hp with hp | hp
  · exact splitLoop_fits (fun i => by omega) (fun i => by omega) _ _ _ piece hp
  · refine fits_last (Nat.lt_of_le_of_lt (splitLoop_rest_length ?_ _ (Nat.le_refl _)) ?_) piece hp
    · intro i
      omega
    · decide

theorem clientPieces_flatten (sendId : ℕ) (split : ℕ → ℕ) (data : Bytes) :
    (clientPieces sendId split data).flatten = data := by
  simp only [clientPieces, List.flatten_append, flatten_last, List.append_assoc, splitLoop_flatten]
  by_cases h : sendId ≤ 4
  · simp [h, splitLoop_flatten]
  · simp [h]

theorem clientPieces_fits (sendId : ℕ) (split : ℕ → ℕ) (data : Bytes) :
    ∀ piece ∈ clientPieces sendId split data, Fits piece := by
  intro piece hp
  simp only [clientPieces, List.mem_append] at hp
  rcases hp with (hp | hp) | hp
  · by_cases h : sendId ≤ 4
    · rw [if_pos h] at hp
      exact splitLoop_fits (fun i => by omega) (fun i => by omega) _ _ _ piece hp
    · simp [h] at hp
  · exact splitLoop_fits (fun i => by omega) (fun i => by omega) _ _ _ piece hp
  · refine fits_last (Nat.lt_of_le_of_lt (splitLoop_rest_length ?_ _ (Nat.le_refl _)) ?_) piece hp
    · intro i
      omega
    · decide

/-! ## Taking records -/

/-- All records of a list of pieces, one after the other. -/
def recordStream (pieces : List Bytes) : Bytes := (pieces.map packData).flatten

@[simp] theorem recordStream_nil : recordStream [] = [] := rfl

@[simp] theorem recordStream_cons (piece : Bytes) (pieces : List Bytes) :
    recordStream (piece :: pieces) = packData piece ++ recordStream pieces := rfl

@[simp] theorem recordStream_append (ps qs : List Bytes) :
    recordStream (ps ++ qs) = recordStream ps ++ recordStream qs := by
  simp [recordStream]

theorem head_recordStream {t rest : Bytes} {pieces : List Bytes}
    (h : t ++ rest = recordStream pieces) : t = [] ∨ t.head? = some 0x17 := by
  cases t with
  | nil => exact Or.inl rfl
  | cons x t =>
      cases pieces with
      | nil => simp at h
      | cons piece pieces =>
          simp only [recordStream_cons, packData, List.cons_append, List.cons.injEq] at h
          simp [h.1]

/-- The fields of a record as soon as its header has arrived. -/
theorem packData_head {piece q l t : Bytes} (hfit : Fits piece) (h : q ++ l = packData piece ++ t)
    (hlen : 5 ≤ q.length) :
    byteAt q 0 = 0x17 ∧ window q 0 3 = [0x17, 0x03, 0x03] ∧ rdBe16 q 3 = piece.length := by
  have hq : q ++ l = [0x17, 0x03, 0x03] ++ (be16 piece.length ++ (piece ++ t)) := by
    rw [h]
    simp [packData]
  refine ⟨?_, ?_, ?_⟩
  · rw [← byteAt_append_left (l := l) (by omega), hq]
    rfl
  · rw [← window_append_left (l := l) (by omega), hq]
    exact window_zero_append (by rfl)
  · rw [← rdBe16_append_left (l := l) (by omega), hq, rdBe16_field (by rfl),
      Nat.mod_eq_of_lt hfit.2]

theorem window_packData (piece l : Bytes) :
    window (packData piece ++ l) 5 piece.length = piece := by
  have h : packData piece ++ l = ([0x17, 0x03, 0x03] ++ be16 piece.length) ++ (piece ++ l) := by
    simp [packData]
  rw [h, window_field (by rfl) rfl]

/-- A loop body that takes a complete record and waits for the rest of an incomplete one. -/
structure RecordLoop (step : Unit → Bytes → Peel Unit UInt8 Unit) : Prop where
  full : ∀ piece l, Fits piece → step () (packData piece ++ l) = .took () piece (piece.length + 5)
  wait : ∀ piece q l, Fits piece → q ++ l = packData piece → l ≠ [] → step () q = .more ()
  empty : step () [] = .more ()

theorem clientRecordStep_recordLoop : RecordLoop clientRecordStep where
  full piece l hfit := by
    have hlen : 0 < piece.length := List.length_pos_iff.2 hfit.1
    rcases packData_head hfit (List.append_nil (packData piece ++ l)) (by simp; omega) with
      ⟨h0, -, h3⟩
    have hlong : 5 < (packData piece ++ l).length := by simp; omega
    have hfull : ¬ piece.length + 5 > (packData piece ++ l).length := by simp
    simp only [clientRecordStep, hlong, h0, h3, hfull, window_packData, if_true, if_false, ne_eq,
      not_true_eq_false, Nat.add_comm 5]
  wait piece q l hfit h hl := by
    by_cases hlong : 5 < q.length
    · rcases packData_head (t := []) hfit (by simpa using h) (by omega) with ⟨h0, -, h3⟩
      have hl' : 0 < l.length := List.length_pos_iff.2 hl
      have hshort : piece.length + 5 > q.length := by
        have := congrArg List.length h
        simp at this
        omega
      simp only [clientRecordStep, hlong, h0, h3, hshort, if_true, if_false, ne_eq,
        not_true_eq_false]
    · simp only [clientRecordStep, hlong, if_false]
  empty := rfl

theorem serverRecordStep_recordLoop : RecordLoop serverRecordStep where
  full piece l hfit := by
    have hlen : 0 < piece.length := List.length_pos_iff.2 hfit.1
    rcases packData_head hfit (List.append_nil (packData piece ++ l)) (by simp; omega) with
      ⟨-, h0, h3⟩
    have hlong : 5 < (packData piece ++ l).length := by simp; omega
    have hfull : ¬ (packData piece ++ l).length < piece.length + 5 := by simp
    simp only [serverRecordStep, hlong, h0, h3, hfull, window_packData, if_true, if_false, ne_eq,
      not_true_eq_false]
  wait piece q l hfit h hl := by
    by_cases hlong : 5 < q.length
    · rcases packData_head (t := []) hfit (by simpa using h) (by omega) with ⟨-, h0, h3⟩
      have hl' : 0 < l.length := List.length_pos_iff.2 hl
      have hshort : q.length < piece.length + 5 := by
        have := congrArg List.length h
        simp at this
        omega
      simp only [serverRecordStep, hlong, h0, h3, hshort, if_true, if_false, ne_eq,
        not_true_eq_false]
    · simp only [serverRecordStep, hlong, if_false]
  empty := rfl

/-- A stream of records parses to the data they carry. -/
theorem RecordLoop.parses {step : Unit → Bytes → Peel Unit UInt8 Unit} (hstep : RecordLoop step)
    (pieces : List Bytes) (hfit : ∀ piece ∈ pieces, Fits piece) :
    Parses step Eq (fun _ => True) (fun _ => True) () (recordStream pieces) pieces.flatten () [] := by
  induction pieces with
  | nil => exact .rest (waits_nil trivial fun _ _ => ⟨(), hstep.empty, rfl⟩)
  | cons piece pieces ih =>
      have hp : Fits piece := hfit piece (by simp)
      have hne : packData piece ≠ [] := by simp [packData]
      refine .frame hne ?_ (ih fun x hx => hfit x (List.mem_cons_of_mem _ hx))
      refine takes_of_waits (fun s₀ _ l => ⟨(), ?_, rfl⟩) (fun s₀ _ q l hq hl => ⟨(), ?_, rfl⟩)
      · rw [packData_length]
        exact hstep.full piece l hp
      · exact hstep.wait piece q l hp hq hl

/-- Fed in any pieces, a stream of records delivers the data they carry. -/
theorem RecordLoop.feed_run {step : Unit → Bytes → Peel Unit UInt8 Unit} (hstep : RecordLoop step)
    {pieces segs : List Bytes} {recv : Bytes} (hfit : ∀ piece ∈ pieces, Fits piece)
    (h : recv ++ segs.flatten = recordStream pieces) (hsegs : segs ≠ []) :
    ∃ outs, run (feed step) ((), recv) segs = (((), []), outs) ∧ (∀ r ∈ outs, r.2 = none) ∧
      (outs.map Prod.fst).flatten = pieces.flatten := by
  have hp := hstep.parses pieces hfit
  rw [← h] at hp
  rcases feed_run_complete hp rfl (cutsOk_of_forall (fun _ => trivial) _) hsegs with
    ⟨_, outs, hrun, hall, hout, -⟩
  exact ⟨outs, hrun, hall, hout⟩

end Tls12TicketAuth
end Obfs
end SsrNative
