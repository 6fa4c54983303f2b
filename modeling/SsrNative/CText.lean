import SsrNative.Bytes
import SsrNative.Lib.Text

/-!
# CText — texts that end with a NUL

What a `char *` points to, up to its terminator.  `strchr` and `strrchr` are used here to put a NUL in the place
of a separator: the text in front of it ends there, and the text behind it starts with the next character.
-/

namespace SsrNative

open Bytes
open Lib.Text

/-- The characters of a text, none of which is the terminator. -/
structure CText where
  chars : Bytes
  nul_not_mem : (0 : UInt8) ∉ chars
deriving DecidableEq

namespace CText

/-- The text at the start of an array, as `strdup` copies it. -/
def ofBytes (m : Bytes) : CText := ⟨cString m, not_mem_cString m⟩

theorem ofBytes_chars {m : Bytes} (h : (0 : UInt8) ∉ m) : (ofBytes m).chars = m := cString_of_not_mem h

theorem ofBytes_eq {m : Bytes} (h : (0 : UInt8) ∉ m) : ofBytes m = ⟨m, h⟩ :=
  (mk.injEq ..).mpr (cString_of_not_mem h)

/-- `p = strchr(t, sep); *p++ = 0`. -/
def cutAt (sep : UInt8) (t : CText) : Option (CText × CText) :=
  (cut sep t.chars).map fun p => (ofBytes p.1, ofBytes p.2)

/-- `p = strrchr(t, sep); *p++ = 0`. -/
def cutAtLast (sep : UInt8) (t : CText) : Option (CText × CText) :=
  (cutLast sep t.chars).map fun p => (ofBytes p.1, ofBytes p.2)

variable {sep : UInt8} {t a b : CText}

/-- The parts of a text are texts. -/
theorem nul_not_mem_parts {p q : Bytes} (h : t.chars = p ++ sep :: q) : (0 : UInt8) ∉ p ∧ (0 : UInt8) ∉ q := by
  have hnul := t.nul_not_mem
  rw [h, List.mem_append, List.mem_cons, not_or, not_or] at hnul
  exact ⟨hnul.1, hnul.2.2⟩

theorem cutAt_of_eq {p q : Bytes} (h : t.chars = p ++ sep :: q) (hsep : sep ∉ p) :
    t.cutAt sep = some (ofBytes p, ofBytes q) := by
  rw [cutAt, h, cut_append_cons hsep]
  rfl

theorem cutAtLast_of_eq {p q : Bytes} (h : t.chars = p ++ sep :: q) (hsep : sep ∉ q) :
    t.cutAtLast sep = some (ofBytes p, ofBytes q) := by
  rw [cutAtLast, h, cutLast_append_cons hsep]
  rfl

theorem eq_of_cutAt (h : t.cutAt sep = some (a, b)) : sep ∉ a.chars ∧ t.chars = a.chars ++ sep :: b.chars := by
  rcases Option.map_eq_some_iff.1 h with ⟨⟨p, q⟩, hcut, heq⟩
  cases heq
  rcases eq_of_cut hcut with ⟨hsep, hchars⟩
  rcases nul_not_mem_parts hchars with ⟨hp, hq⟩
  rw [ofBytes_chars hp, ofBytes_chars hq]
  exact ⟨hsep, hchars⟩

theorem eq_of_cutAtLast (h : t.cutAtLast sep = some (a, b)) :
    sep ∉ b.chars ∧ t.chars = a.chars ++ sep :: b.chars := by
  rcases Option.map_eq_some_iff.1 h with ⟨⟨p, q⟩, hcut, heq⟩
  cases heq
  rcases eq_of_cutLast hcut with ⟨hsep, hchars⟩
  rcases nul_not_mem_parts hchars with ⟨hp, hq⟩
  rw [ofBytes_chars hp, ofBytes_chars hq]
  exact ⟨hsep, hchars⟩

theorem subset_of_cutAtLast (h : t.cutAtLast sep = some (a, b)) : a.chars ⊆ t.chars ∧ b.chars ⊆ t.chars := by
  rw [(eq_of_cutAtLast h).2]
  refine ⟨List.subset_append_left _ _, ?_⟩
  exact List.Subset.trans (List.subset_cons_self sep b.chars) (List.subset_append_right _ _)

theorem not_mem_of_cutAt (h : t.cutAt sep = none) : sep ∉ t.chars :=
  not_mem_of_cut_eq_none (Option.map_eq_none_iff.1 h)

theorem not_mem_of_cutAtLast (h : t.cutAtLast sep = none) : sep ∉ t.chars :=
  not_mem_of_cutLast_eq_none (Option.map_eq_none_iff.1 h)

end CText
end SsrNative
