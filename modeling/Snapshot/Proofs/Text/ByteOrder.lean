import Mathlib.Data.List.Basic

/-!
# The order of UTF-8 bytes

Texts in the order of their code points are in the order of their bytes, so that a sort by one is a
sort by the other.
-/

namespace Snapshot.Text

def utf8 (s : String) : List UInt8 := s.toUTF8.data.toList

theorem utf8_eq (s : String) : utf8 s = s.toList.flatMap String.utf8EncodeChar := by
  rw [utf8, String.toUTF8]
  conv_lhs => rw [← String.ofList_toList (s := s)]
  rw [String.toByteArray_ofList, List.utf8Encode, List.toList_data_toByteArray]

theorem val_toNat_lt (c : Char) : c.val.toNat < 0x110000 := by
  rcases c.valid with h | h
  · exact Nat.lt_trans h (by decide)
  · exact h.2

/-- The first byte that differs is the smaller one in the smaller character, whatever follows. -/
theorem encode_append_lt {c d : Char} (h : c < d) (s t : List UInt8) :
    String.utf8EncodeChar c ++ s < String.utf8EncodeChar d ++ t := by
  have lt : c.val.toNat < d.val.toNat := h
  have bound := val_toNat_lt d
  simp only [String.utf8EncodeChar]
  generalize c.val.toNat = v at *
  generalize d.val.toNat = w at *
  by_cases large : v ≤ 0xffff
  · split_ifs
    all_goals
      simp only [List.cons_append, List.nil_append, List.cons_lt_cons_iff, UInt8.lt_iff_toNat_lt,
        ← UInt8.toNat_inj, UInt8.toNat_ofNat']
      omega
  · -- Four bytes each: the digits are compared one after another.
    have sizes : ¬ v ≤ 0x7f ∧ ¬ v ≤ 0x7ff ∧ ¬ w ≤ 0x7f ∧ ¬ w ≤ 0x7ff ∧ ¬ w ≤ 0xffff := by omega
    simp only [if_neg large, if_neg sizes.1, if_neg sizes.2.1, if_neg sizes.2.2.1,
      if_neg sizes.2.2.2.1, if_neg sizes.2.2.2.2, List.cons_append, List.nil_append,
      List.cons_lt_cons_iff, UInt8.lt_iff_toNat_lt, ← UInt8.toNat_inj, UInt8.toNat_ofNat']
    rcases Nat.lt_or_ge (v / 262144) (w / 262144) with first | first
    · exact .inl (by omega)
    refine .inr ⟨by omega, ?_⟩
    rcases Nat.lt_or_ge (v / 4096) (w / 4096) with second | second
    · exact .inl (by omega)
    refine .inr ⟨by omega, ?_⟩
    rcases Nat.lt_or_ge (v / 64) (w / 64) with third | third
    · exact .inl (by omega)
    · exact .inr ⟨by omega, .inl (by omega)⟩

theorem append_lt_append (p : List UInt8) {s t : List UInt8} (h : s < t) : p ++ s < p ++ t := by
  induction p with
  | nil => exact h
  | cons b p ih => exact List.cons_lt_cons_iff.2 (.inr ⟨rfl, ih⟩)

theorem flatMap_encode_lt {s t : List Char} (h : s < t) :
    s.flatMap String.utf8EncodeChar < t.flatMap String.utf8EncodeChar := by
  induction h with
  | nil =>
    rename_i d t
    cases hd : String.utf8EncodeChar d with
    | nil => exact absurd hd String.utf8EncodeChar_ne_nil
    | cons b bs =>
      rw [List.flatMap_cons, hd]
      exact List.nil_lt_cons _ _
  | rel h => exact encode_append_lt h _ _
  | cons h ih => exact append_lt_append _ ih

theorem utf8_lt {s t : String} (h : s < t) : utf8 s < utf8 t := by
  rw [utf8_eq, utf8_eq]
  exact flatMap_encode_lt h

end Snapshot.Text
