/-!
# Lengths in bytes

Offsets into a text are counted in the bytes of its UTF-8 form. A text can be cut at an offset only
between two characters; an offset past the end cuts at the end.
-/

namespace Snapshot.Text

def byteSize (s : List Char) : Nat := s.foldr (fun c n => c.utf8Size + n) 0

/-- The part of a text before a byte offset, if the offset does not fall inside a character. -/
def takeBytes? : Nat → List Char → Option (List Char)
  | 0, _ => some []
  | _ + 1, [] => some []
  | n + 1, c :: rest =>
    if c.utf8Size ≤ n + 1 then (takeBytes? (n + 1 - c.utf8Size) rest).map (c :: ·) else none

theorem byteSize_nil : byteSize [] = 0 := rfl

theorem byteSize_cons (c : Char) (s : List Char) :
    byteSize (c :: s) = c.utf8Size + byteSize s := rfl

theorem byteSize_append (s t : List Char) : byteSize (s ++ t) = byteSize s + byteSize t := by
  induction s with
  | nil => simp [byteSize_nil]
  | cons c s ih => simp only [List.cons_append, byteSize_cons, ih, Nat.add_assoc]

theorem takeBytes?_byteSize (s t : List Char) : takeBytes? (byteSize s) (s ++ t) = some s := by
  induction s with
  | nil => cases t <;> rfl
  | cons c s ih =>
    have pos : 0 < c.utf8Size := c.utf8Size_pos
    obtain ⟨n, hn⟩ : ∃ n, byteSize (c :: s) = n + 1 := ⟨byteSize (c :: s) - 1, by
      rw [byteSize_cons]; omega⟩
    have le : c.utf8Size ≤ n + 1 := by rw [← hn, byteSize_cons]; omega
    have rest : n + 1 - c.utf8Size = byteSize s := by rw [← hn, byteSize_cons]; omega
    rw [hn, List.cons_append, takeBytes?, if_pos le, rest, ih]
    rfl

end Snapshot.Text
