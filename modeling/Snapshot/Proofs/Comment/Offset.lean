import Mathlib.Data.List.Find
import Mathlib.Data.List.Infix
import Mathlib.Data.String.Basic
import Snapshot.Proofs.Comment.Blocks

/-!
# The comment before an offset

The comments of a text can be told by places alone. Two searches take turns: one for an opening mark
from the place reached so far, one for a closing mark from behind the opening one. The comment
before an offset is the last one that they find in the text before it.
-/

namespace Snapshot.Text

def find? (word : String) (s : List Char) (start : Nat) : Option Nat :=
  (List.range' start (s.length - start)).find? fun i => word.toList.isPrefixOf (s.drop i)

theorem bounds_of_find? {word : String} {s : List Char} {start i : Nat}
    (h : find? word s start = some i) : start ≤ i ∧ i < s.length := by
  have inside := List.mem_range'_1.1 (List.mem_of_find?_eq_some h)
  omega

theorem isPrefixOf_eq_isSome (word : String) (s : List Char) :
    word.toList.isPrefixOf s = (after? word s).isSome := by
  rw [Bool.eq_iff_iff, List.isPrefixOf_iff_prefix, Option.isSome_iff_exists]
  constructor
  · rintro ⟨rest, same⟩
    exact ⟨rest, after?_eq_some_iff.2 same.symm⟩
  · rintro ⟨rest, found⟩
    exact ⟨rest, (after?_eq_some_iff.1 found).symm⟩

theorem find?_eq (word : String) (s : List Char) (start : Nat) :
    find? word s start = (upTo? word (s.drop start)).map fun found => start + found.1.length := by
  induction ht : s.drop start generalizing start with
  | nil =>
    have short := List.drop_eq_nil_iff.1 ht
    rw [find?, Nat.sub_eq_zero_of_le short]
    rfl
  | cons c t ih =>
    have long : start < s.length := by
      by_contra le
      rw [List.drop_eq_nil_of_le (Nat.le_of_not_lt le)] at ht
      cases ht
    have behind : s.drop (start + 1) = t := by rw [← List.drop_drop, ht]; rfl
    have places : s.length - start = s.length - (start + 1) + 1 := by omega
    rw [find?, places, List.range'_succ, List.find?_cons, ht, isPrefixOf_eq_isSome]
    cases found : after? word (c :: t) with
    | some rest => simp [upTo?_of_after? found]
    | none =>
      have further := ih (start + 1) behind
      rw [find?] at further
      rw [upTo?_of_after?_eq_none found, Option.isSome_none, Option.map_map]
      refine further.trans (Option.map_congr fun _ _ => ?_)
      rw [Function.comp_apply, List.length_cons]
      omega

theorem drop_of_upTo? {word : String} {s x rest : List Char} {start : Nat}
    (h : upTo? word (s.drop start) = some (x, rest)) :
    s.drop (start + x.length + word.toList.length) = rest := by
  rw [← List.drop_drop, ← List.drop_drop, eq_of_upTo? h, List.drop_left, List.drop_left]

def initial? (size : Nat) (s : List Char) : Option (List Char) :=
  s.inits.find? (byteSize · == size)

theorem initial?_cons {size : Nat} (pos : size ≠ 0) (c : Char) (s : List Char) :
    initial? size (c :: s) =
      if c.utf8Size ≤ size then (initial? (size - c.utf8Size) s).map (c :: ·) else none := by
  have empty : (byteSize [] == size) = false := beq_false_of_ne pos.symm
  rw [initial?, List.inits_cons, List.find?_cons, empty]
  dsimp only
  rw [List.find?_map]
  by_cases le : c.utf8Size ≤ size
  · rw [if_pos le]
    refine congrArg (Option.map _) (List.find?_congr fun p _ => ?_)
    rw [Function.comp_apply, byteSize_cons, Bool.eq_iff_iff, beq_iff_eq, beq_iff_eq]
    omega
  · rw [if_neg le, Option.map_eq_none_iff, List.find?_eq_none]
    intro p _
    rw [Function.comp_apply, byteSize_cons, beq_iff_eq]
    omega

theorem takeBytes?_eq (n : Nat) (s : List Char) :
    takeBytes? n s = initial? (min n (byteSize s)) s := by
  induction s generalizing n with
  | nil => cases n <;> simp [takeBytes?, initial?, byteSize_nil]
  | cons c s ih =>
    cases n with
    | zero => simp [takeBytes?, initial?, byteSize_nil]
    | succ n =>
      have one : 0 < c.utf8Size := c.utf8Size_pos
      have pos : min (n + 1) (byteSize (c :: s)) ≠ 0 := by rw [byteSize_cons]; omega
      rw [takeBytes?, initial?_cons pos, byteSize_cons]
      by_cases le : c.utf8Size ≤ n + 1
      · have rest : min (n + 1) (c.utf8Size + byteSize s) - c.utf8Size =
            min (n + 1 - c.utf8Size) (byteSize s) := by omega
        rw [if_pos le, if_pos (by omega), rest, ih]
      · rw [if_neg le, if_neg (by omega)]

theorem byteSize_toList (s : String) : byteSize s.toList = s.utf8ByteSize := by
  have chars : ∀ cs : List Char, byteSize cs = String.utf8Len cs := by
    intro cs
    induction cs with
    | nil => rfl
    | cons c cs ih => rw [byteSize_cons, String.utf8Len_cons, ih, Nat.add_comm]
  rw [chars, ← String.utf8ByteSize_ofList, String.ofList_toList]

end Snapshot.Text

namespace Snapshot.DocComment
open Text

/-- What is recorded of a text from a place on: what stands between an opening mark and the closing
mark that is searched for behind its three characters. -/
def recordedFrom (s : List Char) (place : Nat) : List (List Char) :=
  match _opened : find? "/**" s place with
  | none => []
  | some opened =>
    match _closed : find? "*/" s (opened + 3) with
    | none => []
    | some closed => trim ((s.take closed).drop (opened + 3)) :: recordedFrom s (closed + 2)
termination_by s.length - place
decreasing_by
  have := bounds_of_find? _opened
  have := bounds_of_find? _closed
  omega

theorem recordedFrom_eq (s : List Char) (place : Nat) :
    recordedFrom s place = comments (s.drop place) := by
  fun_induction recordedFrom s place with
  | case1 place unopened =>
    rw [find?_eq, Option.map_eq_none_iff] at unopened
    rw [comments_of_upTo?_eq_none unopened]
  | case2 place opened hopened unclosed =>
    rw [find?_eq, Option.map_eq_some_iff] at hopened
    obtain ⟨⟨x, r⟩, found, rfl⟩ := hopened
    have behind : s.drop (place + x.length + 3) = r := drop_of_upTo? found
    rw [find?_eq, behind, Option.map_eq_none_iff] at unclosed
    rw [comments_of_opened found, within_of_unclosed unclosed]
  | case3 place opened hopened closed hclosed ih =>
    rw [find?_eq, Option.map_eq_some_iff] at hopened
    obtain ⟨⟨x, r⟩, found, rfl⟩ := hopened
    have behind : s.drop (place + x.length + 3) = r := drop_of_upTo? found
    rw [find?_eq, Option.map_eq_some_iff] at hclosed
    obtain ⟨⟨body, rest⟩, found', rfl⟩ := hclosed
    have beyond : s.drop (place + x.length + 3 + body.length + 2) = rest := drop_of_upTo? found'
    rw [behind] at found'
    have between : (s.take (place + x.length + 3 + body.length)).drop (place + x.length + 3) =
        body := by
      rw [List.drop_take, behind, Nat.add_sub_cancel_left, eq_of_upTo? found', List.take_left]
    rw [ih, between, beyond, comments_of_opened found, within_of_closed found']

/-- The comment before an offset is the last of those that are recorded of the text before the
offset, if the text can be cut there. -/
theorem locate_eq_recorded (content : String) (offset : Nat) :
    locate content offset = String.ofList
      (((initial? (min offset content.utf8ByteSize) content.toList).bind fun before =>
        (recordedFrom before 0).getLast?.map normalize).getD []) := by
  have recorded : ∀ before, last? before = (recordedFrom before 0).getLast?.map normalize := by
    intro before
    rw [recordedFrom_eq, List.drop_zero, last?_eq]
  rw [locate, textBefore, takeBytes?_eq, byteSize_toList]
  exact congrArg (fun f => String.ofList ((Option.bind _ f).getD [])) (funext recorded)

example : locate "/**/ a */ b" 20 = "/ a" := by decide +kernel

end Snapshot.DocComment
