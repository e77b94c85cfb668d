import Snapshot.Proofs.Declaration.Recognition
import Snapshot.Proofs.Pattern.Search

/-!
# What a recognizer finds

The recognizer of a kind finds the declarations that are met when the text is read once from left to
right without ever going back.
-/

namespace Snapshot.Kind
open Pattern Text

theorem take_length_sub {text s : List Char} (h : s <:+ text) :
    text.take (text.length - s.length) ++ s = text := by
  obtain ⟨pre, rfl⟩ := h
  simp

theorem byteSize_take {text s : List Char} (h : s <:+ text) :
    byteSize (text.take (text.length - s.length)) = byteSize text - byteSize s := by
  have parts := congrArg byteSize (take_length_sub h)
  rw [byteSize_append] at parts
  omega

theorem byteSize_le {text s : List Char} (h : s <:+ text) : byteSize s ≤ byteSize text := by
  obtain ⟨pre, rfl⟩ := h
  rw [byteSize_append]
  exact Nat.le_add_left _ _

def sight (k : Kind) (found : String × Nat) : Sighting := ⟨k, found.1, found.2, none⟩

theorem scan_of_shape? {k : Kind} {s named rest : List Char}
    (h : k.shape? s = some (named, rest)) (start : Nat) : k.scan start s =
      (nameOf named, start) :: k.scan (start + (byteSize s - byteSize rest)) rest := by
  have shorter := (suffix_of_shape? h).2
  cases s with
  | nil => simp at shorter
  | cons c s =>
    rw [scan]
    split
    · rename_i shape
      obtain ⟨rfl, rfl⟩ := Prod.mk.inj (Option.some.inj (h.symm.trans shape))
      rfl
    · rename_i shape
      simp [h] at shape

theorem scan_of_shape?_eq_none {k : Kind} {c : Char} {s : List Char} (h : k.shape? (c :: s) = none)
    (start : Nat) : k.scan start (c :: s) = k.scan (start + c.utf8Size) s := by
  rw [scan]
  split
  · rename_i shape
    simp [h] at shape
  · rfl

structure Hit where
  whole : List Char
  named : List Char
  rest : List Char

def hits (k : Kind) (s : List Char) : List Hit :=
  match s with
  | [] => []
  | c :: s =>
    match _shape : k.shape? (c :: s) with
    | some (named, rest) => ⟨c :: s, named, rest⟩ :: k.hits rest
    | none => k.hits s
termination_by s.length
decreasing_by
  · exact (suffix_of_shape? _shape).2
  · simp

theorem of_mem_hits {k : Kind} {s : List Char} {hit : Hit} (h : hit ∈ k.hits s) :
    hit.whole <:+ s ∧ k.shape? hit.whole = some (hit.named, hit.rest) := by
  fun_induction hits k s with
  | case1 => cases h
  | case2 c s named rest shape ih =>
    rcases List.mem_cons.1 h with rfl | h
    · exact ⟨List.suffix_rfl, shape⟩
    · obtain ⟨suffix, found⟩ := ih h
      exact ⟨suffix.trans (suffix_of_shape? shape).1, found⟩
  | case3 c s shape ih =>
    obtain ⟨suffix, found⟩ := ih h
    exact ⟨suffix.trans (List.suffix_cons c s), found⟩

theorem scan_eq_hits (k : Kind) {s : List Char} {start stop : Nat}
    (h : start + byteSize s = stop) :
    k.scan start s = (k.hits s).map fun hit => (nameOf hit.named, stop - byteSize hit.whole) := by
  fun_induction hits k s generalizing start with
  | case1 => rw [scan]; rfl
  | case2 c s named rest shape ih =>
    have inner := byteSize_le (suffix_of_shape? shape).1
    rw [scan_of_shape? shape, ih (by omega), List.map_cons, ← h, Nat.add_sub_cancel]
  | case3 c s shape ih =>
    rw [byteSize_cons] at h
    rw [scan_of_shape?_eq_none shape, ih (by omega)]

def matchOf (text : List Char) (hit : Hit) : Match :=
  Match.ofStand (placeOf text hit.whole).index (standAt (placeOf text hit.whole) hit.named hit.rest)

section Matches
variable {k : Kind} (hk : k ≠ importClause) {text : List Char}

theorem span?_matchOf {hit : Hit} (h : hit.whole <:+ text)
    (shape : k.shape? hit.whole = some (hit.named, hit.rest)) :
    (matchOf text hit).span? 1 = some ⟨text.length - hit.named.length,
      text.length - (hit.named.dropWhile nameChar.has).length⟩ := by
  have suffix := suffix_of_named? (shape?_eq_some_iff.1 shape).1
  have name : hit.named.dropWhile nameChar.has <:+ hit.whole :=
    (List.dropWhile_suffix _).trans suffix
  simp [matchOf, Match.span?, Match.ofStand, standAt, Groups.enter, Groups.leave,
    upto_placeOf h suffix, upto_placeOf h name, index_placeOf]

theorem stop_matchOf {hit : Hit} (h : hit.whole <:+ text) (suffix : hit.rest <:+ hit.whole) :
    (matchOf text hit).stop = (placeOf text hit.rest).index :=
  congrArg Spot.index (upto_placeOf h suffix)

include hk

theorem sighting?_matchOf {hit : Hit} (h : hit.whole <:+ text)
    (shape : k.shape? hit.whole = some (hit.named, hit.rest)) :
    k.recognizer.sighting? text (matchOf text hit) =
      some (k.sight (nameOf hit.named, byteSize text - byteSize hit.whole)) := by
  have suffix := suffix_of_named? (shape?_eq_some_iff.1 shape).1
  have start : (matchOf text hit).start = text.length - hit.whole.length := index_placeOf text _
  have slice : (Span.mk (text.length - hit.named.length)
      (text.length - (hit.named.dropWhile nameChar.has).length)).slice text =
        hit.named.takeWhile nameChar.has := by
    have whole := length_takeWhile_add nameChar.has hit.named
    have le := (suffix.trans h).length_le
    rw [← slice_prefix (suffix.trans h) (List.takeWhile_prefix nameChar.has)]
    congr 2
    omega
  simp only [Recognizer.sighting?, recognizer, span?_matchOf h shape, if_neg hk,
    Option.bind_eq_bind, Option.bind_some, start, slice, byteSize_take h]
  rfl

theorem matchesFrom_eq_hits {s : List Char} (h : s <:+ text) :
    k.pattern.matchesFrom (placeOf text s) = (k.hits s).map (matchOf text) := by
  have steady : k.pattern.steady = true := by cases k <;> rfl
  have taking : k.pattern.nullable = false := by cases k <;> rfl
  fun_induction hits k s with
  | case1 => rw [matchesFrom_end steady taking (after_placeOf h)]; rfl
  | case2 c s named rest shape ih =>
    obtain ⟨suffix, -⟩ := suffix_of_shape? shape
    have found : k.pattern.matchAt (placeOf text (c :: s)) =
        some (matchOf text ⟨c :: s, named, rest⟩) := by
      rw [matchAt_pattern hk, after_placeOf h, shape]
      rfl
    have stop : (matchOf text ⟨c :: s, named, rest⟩).stop = (placeOf text rest).index :=
      stop_matchOf h suffix
    rw [matchesFrom_of_some steady taking found, stop, skip_placeOf h suffix,
      ih (suffix.trans h), List.map_cons]
  | case3 c s shape ih =>
    have missed : k.pattern.matchAt (placeOf text (c :: s)) = none := by
      rw [matchAt_pattern hk, after_placeOf h, shape]
      rfl
    refine (matchesFrom_of_none steady taking missed).trans ?_
    rw [next_placeOf h]
    exact ih ((List.suffix_cons c s).trans h)

theorem matchesIn_eq_hits (text : List Char) :
    k.pattern.matchesIn text = (k.hits text).map (matchOf text) := by
  have whole : placeOf text text = ⟨none, text, 0⟩ := Spot.upto_after _
  rw [matchesIn_eq, ← whole]
  exact matchesFrom_eq_hits hk List.suffix_rfl

end Matches

theorem recognize_eq {k : Kind} (hk : k ≠ importClause) (content : String) :
    k.recognizer.recognize content = (k.scan 0 content.toList).map k.sight := by
  rw [Recognizer.recognize, scan_eq_hits k (Nat.zero_add _), List.map_map,
    show k.recognizer.pattern = k.pattern from rfl, matchesIn_eq_hits hk, List.filterMap_map,
    ← List.filterMap_eq_map]
  apply List.filterMap_congr
  intro hit mem
  obtain ⟨suffix, shape⟩ := of_mem_hits mem
  exact sighting?_matchOf hk suffix shape

/-- The recognizer of a kind gives the names and the places that one reading of the text gives, in
its order. -/
theorem recognize_eq_scan (k : Kind) (hk : k ≠ importClause) (content : String) :
    (k.recognizer.recognize content).map (fun s => (s.name, s.start)) =
      k.scan 0 content.toList := by
  rw [recognize_eq hk, List.map_map]
  exact List.map_id _

theorem scan_decorator : decorator ≠ importClause ∧
    decorator.scan 0 " export function AModule".toList = [("AModule", 1)] :=
  ⟨by decide, (recognize_eq_scan decorator (by decide) _).symm.trans (by decide +kernel)⟩

end Snapshot.Kind
