import Snapshot.Proofs.Pattern.Coverage
import Snapshot.Recognizer

/-!
# Where a recognizer finds something

Whatever its pattern, a recognizer goes through a text without losing its place: what it finds
stands in the text in the order found, each behind the one before, and what it leaves out begins no
match.
-/

namespace Snapshot

namespace Text

theorem take_append_slice (text : List Char) {i j : Nat} (le : i ≤ j) :
    text.take i ++ (text.drop i).take (j - i) = text.take j := by
  rw [← List.take_add, Nat.add_sub_cancel' le]

theorem byteSize_take_add (text : List Char) {i j : Nat} (le : i ≤ j) :
    byteSize (text.take i) + byteSize ((text.drop i).take (j - i)) = byteSize (text.take j) := by
  rw [← byteSize_append, take_append_slice text le]

theorem byteSize_take_le (text : List Char) {i j : Nat} (le : i ≤ j) :
    byteSize (text.take i) ≤ byteSize (text.take j) :=
  byteSize_take_add text le ▸ Nat.le_add_right _ _

theorem byteSize_take_lt {text : List Char} {i j : Nat} (lt : i < j) (le : j ≤ text.length) :
    byteSize (text.take i) < byteSize (text.take j) := by
  have here : i < text.length := by omega
  have pos := text[i].utf8Size_pos
  have one : byteSize (text.take (i + 1)) = byteSize (text.take i) + text[i].utf8Size := by
    rw [List.take_succ_eq_append_getElem here, byteSize_append, byteSize_cons, byteSize_nil,
      Nat.add_zero]
  have further : byteSize (text.take (i + 1)) ≤ byteSize (text.take j) := byteSize_take_le text lt
  omega

/-- A text stands in another one between two byte offsets. -/
def StandsBetween (text : List Char) (lo hi : Nat) (s : String) : Prop :=
  ∃ pre rest, text = pre ++ s.toList ++ rest ∧
    lo ≤ byteSize pre ∧ byteSize pre + byteSize s.toList ≤ hi

theorem StandsBetween.mono {text : List Char} {lo hi hi' : Nat} {s : String}
    (h : StandsBetween text lo hi s) (le : hi ≤ hi') : StandsBetween text lo hi' s := by
  obtain ⟨pre, rest, eq, begins, ends⟩ := h
  exact ⟨pre, rest, eq, begins, ends.trans le⟩

end Text

open Text Pattern

structure Sighting.EndsBy (text : List Char) (stop : Nat) (s : Sighting) : Prop where
  name : StandsBetween text s.start stop s.name
  source : ∀ t ∈ s.source, StandsBetween text s.start stop t

theorem Sighting.EndsBy.mono {text : List Char} {stop stop' : Nat} {s : Sighting}
    (h : s.EndsBy text stop) (le : stop ≤ stop') : s.EndsBy text stop' :=
  ⟨h.name.mono le, fun t ht => (h.source t ht).mono le⟩

namespace Recognizer

section Captured
variable {p : Pattern} {text : List Char} {m : Match} (stands : m.Stands p text)
include stands

theorem bounds_of_span? {n : Nat} {span : Span} (h : m.span? n = some span) :
    m.start ≤ span.start ∧ span.start ≤ span.stop ∧ span.stop ≤ m.stop := by
  rw [Match.span?] at h
  split at h
  · obtain rfl := Option.some.inj h
    exact ⟨le_rfl, stands.le, le_rfl⟩
  · obtain ⟨newer, older, spans, -⟩ := List.lookup_eq_some_iff.1 h
    have mem : (n, span) ∈ m.groups.spans := spans ▸ List.mem_append_right _ List.mem_cons_self
    exact stands.within.spans _ mem

theorem standsBetween_slice {n : Nat} {span : Span} (h : m.span? n = some span) :
    StandsBetween text (byteSize (text.take m.start)) (byteSize (text.take m.stop))
      (String.ofList (span.slice text)) := by
  obtain ⟨begins, le, ends⟩ := bounds_of_span? stands h
  refine ⟨text.take span.start, text.drop span.stop, ?_, byteSize_take_le text begins, ?_⟩
  · rw [String.toList_ofList, Span.slice, take_append_slice text le, List.take_append_drop]
  · rw [String.toList_ofList, Span.slice, byteSize_take_add text le]
    exact byteSize_take_le text ends

theorem endsBy_of_sighting? {r : Recognizer} {a : Sighting} (h : r.sighting? text m = some a) :
    a.start = byteSize (text.take m.start) ∧ a.EndsBy text (byteSize (text.take m.stop)) := by
  obtain ⟨name, hname, h⟩ := Option.bind_eq_some_iff.1 h
  split at h
  · obtain rfl := Option.some.inj h
    exact ⟨rfl, standsBetween_slice stands hname, fun _ none => absurd none (Option.not_mem_none _)⟩
  · obtain ⟨source, hsource, h⟩ := Option.bind_eq_some_iff.1 h
    obtain ⟨span, hspan, rfl⟩ := Option.map_eq_some_iff.1 hsource
    obtain rfl := Option.some.inj h
    refine ⟨rfl, standsBetween_slice stands hname, fun t ht => ?_⟩
    exact Option.some.inj ht ▸ standsBetween_slice stands hspan

end Captured

theorem exists_of_mem_recognize {r : Recognizer} {content : String} {a : Sighting}
    (ha : a ∈ r.recognize content) : ∃ m ∈ r.pattern.matchesIn content.toList,
      a.start = byteSize (content.toList.take m.start) ∧
        a.EndsBy content.toList (byteSize (content.toList.take m.stop)) := by
  obtain ⟨m, hm, h⟩ := List.mem_filterMap.1 ha
  exact ⟨m, hm, endsBy_of_sighting? (stands_of_mem hm) h⟩

theorem pairwise_recognize (r : Recognizer) (content : String) :
    (r.recognize content).Pairwise fun a b =>
      a.start < b.start ∧ a.EndsBy content.toList b.start := by
  have whole := covers_matchesIn r.pattern content.toList
  refine List.pairwise_filterMap.2 (whole.apart.imp_of_mem ?_)
  rintro m m' hm hm' ⟨start, stop⟩ a ha b hb
  obtain ⟨ha, ends⟩ := endsBy_of_sighting? (stands_of_mem hm) ha
  obtain ⟨hb, -⟩ := endsBy_of_sighting? (stands_of_mem hm') hb
  have stands := stands_of_mem hm'
  refine ⟨?_, ends.mono (hb ▸ byteSize_take_le content.toList stop)⟩
  rw [ha, hb]
  exact byteSize_take_lt start (stands.le.trans stands.stop_le)

/-- What is found stands in order, each name and module between its beginning and the next one's.
Whole matches are stretches that the pattern matches; a place apart from them all begins none, nor
does the end of one if none begins there and the pattern does not match the empty text there. The
search ends, with one match a place at most. -/
theorem sightings_cover (r : Recognizer) (content : String) :
    let text := content.toList
    let whole := r.pattern.matchesIn text
    ((r.recognize content).Pairwise fun a b => a.start < b.start ∧ a.EndsBy text b.start) ∧
      (∀ a ∈ r.recognize content, ∃ m ∈ whole, a.start = byteSize (text.take m.start) ∧
        a.EndsBy text (byteSize (text.take m.stop))) ∧
      (whole.Pairwise fun m m' => m.start < m'.start ∧ m.stop ≤ m'.start) ∧
      (∀ m ∈ whole, m.start ≤ m.stop ∧ m.stop ≤ text.length ∧
        r.pattern.Matches (placeAt text m.start) (placeAt text m.stop)) ∧
      (∀ i ≤ text.length, (∀ m ∈ whole, i < m.start ∨ m.stop < i) →
        ∀ y, ¬r.pattern.Matches (placeAt text i) y) ∧
      (∀ m ∈ whole, (∀ m' ∈ whole, m'.start ≠ m.stop) →
        ¬r.pattern.Matches (placeAt text m.stop) (placeAt text m.stop) →
          ∀ y, ¬r.pattern.Matches (placeAt text m.stop) y) ∧
      whole.length ≤ text.length + 1 := by
  refine ⟨pairwise_recognize r content, fun a => exists_of_mem_recognize,
    (covers_matchesIn _ _).apart, fun m hm => ?_, fun i => not_matches_of_apart,
    fun m => not_matches_of_end, length_matchesIn_le _ _⟩
  have stands := stands_of_mem hm
  exact ⟨stands.le, stands.stop_le, stands.matched⟩

/-- Finds a letter `b` behind a letter `a`. The pattern matches `a` alone too, without the group. -/
def behindA : Recognizer :=
  { kind := .function
    pattern := seq (char (.single 'a')) (opt (group 1 (char (.single 'b'))))
    nameGroup := 1 }

/-- The match that is left out and the character of two bytes do not move the next one. -/
theorem sightings_behindA :
    behindA.recognize "éaab" = [⟨.function, "b", 3, none⟩] ∧
      (∀ m ∈ behindA.pattern.matchesIn "éaab".toList, 0 < m.start ∨ m.stop < 0) ∧
      (∀ y, ¬behindA.pattern.Matches (placeAt "éaab".toList 0) y) ∧
      (∃ m ∈ behindA.pattern.matchesIn "éaab".toList, m.stop = 4) ∧
      ∀ y, ¬behindA.pattern.Matches (placeAt "éaab".toList 4) y := by
  obtain ⟨-, -, -, -, apart, ends, -⟩ := sightings_cover behindA "éaab"
  have before : ∀ m ∈ behindA.pattern.matchesIn "éaab".toList, 0 < m.start ∨ m.stop < 0 := by
    decide +kernel
  have last : ∃ m ∈ behindA.pattern.matchesIn "éaab".toList, m.stop = 4 := by decide +kernel
  have no_next : ∀ m ∈ behindA.pattern.matchesIn "éaab".toList, m.start ≠ 4 := by decide +kernel
  have at_end : (placeAt "éaab".toList 4).after.head?.any (CharSet.single 'a').has = false := by
    decide +kernel
  refine ⟨by decide +kernel, before, apart 0 (Nat.zero_le _) before, last, ?_⟩
  obtain ⟨m, hm, stop⟩ := last
  rw [← stop] at no_next at_end ⊢
  refine ends m hm no_next ?_
  rintro ⟨z, ⟨taken, -⟩, -⟩
  exact Bool.false_ne_true (at_end.symm.trans taken)

example : (Recognizer.mk .function (many (char (.single 'a'))) 0 none).recognize "éaa-" =
    [⟨.function, "", 0, none⟩, ⟨.function, "aa", 2, none⟩, ⟨.function, "", 5, none⟩] := by
  decide +kernel

example : (Recognizer.mk .function (edge (.lineEnd true)) 0 none).recognize "é\r\nb\n" =
    [⟨.function, "", 2, none⟩, ⟨.function, "", 5, none⟩, ⟨.function, "", 6, none⟩] := by
  decide +kernel

end Recognizer

end Snapshot
