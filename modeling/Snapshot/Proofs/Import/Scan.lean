import Snapshot.Proofs.Extraction.Invariant
import Snapshot.Proofs.Import.Statements

/-!
# What is recorded of imports

The imports of a source are told by one reading of its text from left to right. Behind the word
`import`, blanks and perhaps a brace comes what a clause binds, up to the first place where the
clause can be closed. All that is asked of the text in between is that it has no closing brace, so
an opening brace, or the module of another statement, may be in it.
-/

namespace Snapshot

/-- A name that holds no syntax of a statement. -/
def Import.Plain (i : Import) : Prop := ∀ c ∈ ['{', '}', '\'', '"'], c ∉ i.name.toList

namespace ImportClause
open Pattern Text Kind

/-- A clause, by the ends of its text: from the first binding on, from the end of the bindings on,
from the module on and from the quote behind the module on. -/
structure Clause where
  listing : List Char
  ending : List Char
  named : List Char
  closing : List Char

def listing? (s : List Char) : Option Clause :=
  (listed? s).map fun found => ⟨s, found.1, found.2.1, found.2.2⟩

def lastBlank (s : List Char) : List Char := s.drop ((s.takeWhile isBlank).length - 1)

/-- The clause whose bindings begin behind the leading blanks. If there is none, the last blank is
left: where `from` is ahead, a clause of no bindings at all needs it. -/
def spacedListing? (s : List Char) : Option Clause :=
  (listing? (trimStart s)).or (listing? (lastBlank s))

def clause? (s : List Char) : Option Clause :=
  (after? "import" s).bind fun r =>
    if r.head?.any isBlank then spacedListing? ((after? "\x7b" (trimStart r)).getD r.tail) else none

namespace Clause

def bindings (c : Clause) : List Char := c.listing.take (c.listing.length - c.ending.length)
def origin (c : Clause) : List Char := c.named.take (c.named.length - c.closing.length)

def rest (c : Clause) : List Char := c.closing.tail

def stand (x : Stand) (c : Clause) : Stand := standListed x c.listing (c.ending, c.named, c.closing)

structure Within (c : Clause) (s : List Char) : Prop where
  listing : c.listing <:+ s
  ending : c.ending <:+ c.listing
  named : c.named <:+ c.ending
  closing : c.closing <:+ c.named
  filled : c.closing ≠ c.named

variable {c : Clause} {s t : List Char}

theorem Within.of_suffix (h : c.Within t) (ht : t <:+ s) : c.Within s :=
  { h with listing := h.listing.trans ht }

theorem Within.bindings_append (h : c.Within s) : c.bindings ++ c.ending = c.listing := by
  obtain ⟨pre, parts⟩ := h.ending
  rw [bindings, ← parts]
  simp

theorem Within.origin_append (h : c.Within s) : c.origin ++ c.closing = c.named := by
  obtain ⟨pre, parts⟩ := h.closing
  rw [origin, ← parts]
  simp

theorem Within.origin_filled (h : c.Within s) : c.origin ≠ [] := by
  intro empty
  have whole := h.origin_append
  rw [empty, List.nil_append] at whole
  exact h.filled whole

theorem stand_upto {x : Stand} {r : List Char} (hr : r <:+ x.1.after) (h : c.Within r) :
    c.stand (x.1.upto r, x.2) = c.stand x :=
  standListed_upto hr h.listing h.ending

end Clause

theorem exists_quoted_of_spaced? {s : List Char} {found : List Char × List Char}
    (h : spaced? s = some found) : ∃ t, quoted? t = some found := by
  obtain ⟨r, -, origin⟩ := Option.bind_eq_some_iff.1 h
  obtain ⟨t, -, quoted⟩ := Option.bind_eq_some_iff.1 origin
  exact ⟨t, quoted⟩

theorem exists_quoted_of_closing? {s : List Char} {found : List Char × List Char}
    (h : closing? s = some found) : ∃ t, quoted? t = some found := by
  unfold closing? at h
  split at h
  · exact exists_quoted_of_spaced? h
  · exact exists_quoted_of_spaced? h

theorem exists_closing_of_listed? {s : List Char} {found : List Char × List Char × List Char}
    (h : listed? s = some found) : closing? found.1 = some found.2 := by
  induction s with
  | nil => simp [listed?] at h
  | cons c s ih =>
    unfold listed? at h
    split at h
    · rename_i closed
      rwa [← Option.some.inj h]
    · split at h
      · simp at h
      · exact ih h

theorem within_of_listing? {s : List Char} {c : Clause} (h : listing? s = some c) : c.Within s := by
  obtain ⟨⟨ending, named, closing⟩, hfound, rfl⟩ := Option.map_eq_some_iff.1 h
  obtain ⟨suffix, ends⟩ := suffix_of_listed? hfound
  obtain ⟨t, quoted⟩ := exists_quoted_of_closing? (exists_closing_of_listed? hfound)
  obtain ⟨q, rfl, -, first, rest, -⟩ := quoted?_eq_some_iff.1 quoted
  refine ⟨List.suffix_rfl, suffix, ends.1, ends.2, fun same => ?_⟩
  have stop := head?_dropWhile_any (p := unquoted.has) named
  rw [← rest] at stop
  change closing = named at same
  rw [same, first] at stop
  exact Bool.noConfusion stop

theorem lastBlank_suffix (s : List Char) : lastBlank s <:+ s := List.drop_suffix _ _

theorem within_of_spacedListing? {s : List Char} {c : Clause} (h : spacedListing? s = some c) :
    c.Within s := by
  rcases Option.or_eq_some_iff.1 h with h | ⟨-, h⟩
  · exact (within_of_listing? h).of_suffix (trimStart_suffix s)
  · exact (within_of_listing? h).of_suffix (lastBlank_suffix s)

theorem opening_suffix (r : List Char) : (after? "\x7b" (trimStart r)).getD r.tail <:+ r := by
  cases brace : after? "\x7b" (trimStart r) with
  | none => exact List.tail_suffix r
  | some b => exact (suffix_of_after? brace).trans (trimStart_suffix r)

theorem within_of_clause? {s : List Char} {c : Clause} (h : clause? s = some c) :
    c.Within s ∧ c.rest.length < s.length := by
  obtain ⟨r, hr, h⟩ := Option.bind_eq_some_iff.1 h
  obtain ⟨-, h⟩ := Option.ite_none_right_eq_some.1 h
  have within := (within_of_spacedListing? h).of_suffix (opening_suffix r)
  have shorter : r.length < s.length := by
    rw [after?_eq_some_iff.1 hr, List.length_append]
    change _ < 6 + _
    omega
  refine ⟨within.of_suffix (suffix_of_after? hr), lt_of_le_of_lt ?_ shorter⟩
  exact ((List.tail_suffix _).trans (within.closing.trans (within.named.trans
    (within.ending.trans within.listing)))).length_le

theorem closing?_congr {s t : List Char} (hs : s.head?.any isBlank = true)
    (ht : t.head?.any isBlank = true) (same : trimStart s = trimStart t) :
    closing? s = closing? t := by
  rw [closing?_eq, closing?_eq, if_pos hs, if_pos ht, spaced?_of_blank hs, spaced?_of_blank ht,
    same]

theorem listed?_eq_none_iff {s : List Char} (h : s.head?.any isBlank = true) :
    listed? s = none ↔ closing? s = none ∧ listed? (trimStart s) = none := by
  induction s with
  | nil => simp at h
  | cons c s ih =>
    have blank : isBlank c = true := by simpa using h
    have no_brace : c ≠ '}' := by
      rintro rfl
      revert blank
      decide
    have here : listed? (c :: s) = none ↔ closing? (c :: s) = none ∧ listed? s = none := by
      rw [listed?]
      cases closing? (c :: s) <;> simp [no_brace]
    have trimmed : trimStart (c :: s) = trimStart s := List.dropWhile_cons_of_pos blank
    rw [here, trimmed]
    by_cases first : s.head?.any isBlank = true
    · rw [ih first, closing?_congr h first trimmed]
      simp
    · rw [trimStart_eq_self (Bool.eq_false_iff.2 first)]

section Blanks
variable {s : List Char} {n : Nat}

theorem listed?_drop_congr {m : Nat} (hm : m < (s.takeWhile isBlank).length)
    (hn : n < (s.takeWhile isBlank).length) :
    listed? (s.drop m) = none ↔ listed? (s.drop n) = none := by
  have blank_m : (s.drop m).head?.any isBlank = true := head?_drop_any hm
  have blank_n : (s.drop n).head?.any isBlank = true := head?_drop_any hn
  have same : trimStart (s.drop m) = trimStart (s.drop n) := by
    rw [trimStart_drop hm.le, trimStart_drop hn.le]
  rw [listed?_eq_none_iff blank_m, listed?_eq_none_iff blank_n, same,
    closing?_congr blank_m blank_n same]

theorem lastBlank_of_dark (h : s.head?.any isBlank = false) : lastBlank s = s := by
  cases s with
  | nil => rfl
  | cons c s =>
    have dark : isBlank c = false := h
    simp [lastBlank, dark]

theorem lastBlank_of_blank (h : s.head?.any isBlank = true) :
    (lastBlank s).head?.any isBlank = true ∧ trimStart (lastBlank s) = trimStart s := by
  cases s with
  | nil => simp at h
  | cons c s =>
    have some_blank : 0 < ((c :: s).takeWhile isBlank).length := by
      rw [List.takeWhile_cons_of_pos (by simpa using h)]
      exact Nat.succ_pos _
    exact ⟨head?_drop_any (Nat.sub_lt some_blank Nat.one_pos), trimStart_drop (Nat.sub_le _ _)⟩

theorem spacedListing?_of_dark (h : s.head?.any isBlank = false) :
    spacedListing? s = listing? s := by
  rw [spacedListing?, trimStart_eq_self h, lastBlank_of_dark h, Option.or_self]

theorem listing?_eq_none_iff : listing? s = none ↔ listed? s = none := Option.map_eq_none_iff

theorem drop_blanks (s : List Char) : s.drop (s.takeWhile isBlank).length = trimStart s :=
  calc s.drop (s.takeWhile isBlank).length
      = (s.takeWhile isBlank ++ s.dropWhile isBlank).drop (s.takeWhile isBlank).length := by
        rw [List.takeWhile_append_dropWhile]
    _ = trimStart s := List.drop_left

theorem length_takeWhile_drop (h : n ≤ (s.takeWhile isBlank).length) :
    ((s.drop n).takeWhile isBlank).length = (s.takeWhile isBlank).length - n := by
  have whole := length_takeWhile_add isBlank s
  have inner := length_takeWhile_add isBlank (s.drop n)
  have same : (s.drop n).dropWhile isBlank = s.dropWhile isBlank := trimStart_drop h
  rw [same, List.length_drop] at inner
  omega

theorem spacedListing?_drop (h : n < (s.takeWhile isBlank).length) :
    spacedListing? (s.drop n) = spacedListing? s := by
  have last : lastBlank (s.drop n) = lastBlank s := by
    rw [lastBlank, lastBlank, length_takeWhile_drop h.le, List.drop_drop]
    congr 1
    omega
  rw [spacedListing?, spacedListing?, trimStart_drop h.le, last]

end Blanks

theorem closing?_of_opening {s b : List Char} (h : after? "\x7b" (trimStart s) = some b) :
    closing? s = none := by
  have first := after?_eq_some_iff.1 h
  have no_brace : after? "\x7d" (trimStart s) = none := by
    rw [first]
    rfl
  have no_origin : origin? (trimStart s) = none := by
    rw [first]
    rfl
  unfold closing?
  rw [no_brace]
  cases blank : s.head?.any isBlank with
  | true => exact (spaced?_of_blank blank).trans no_origin
  | false => exact spaced?_of_dark blank

theorem listing?_drop_eq_none {s : List Char} (h : spacedListing? s = none) {n : Nat}
    (hn : n ≤ (s.takeWhile isBlank).length) : listing? (s.drop n) = none := by
  obtain ⟨none_end, none_last⟩ := Option.or_eq_none_iff.1 h
  rcases hn.lt_or_eq with hn | rfl
  · rw [listing?_eq_none_iff] at none_last ⊢
    exact (listed?_drop_congr (by omega) hn).1 none_last
  · rwa [drop_blanks]

def bracedListing? (s : List Char) : Option Clause :=
  ((after? "\x7b" s).bind spacedListing?).or (spacedListing? s)

theorem within_of_bracedListing? {s : List Char} {c : Clause} (h : bracedListing? s = some c) :
    c.Within s := by
  rcases Option.or_eq_some_iff.1 h with h | ⟨-, h⟩
  · obtain ⟨b, hb, h⟩ := Option.bind_eq_some_iff.1 h
    exact (within_of_spacedListing? h).of_suffix (suffix_of_after? hb)
  · exact within_of_spacedListing? h

theorem bracedListing?_of_bare {s : List Char} (h : after? "\x7b" s = none) :
    bracedListing? s = spacedListing? s := by
  rw [bracedListing?, h, Option.bind_none, Option.none_or]

theorem listing?_of_opening {s b : List Char} (h : after? "\x7b" s = some b)
    (hb : spacedListing? b = none) : listing? s = none := by
  obtain rfl : s = '{' :: b := after?_eq_some_iff.1 h
  have closed : closing? ('{' :: b) = none := by
    apply closing?_of_opening (b := b)
    rwa [trimStart_eq_self rfl]
  rw [listing?_eq_none_iff, listed?, closed]
  exact listing?_eq_none_iff.1 (listing?_drop_eq_none hb (Nat.zero_le _))

theorem bracedListing?_of_opening {s b : List Char} (h : after? "\x7b" s = some b) :
    bracedListing? s = spacedListing? b := by
  rw [bracedListing?, h, Option.bind_some]
  cases hb : spacedListing? b with
  | some c => rfl
  | none =>
    have dark : s.head?.any isBlank = false := by
      rw [after?_eq_some_iff.1 h]
      rfl
    rw [Option.none_or, spacedListing?_of_dark dark, listing?_of_opening h hb]

theorem spacedListing?_of_opening {s b : List Char} (h : after? "\x7b" (trimStart s) = some b)
    (hb : spacedListing? b = none) : spacedListing? s = none := by
  have at_end := listing?_of_opening h hb
  rw [spacedListing?, at_end, Option.none_or, listing?_eq_none_iff]
  cases blank : s.head?.any isBlank with
  | false =>
    rw [lastBlank_of_dark blank, ← trimStart_eq_self blank]
    exact listing?_eq_none_iff.1 at_end
  | true =>
    obtain ⟨first, same⟩ := lastBlank_of_blank blank
    rw [listed?_eq_none_iff first, same]
    exact ⟨closing?_of_opening (same.symm ▸ h), listing?_eq_none_iff.1 at_end⟩

theorem or_spacedListing? (s : List Char) : (listing? (trimStart s)).or
    (if s.head?.any isBlank then spacedListing? s else none) = spacedListing? s := by
  cases blank : s.head?.any isBlank with
  | true => rw [if_pos rfl, spacedListing?, ← Option.or_assoc, Option.or_self]
  | false =>
    rw [if_neg Bool.false_ne_true, Option.or_none, spacedListing?_of_dark blank,
      trimStart_eq_self blank]

theorem after?_opening_of_blank {s : List Char} (h : s.head?.any isBlank = true) :
    after? "\x7b" s = none := by
  cases hr : after? "\x7b" s with
  | none => rfl
  | some r =>
    rw [after?_eq_some_iff.1 hr] at h
    revert h
    simp [show isBlank '{' = false by decide]

def listingPart : Pattern := seq listPart closingPart
def spacedPart : Pattern := seq blanks listingPart
def bracedPart : Pattern := seq (opt (word "\x7b")) spacedPart

theorem map_stand_upto {x : Stand} {r : List Char} (hr : r <:+ x.1.after)
    {found : Option Clause} (within : ∀ {c}, found = some c → c.Within r) :
    found.map (Clause.stand (x.1.upto r, x.2)) = found.map (Clause.stand x) :=
  Option.map_congr fun _ h => Clause.stand_upto hr (within h)

theorem pursue_listing (x : Stand) {r : List Char} (hr : r <:+ x.1.after) :
    listingPart.pursue (x.1.upto r, x.2) some = (listing? r).map (Clause.stand x) := by
  rw [listingPart, pursue_listPart, Spot.after_upto hr, ← map_stand_upto hr within_of_listing?,
    listing?, Option.map_map]
  rfl

theorem pursue_spacedListing (x : Stand) :
    spacedPart.pursue x some = (spacedListing? x.1.after).map (Clause.stand x) := by
  have at_drop : ∀ n ≤ (x.1.after.takeWhile isBlank).length,
      listingPart.pursue (x.1.skip n, x.2) some =
        (listing? (x.1.after.drop n)).map (Clause.stand x) := by
    intro n hn
    rw [Spot.skip_eq_upto (hn.trans (List.takeWhile_prefix _).length_le),
      pursue_listing x (List.drop_suffix n _)]
  -- If the run may not take all the blanks, it is the same however many it leaves.
  have back := pursue_run_back (s := .blank) (x := x)
    (k := fun y => listingPart.pursue y some) fun n hn none_last => ?_
  · rw [spacedPart, pursue_seq]
    refine back.trans ?_
    rw [has_blank, at_drop _ (Nat.sub_le _ _), spacedListing?, Option.map_or]
    exact congrArg (Option.or · _) (pursue_listing x (List.dropWhile_suffix _))
  · rw [has_blank] at hn none_last
    rw [at_drop _ (Nat.sub_le _ _), Option.map_eq_none_iff, listing?_eq_none_iff] at none_last
    rw [at_drop n hn.le, Option.map_eq_none_iff, listing?_eq_none_iff]
    exact (listed?_drop_congr (by omega) hn).1 none_last

theorem pursue_bracedListing (x : Stand) {r : List Char} (hr : r <:+ x.1.after) :
    bracedPart.pursue (x.1.upto r, x.2) some = (bracedListing? r).map (Clause.stand x) := by
  rw [← map_stand_upto hr within_of_bracedListing?]
  change (seq (alt (word "\x7b") empty) _).pursue _ some = _
  rw [pursue_seq, pursue_alt, pursue_empty, pursue_word, pursue_spacedListing, bracedListing?,
    Option.map_or, Spot.after_upto hr]
  congr 1
  cases brace : after? "\x7b" r with
  | none => rfl
  | some b =>
    have suffix := suffix_of_after? brace
    have inner : b <:+ (x.1.upto r).after := by rwa [Spot.after_upto hr]
    rw [Option.bind_some, Option.bind_some, pursue_spacedListing, Spot.after_upto inner]
    exact map_stand_upto (x := (x.1.upto r, x.2)) inner within_of_spacedListing?

section Opening
variable {x : Stand}

/-- The blanks go up to the brace: a list that begins before it is over only if one that begins
behind it is. -/
theorem pursue_opening_of_brace {b : List Char} (h : after? "\x7b" (trimStart x.1.after) = some b) :
    (seq blanks1 bracedPart).pursue x some =
      if x.1.after.head?.any isBlank then (spacedListing? b).map (Clause.stand x) else none := by
  have at_end := pursue_bracedListing x (trimStart_suffix x.1.after)
  rw [bracedListing?_of_opening h] at at_end
  rw [pursue_seq, ← at_end]
  refine pursue_run1 fun n hn none_end => ?_
  have none_end : spacedListing? b = none :=
    Option.map_eq_none_iff.1 (at_end.symm.trans none_end)
  have hn : n < (x.1.after.takeWhile isBlank).length := hn
  have blank : (x.1.after.drop n).head?.any isBlank = true := head?_drop_any hn
  rw [Spot.skip_eq_upto (hn.le.trans (List.takeWhile_prefix _).length_le),
    pursue_bracedListing x (List.drop_suffix n _), Option.map_eq_none_iff,
    bracedListing?_of_bare (after?_opening_of_blank blank), spacedListing?_drop hn]
  exact spacedListing?_of_opening h none_end

theorem pursue_opening_of_bare (h : after? "\x7b" (trimStart x.1.after) = none) :
    (seq blanks1 bracedPart).pursue x some =
      if x.1.after.head?.any isBlank then
        (spacedListing? x.1.after.tail).map (Clause.stand x) else none := by
  rw [pursue_seq]
  refine (pursue_plus rfl true x).trans ?_
  rw [pursue_char]
  cases hx : x.1.after with
  | nil => rfl
  | cons c u =>
    refine ite_congr rfl (fun blank => ?_) fun _ => rfl
    have suffix : u <:+ x.1.after := hx ▸ List.suffix_cons c u
    have after := Spot.after_upto suffix
    have bare : after? "\x7b" (trimStart u) = none := by
      have trimmed : trimStart (c :: u) = trimStart u := List.dropWhile_cons_of_pos blank
      rwa [hx, trimmed] at h
    have at_end := pursue_bracedListing x ((trimStart_suffix u).trans suffix)
    rw [bracedListing?_of_bare bare, spacedListing?_of_dark (head?_trimStart u)] at at_end
    have shorter : ∀ n < ((x.1.upto u).after.takeWhile isBlank).length,
        bracedPart.pursue ((x.1.upto u).skip n, x.2) some =
          (spacedListing? u).map (Clause.stand x) := by
      intro n hn
      have inner := List.drop_suffix n u
      rw [Spot.skip_eq_upto (hn.le.trans (List.takeWhile_prefix _).length_le), after]
      rw [after] at hn
      rw [Spot.upto_upto suffix inner, pursue_bracedListing x (inner.trans suffix),
        bracedListing?_of_bare (after?_opening_of_blank (head?_drop_any hn)),
        spacedListing?_drop hn]
    have whole := congrArg (Option.map (Clause.stand x)) (or_spacedListing? u)
    rw [Option.map_or, apply_ite (Option.map (Clause.stand x)), Option.map_none] at whole
    rw [Spot.next_eq_upto hx]
    refine (pursue_run_of_const (s := .blank) (x := (x.1.upto u, x.2))
      (k := fun y => bracedPart.pursue y some) shorter).trans ?_
    rw [after, Spot.upto_upto suffix (List.dropWhile_suffix _)]
    exact (congrArg (Option.or · _) at_end).trans whole

end Opening

theorem pursue_pattern (x : Spot) : importClause.pattern.pursue (x, {}) some =
    (clause? x.after).map (Clause.stand (x, {})) := by
  rw [pattern_eq, pursue_seq, pursue_word, clause?, Option.map_bind]
  apply Option.bind_congr
  intro r hr
  have suffix := suffix_of_after? hr
  have after := Spot.after_upto suffix
  have opened : (seq blanks1 bracedPart).pursue (x.upto r, {}) some =
      if r.head?.any isBlank then
        (spacedListing? ((after? "\x7b" (trimStart r)).getD r.tail)).map
          (Clause.stand (x.upto r, {})) else none := by
    cases brace : after? "\x7b" (trimStart r) with
    | none =>
      have bare := pursue_opening_of_bare (x := (x.upto r, {})) (by rwa [after])
      rwa [after] at bare
    | some b =>
      have braced := pursue_opening_of_brace (x := (x.upto r, {})) (after.symm ▸ brace)
      rwa [after] at braced
  refine opened.trans ?_
  rw [Function.comp_apply]
  split
  · exact map_stand_upto (x := (x, {})) suffix fun h =>
      (within_of_spacedListing? h).of_suffix (opening_suffix r)
  · rfl

def clauses (s : List Char) : List Clause :=
  match s with
  | [] => []
  | c :: s =>
    match _found : clause? (c :: s) with
    | some clause => clause :: clauses clause.rest
    | none => clauses s
termination_by s.length
decreasing_by
  · exact (within_of_clause? _found).2
  · simp

namespace Clause

def shown (c : Clause) : List (List Char) :=
  (((trim c.bindings).splitOn ',').map trim).filter fun name =>
    !name.isEmpty && name.head? != some '_'

def imports (c : Clause) : List Import :=
  c.shown.map fun name => ⟨String.ofList name, String.ofList c.origin⟩

variable {c : Clause} {text s : List Char}

theorem imports_sighting (h : c.Within s) (start : Nat) : Sighting.imports
    ⟨importClause, String.ofList c.bindings, start, some (String.ofList c.origin)⟩ = c.imports := by
  have sourced : (String.ofList c.origin).isEmpty = false := by simpa using h.origin_filled
  have accepts : ∀ name, importClause.accepts (String.ofList name) =
      (!name.isEmpty && name.head? != some '_') := by
    intro name
    rw [Bool.eq_iff_iff, accepts_iff]
    simp
  simp only [Sighting.imports, String.toList_ofList, sourced, Bool.or_false]
  split
  · rename_i empty
    rw [imports, shown, List.isEmpty_iff.1 empty]
    rfl
  · rw [imports, shown, ← List.map_map, List.filterMap_map]
    generalize ((trim c.bindings).splitOn ',').map trim = pieces
    rw [← List.filterMap_eq_map', List.filterMap_filter]
    apply List.filterMap_congr
    intro name _
    simp only [Function.comp_apply, accepts]

theorem sighting?_stand (hs : s <:+ text) (h : c.Within s) : ∃ start,
    importClause.recognizer.sighting? text
      (Match.ofStand (placeOf text s).index (c.stand (placeOf text s, {}))) =
        some ⟨importClause, String.ofList c.bindings, start, some (String.ofList c.origin)⟩ := by
  have listing := h.listing.trans hs
  have ending := h.ending.trans listing
  have named := h.named.trans ending
  have names : (Match.ofStand (placeOf text s).index (c.stand (placeOf text s, {}))).span? 1 =
      some ⟨(placeOf text (c.bindings ++ c.ending)).index, (placeOf text c.ending).index⟩ := by
    rw [stand, span?_names, upto_placeOf hs h.listing, upto_placeOf hs (h.ending.trans h.listing),
      h.bindings_append]
  have module : (Match.ofStand (placeOf text s).index (c.stand (placeOf text s, {}))).span? 2 =
      some ⟨(placeOf text (c.origin ++ c.closing)).index, (placeOf text c.closing).index⟩ := by
    rw [stand, span?_origin, upto_placeOf hs (h.ending.trans h.listing),
      upto_placeOf ending h.named, upto_placeOf ending (h.closing.trans h.named), h.origin_append]
  refine ⟨byteSize (text.take (placeOf text s).index), ?_⟩
  rw [← h.bindings_append] at listing
  rw [← h.origin_append] at named
  simp only [Recognizer.sighting?, recognizer, if_true, names, module, slice_between listing,
    slice_between named, Option.map_some, Option.bind_eq_bind, Option.bind_some]
  rfl

end Clause

theorem importsFrom_clauses {text s : List Char} (h : s <:+ text) :
    importsFrom text s = (clauses s).flatMap Clause.imports := by
  fun_induction clauses s with
  | case1 =>
    rw [importsFrom, matchesFrom_end steady_pattern taking_pattern (after_placeOf h)]
    rfl
  | case2 c s clause found ih =>
    have within := (within_of_clause? found).1
    have inner : clause.ending <:+ c :: s := within.ending.trans within.listing
    have behind : clause.rest <:+ clause.ending :=
      (List.tail_suffix _).trans (within.closing.trans within.named)
    have matched : importClause.pattern.matchAt (placeOf text (c :: s)) =
        some (Match.ofStand (placeOf text (c :: s)).index
          (clause.stand (placeOf text (c :: s), {}))) := by
      rw [matchAt_eq_pursue steady_pattern, pursue_pattern, after_placeOf h, found]
      rfl
    have stop : (Match.ofStand (placeOf text (c :: s)).index
        (clause.stand (placeOf text (c :: s), {}))).stop = (placeOf text clause.rest).index := by
      have place : ((placeOf text (c :: s)).upto clause.ending).upto clause.rest =
          placeOf text clause.rest := by
        rw [upto_placeOf h inner, upto_placeOf (inner.trans h) behind]
      exact congrArg Spot.index place
    obtain ⟨start, sighted⟩ := Clause.sighting?_stand h within
    rw [importsFrom, matchesFrom_of_some steady_pattern taking_pattern matched, stop,
      skip_placeOf h (behind.trans inner), List.filterMap_cons, sighted, List.flatMap_cons,
      Clause.imports_sighting within, List.flatMap_cons, ← ih (behind.trans (inner.trans h)),
      importsFrom]
  | case3 c s missed ih =>
    have unmatched : importClause.pattern.matchAt (placeOf text (c :: s)) = none := by
      rw [matchAt_eq_pursue steady_pattern, pursue_pattern, after_placeOf h, missed]
      rfl
    rw [importsFrom, matchesFrom_of_none steady_pattern taking_pattern unmatched, next_placeOf h]
    exact ih ((List.suffix_cons c s).trans h)

theorem imports_eq (path content : String) : (FileRecord.ofSource path content).imports =
    (clauses content.toList).flatMap Clause.imports := by
  have whole : placeOf content.toList content.toList = ⟨none, content.toList, 0⟩ :=
    Spot.upto_after _
  have all := importsFrom_clauses (List.suffix_refl content.toList)
  rwa [importsFrom, whole, ← matchesIn_eq] at all

theorem plain_of_shown {path content : String} {i : Import}
    (h : i ∈ (FileRecord.ofSource path content).imports)
    (shown : ∀ d ∈ ['{', '\'', '"'], d ∉ i.name.toList) : i.Plain := by
  obtain ⟨s, found, hi⟩ := List.mem_flatMap.1 h
  have no_closing : '}' ∉ i.name.toList := (clean_of_mem_imports found hi).plain.2
  intro d hd
  by_cases closing : d = '}'
  · rwa [closing]
  · refine shown d ?_
    simpa [closing] using hd

/-- The imports of a record are the names that the clauses of the text bind. They are free of braces
and quotes exactly if no shown name of a clause has an opening brace or a quote. -/
theorem plain_imports_iff (path content : String) :
    (FileRecord.ofSource path content).imports =
        (clauses content.toList).flatMap Clause.imports ∧
      ((∀ i ∈ (FileRecord.ofSource path content).imports, i.Plain) ↔
        ∀ clause ∈ clauses content.toList, ∀ name ∈ clause.shown,
          ∀ d ∈ ['{', '\'', '"'], d ∉ name) := by
  refine ⟨imports_eq path content, fun plain clause hclause name hname d hd => ?_,
    fun shown i hi => plain_of_shown hi fun d hd => ?_⟩
  · have recorded : ⟨String.ofList name, String.ofList clause.origin⟩ ∈
        (FileRecord.ofSource path content).imports := by
      rw [imports_eq]
      exact List.mem_flatMap.2 ⟨clause, hclause, List.mem_map_of_mem hname⟩
    have syntactic : ['{', '\'', '"'] ⊆ ['{', '}', '\'', '"'] := by simp
    have free := plain _ recorded d (syntactic hd)
    rwa [String.toList_ofList] at free
  · rw [imports_eq] at hi
    obtain ⟨clause, hclause, hi⟩ := List.mem_flatMap.1 hi
    obtain ⟨name, hname, rfl⟩ := List.mem_map.1 hi
    rw [String.toList_ofList]
    exact shown clause hclause name hname d hd

/-- The brace behind a first binding without one is taken for a part of the second. -/
theorem not_plain_mixed : ¬ ∀ i ∈
    (FileRecord.ofSource "a.ts" "import A, \x7b B \x7d from 'm'").imports, i.Plain := by
  intro plain
  have recorded : (⟨"\x7b B", "m"⟩ : Import) ∈
      (FileRecord.ofSource "a.ts" "import A, \x7b B \x7d from 'm'").imports := by decide +kernel
  exact plain _ recorded '{' (by decide) (by decide)

example : (FileRecord.ofSource "a.ts" "import 'x';\nimport a from 'm'").imports =
    [⟨"'x';\nimport a", "m"⟩] := by decide +kernel

end ImportClause

end Snapshot
