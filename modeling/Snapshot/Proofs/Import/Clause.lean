import Snapshot.Proofs.Declaration.Parts

/-!
# Import clauses

An import clause is read from the left: behind its first word comes the list of what it binds, which
goes on to the first place where the clause can be closed. It is closed by a brace perhaps, then
blanks, the word `from` and a quoted module. Where this reading succeeds, the pattern of imports
matches the same stretch of text.
-/

namespace Snapshot.ImportClause
open Pattern Text Kind

def unquoted : CharSet := .compl quotes

def quoted? : List Char → Option (List Char × List Char)
  | [] => none
  | q :: named =>
    if quotes.has q && named.head?.any unquoted.has && !(named.dropWhile unquoted.has).isEmpty then
      some (named, named.dropWhile unquoted.has)
    else none

def origin? (s : List Char) : Option (List Char × List Char) :=
  (afterKeyword? ["from"] s).bind quoted?

def spaced? (s : List Char) : Option (List Char × List Char) := (afterBlanks? s).bind origin?

def closing? (s : List Char) : Option (List Char × List Char) :=
  match after? "\x7d" (trimStart s) with
  | some r => spaced? r
  | none => spaced? s

def listed? : List Char → Option (List Char × List Char × List Char)
  | [] => none
  | c :: s =>
    match closing? (c :: s) with
    | some found => some (c :: s, found)
    | none => if c = '}' then none else listed? s

theorem quoted?_eq_some_iff {s named closing : List Char} :
    quoted? s = some (named, closing) ↔ ∃ q, s = q :: named ∧ quotes.has q = true ∧
      named.head?.any unquoted.has = true ∧ closing = named.dropWhile unquoted.has ∧
      closing ≠ [] := by
  cases s with
  | nil => simp [quoted?]
  | cons q t =>
    simp only [quoted?, Option.ite_none_right_eq_some, Option.some.injEq, Prod.mk.injEq,
      Bool.and_eq_true, Bool.not_eq_true', List.isEmpty_eq_false_iff, List.cons.injEq]
    constructor
    · rintro ⟨⟨⟨hq, first⟩, filled⟩, rfl, rfl⟩
      exact ⟨q, ⟨rfl, rfl⟩, hq, first, rfl, filled⟩
    · rintro ⟨_, ⟨rfl, rfl⟩, hq, first, rfl, filled⟩
      exact ⟨⟨⟨hq, first⟩, filled⟩, rfl, rfl⟩

def Ends (s : List Char) (found : List Char × List Char) : Prop :=
  found.1 <:+ s ∧ found.2 <:+ found.1

theorem Ends.of_suffix {s t : List Char} {found : List Char × List Char} (h : Ends t found)
    (ht : t <:+ s) : Ends s found := ⟨h.1.trans ht, h.2⟩

theorem ends_of_quoted? {s : List Char} {found : List Char × List Char}
    (h : quoted? s = some found) : Ends s found := by
  obtain ⟨q, rfl, -, -, closing, -⟩ := quoted?_eq_some_iff.1 h
  exact ⟨List.suffix_cons q _, closing ▸ List.dropWhile_suffix _⟩

theorem ends_of_origin? {s : List Char} {found : List Char × List Char}
    (h : origin? s = some found) : Ends s found := by
  obtain ⟨r, hr, h⟩ := Option.bind_eq_some_iff.1 h
  exact (ends_of_quoted? h).of_suffix (suffix_of_afterKeyword? hr)

theorem ends_of_spaced? {s : List Char} {found : List Char × List Char}
    (h : spaced? s = some found) : Ends s found := by
  obtain ⟨r, hr, h⟩ := Option.bind_eq_some_iff.1 h
  exact (ends_of_origin? h).of_suffix (suffix_of_afterBlanks? hr)

theorem ends_of_closing? {s : List Char} {found : List Char × List Char}
    (h : closing? s = some found) : Ends s found := by
  unfold closing? at h
  split at h
  · rename_i brace
    exact (ends_of_spaced? h).of_suffix ((suffix_of_after? brace).trans (trimStart_suffix s))
  · exact ends_of_spaced? h

theorem suffix_of_listed? {s behind : List Char} {found : List Char × List Char}
    (h : listed? s = some (behind, found)) : behind <:+ s ∧ Ends behind found := by
  induction s with
  | nil => simp [listed?] at h
  | cons c s ih =>
    unfold listed? at h
    split at h
    · rename_i closed
      obtain ⟨rfl, rfl⟩ := Prod.mk.inj (Option.some.inj h)
      exact ⟨List.suffix_rfl, ends_of_closing? closed⟩
    · split at h
      · simp at h
      · obtain ⟨suffix, ends⟩ := ih h
        exact ⟨suffix.trans (List.suffix_cons c s), ends⟩

def standBehind (x : Stand) (found : List Char × List Char) : Stand :=
  (x.1.upto found.2.tail,
    (x.2.enter 2 (x.1.upto found.1).index).leave 2 (x.1.upto found.2).index)

theorem standBehind_upto {x : Stand} {r : List Char} (hr : r <:+ x.1.after)
    {found : List Char × List Char} (h : Ends r found) :
    standBehind (x.1.upto r, x.2) found = standBehind x found := by
  simp only [standBehind, Spot.upto_upto hr h.1, Spot.upto_upto hr (h.2.trans h.1),
    Spot.upto_upto hr ((List.tail_suffix _).trans (h.2.trans h.1))]

def quotedPart : Pattern := concat [char quotes, group 2 (many1 (char unquoted)), char quotes]
def originPart : Pattern := seq (word "from") (seq blanks1 quotedPart)
def closingPart : Pattern := seq blanks (seq (opt (word "\x7d")) (seq blanks1 originPart))
def listPart : Pattern := group 1 (many (char (.compl (.single '}'))) false)

theorem pattern_eq : importClause.pattern = seq (word "import") (seq blanks1
    (seq (opt (word "\x7b")) (seq blanks (seq listPart closingPart)))) := rfl

theorem quotes_iff (c : Char) : quotes.has c = true ↔ c = '\'' ∨ c = '"' := by
  simp [quotes, CharSet.ofList, CharSet.has, has_single]

theorem quotes_of_blank {c : Char} (h : isBlank c = true) : quotes.has c = false := by
  apply Bool.eq_false_iff.2
  intro hc
  rcases (quotes_iff c).1 hc with rfl | rfl <;> revert h <;> decide

theorem quoted_of_unquoted {c : Char} (h : unquoted.has c = true) : quotes.has c = false := by
  simpa [unquoted, CharSet.has] using h

theorem quotes_of_dropWhile {s rest : List Char} {c : Char}
    (h : s.dropWhile unquoted.has = c :: rest) : quotes.has c = true := by
  have stop := head?_dropWhile_any (p := unquoted.has) s
  rw [h] at stop
  simpa [unquoted, CharSet.has] using stop

theorem pursue_quotedPart (x : Stand) :
    quotedPart.pursue x some = (quoted? x.1.after).map (standBehind x) := by
  have stop : Refuses (fun y : Stand =>
      (char quotes).pursue (y.1, y.2.leave 2 y.1.index) some) unquoted := fun y hy =>
    refuses_pursue (p := char quotes) rfl (fun c => quoted_of_unquoted) _ hy
  change (seq (char quotes) (seq (group 2 (plus true (char unquoted))) (char quotes))).pursue
    x some = _
  rw [pursue_seq, pursue_char]
  cases hx : x.1.after with
  | nil => rfl
  | cons q named =>
    have suffix : named <:+ x.1.after := hx ▸ List.suffix_cons q named
    have inner : named.dropWhile unquoted.has <:+ named := List.dropWhile_suffix _
    rw [List.head?_cons, Option.any_some, Spot.next_eq_upto hx, pursue_seq, pursue_group,
      pursue_run1_of_refuses stop]
    simp only [Spot.after_upto suffix, Spot.upto_upto suffix inner, pursue_char,
      Spot.after_upto (inner.trans suffix), quoted?]
    cases hq : quotes.has q with
    | false => simp
    | true =>
      cases first : named.head?.any unquoted.has with
      | false => simp
      | true =>
        cases hc : named.dropWhile unquoted.has with
        | nil => simp
        | cons q' rest =>
          have behind : (x.1.upto (q' :: rest)).next = x.1.upto rest := by
            have inner : q' :: rest <:+ x.1.after := hc ▸ inner.trans suffix
            rw [Spot.next_eq_upto (Spot.after_upto inner),
              Spot.upto_upto inner (List.suffix_cons q' rest)]
          simp [quotes_of_dropWhile hc, behind, standBehind]

theorem map_standBehind_upto {x : Stand} {r : List Char} (hr : r <:+ x.1.after)
    {read : List Char → Option (List Char × List Char)}
    (ends : ∀ {found}, read r = some found → Ends r found) :
    (read r).map (standBehind (x.1.upto r, x.2)) = (read r).map (standBehind x) :=
  Option.map_congr fun _ h => standBehind_upto hr (ends h)

theorem pursue_originPart (x : Stand) :
    originPart.pursue x some = (origin? x.1.after).map (standBehind x) := by
  have stop : Refuses (fun y => quotedPart.pursue y some) .blank :=
    refuses_pursue rfl fun _ => quotes_of_blank
  rw [originPart, pursue_seq]
  simp only [pursue_seq blanks1]
  rw [pursue_keyword stop, origin?, Option.map_bind]
  apply Option.bind_congr
  intro r hr
  have suffix := suffix_of_afterKeyword? hr
  rw [pursue_quotedPart, Spot.after_upto suffix]
  exact map_standBehind_upto suffix ends_of_quoted?

theorem refuses_originPart : Refuses (fun y => originPart.pursue y some) .blank :=
  refuses_pursue rfl fun _ hc => single_eq_false hc (by decide)

theorem pursue_spaced (x : Stand) :
    (seq blanks1 originPart).pursue x some = (spaced? x.1.after).map (standBehind x) := by
  rw [pursue_seq, pursue_blanks1 refuses_originPart, spaced?, Option.map_bind]
  apply Option.bind_congr
  intro r hr
  have suffix := suffix_of_afterBlanks? hr
  rw [pursue_originPart, Spot.after_upto suffix]
  exact map_standBehind_upto suffix ends_of_origin?

theorem spaced?_brace (s : List Char) : spaced? ('}' :: s) = none := rfl

theorem pursue_braced (x : Stand) :
    (seq (opt (word "\x7d")) (seq blanks1 originPart)).pursue x some =
      (spaced? ((after? "\x7d" x.1.after).getD x.1.after)).map (standBehind x) := by
  change (seq (alt (word "\x7d") empty) (seq blanks1 originPart)).pursue x some = _
  rw [pursue_seq, pursue_alt, pursue_empty, pursue_word, pursue_spaced]
  cases hr : after? "\x7d" x.1.after with
  | none => rfl
  | some r =>
    have suffix := suffix_of_after? hr
    have brace : spaced? x.1.after = none := after?_eq_some_iff.1 hr ▸ spaced?_brace r
    rw [Option.bind_some, pursue_spaced, Spot.after_upto suffix, brace, Option.map_none,
      Option.or_none, Option.getD_some]
    exact map_standBehind_upto suffix ends_of_spaced?

theorem spaced?_of_blank {s : List Char} (h : s.head?.any isBlank = true) :
    spaced? s = origin? (trimStart s) := by
  rw [spaced?, afterBlanks?, if_pos h, Option.bind_some]

theorem spaced?_of_dark {s : List Char} (h : s.head?.any isBlank = false) : spaced? s = none := by
  simp [spaced?, afterBlanks?, h]

def braced? (s : List Char) : Option (List Char × List Char) :=
  spaced? ((after? "\x7d" s).getD s)

theorem ends_of_braced? {s : List Char} {found : List Char × List Char}
    (h : braced? s = some found) : Ends s found := by
  refine (ends_of_spaced? h).of_suffix ?_
  cases brace : after? "\x7d" s with
  | none => exact List.suffix_rfl
  | some r => exact suffix_of_after? brace

theorem after?_brace_of_blank {s : List Char} (h : s.head?.any isBlank = true) :
    after? "\x7d" s = none := by
  cases hr : after? "\x7d" s with
  | none => rfl
  | some r =>
    rw [after?_eq_some_iff.1 hr] at h
    revert h
    simp [show isBlank '}' = false by decide]

/-- Where a brace is ahead the blanks have to be taken up to it, and elsewhere one of them has to be
left. -/
theorem closing?_eq (s : List Char) : closing? s =
    (braced? (trimStart s)).or (if s.head?.any isBlank then spaced? s else none) := by
  have at_end := spaced?_of_dark (head?_trimStart s)
  unfold closing? braced?
  cases brace : after? "\x7d" (trimStart s) with
  | some r =>
    have no_origin : origin? (trimStart s) = none := by
      rw [after?_eq_some_iff.1 brace]
      rfl
    by_cases blank : s.head?.any isBlank = true
    · simp [blank, spaced?_of_blank blank, no_origin]
    · simp [blank]
  | none =>
    by_cases blank : s.head?.any isBlank = true
    · simp [blank, at_end]
    · simp [spaced?_of_dark (Bool.eq_false_iff.2 blank), at_end]

theorem pursue_closingPart (x : Stand) :
    closingPart.pursue x some = (closing? x.1.after).map (standBehind x) := by
  have trimmed := trimStart_suffix x.1.after
  have at_end : (seq (opt (word "\x7d")) (seq blanks1 originPart)).pursue
      (x.1.upto (trimStart x.1.after), x.2) some =
        (braced? (trimStart x.1.after)).map (standBehind x) := by
    rw [pursue_braced, Spot.after_upto trimmed]
    exact map_standBehind_upto trimmed ends_of_braced?
  have before_end : ∀ n < (x.1.after.takeWhile CharSet.blank.has).length,
      (seq (opt (word "\x7d")) (seq blanks1 originPart)).pursue (x.1.skip n, x.2) some =
        (spaced? x.1.after).map (standBehind x) := by
    intro n hn
    have le : n ≤ x.1.after.length := hn.le.trans (List.takeWhile_prefix _).length_le
    have blank : (x.1.after.drop n).head?.any isBlank = true := head?_drop_any hn
    have suffix : x.1.after.drop n <:+ x.1.after := List.drop_suffix n _
    have first : x.1.after.head?.any isBlank = true :=
      head?_drop_any (n := 0) (Nat.zero_lt_of_lt hn)
    have same : spaced? (x.1.after.drop n) = spaced? x.1.after := by
      rw [spaced?_of_blank blank, spaced?_of_blank first, trimStart_drop hn.le]
    rw [pursue_braced, Spot.skip_eq_upto le, Spot.after_upto suffix, after?_brace_of_blank blank,
      Option.getD_none, map_standBehind_upto suffix ends_of_spaced?, same]
  have run := pursue_run_of_const (s := .blank) (k := fun y =>
    (seq (opt (word "\x7d")) (seq blanks1 originPart)).pursue y some) before_end
  rw [closingPart, pursue_seq]
  refine run.trans ?_
  rw [has_blank]
  refine (congrArg (Option.or · _) at_end).trans ?_
  rw [closing?_eq]
  split
  · exact Option.map_or.symm
  · rw [Option.or_none, Option.or_none]

def standListed (x : Stand) (names : List Char) (found : List Char × List Char × List Char) :
    Stand :=
  standBehind (x.1.upto found.1,
    (x.2.enter 1 (x.1.upto names).index).leave 1 (x.1.upto found.1).index) found.2

theorem pursue_names (x : Stand) :
    (star false (char (.compl (.single '}')))).pursue x
        (fun y => closingPart.pursue (y.1, y.2.leave 1 y.1.index) some) =
      (listed? x.1.after).map fun found =>
        standBehind (x.1.upto found.1, x.2.leave 1 (x.1.upto found.1).index) found.2 := by
  obtain ⟨⟨before, after, index⟩, g⟩ := x
  induction after generalizing before index with
  | nil =>
    rw [pursue_star rfl, pursue_char, pursue_closingPart]
    rfl
  | cons c s ih =>
    rw [pursue_star rfl, pursue_char, pursue_closingPart, has_compl_single]
    simp only [listed?, Bool.false_eq_true, if_false, List.head?_cons, Option.any_some,
      Spot.next_cons]
    cases hc : closing? (c :: s) with
    | some found =>
      have here : (Spot.mk before (c :: s) index).upto (c :: s) = ⟨before, c :: s, index⟩ :=
        Spot.upto_after _
      simp [here]
    | none =>
      by_cases brace : c = '}'
      · simp [brace]
      · have next : (Spot.mk before (c :: s) index).upto s = ⟨some c, s, index + 1⟩ :=
          (Spot.next_eq_upto rfl).symm
        simp only [brace, if_false, Option.map_none, Option.none_or, bne_iff_ne, ne_eq,
          not_false_eq_true, if_true, ih]
        apply Option.map_congr
        intro found hfound
        have suffix := (suffix_of_listed? hfound).1
        rw [← next, Spot.upto_upto (s := ⟨before, c :: s, index⟩) (List.suffix_cons c s) suffix]

theorem pursue_listPart (x : Stand) :
    (seq listPart closingPart).pursue x some =
      (listed? x.1.after).map (standListed x x.1.after) := by
  rw [pursue_seq, listPart, pursue_group]
  refine (pursue_names _).trans ?_
  exact Option.map_congr fun found _ => by rw [standListed, Spot.upto_after]

theorem standListed_upto {x : Stand} {r names : List Char}
    {found : List Char × List Char × List Char} (hr : r <:+ x.1.after) (hn : names <:+ r)
    (hf : found.1 <:+ names) :
    standListed (x.1.upto r, x.2) names found = standListed x names found := by
  simp only [standListed, Spot.upto_upto hr hn, Spot.upto_upto hr (hf.trans hn)]

theorem pursue_blanks_names {x : Stand} {found : List Char × List Char × List Char}
    (h : listed? (trimStart x.1.after) = some found) :
    (seq blanks (seq listPart closingPart)).pursue x some =
      some (standListed x (trimStart x.1.after) found) := by
  have trimmed := trimStart_suffix x.1.after
  rw [pursue_seq]
  apply pursue_blanks_of_some
  rw [pursue_listPart, Spot.after_upto trimmed, h, Option.map_some,
    standListed_upto trimmed List.suffix_rfl (suffix_of_listed? h).1]

theorem pursue_brace_names {x : Stand} {names : List Char}
    {found : List Char × List Char × List Char}
    (hn : names = trimStart ((after? "\x7b" x.1.after).getD x.1.after))
    (h : listed? names = some found) :
    (seq (opt (word "\x7b")) (seq blanks (seq listPart closingPart))).pursue x some =
      some (standListed x names found) := by
  change (seq (alt (word "\x7b") empty) _).pursue x some = _
  rw [pursue_seq, pursue_alt, pursue_empty, pursue_word]
  subst hn
  cases brace : after? "\x7b" x.1.after with
  | none =>
    rw [brace, Option.getD_none] at h
    rw [Option.bind_none, Option.none_or, Option.getD_none, pursue_blanks_names h]
  | some r =>
    have suffix := suffix_of_after? brace
    rw [brace, Option.getD_some] at h
    have listed : listed? (trimStart (x.1.upto r).after) = some found := by
      rwa [Spot.after_upto suffix]
    have inner := pursue_blanks_names (x := (x.1.upto r, x.2)) listed
    rw [Spot.after_upto suffix] at inner
    rw [Option.bind_some, Option.getD_some, inner,
      standListed_upto suffix (trimStart_suffix r) (suffix_of_listed? h).1]
    rfl

def names? (s : List Char) : Option (List Char) :=
  (afterKeyword? ["import"] s).map fun s => trimStart ((after? "\x7b" s).getD s)

theorem suffix_getD_after? (w : String) (s : List Char) : (after? w s).getD s <:+ s := by
  cases h : after? w s with
  | none => exact List.suffix_rfl
  | some r => exact suffix_of_after? h

theorem pursue_of_listed? {x : Spot} {names : List Char}
    {found : List Char × List Char × List Char} (begins : names? x.after = some names)
    (listed : listed? names = some found) :
    importClause.pattern.pursue (x, {}) some = some (standListed (x, {}) names found) := by
  obtain ⟨t, ht, hn⟩ := Option.map_eq_some_iff.1 begins
  obtain ⟨w, hw, r, hx, blank, rfl⟩ := exists_of_afterKeyword? ht
  obtain rfl := List.mem_singleton.1 hw
  have behind : after? "import" x.after = some r := after?_eq_some_iff.2 hx
  have suffix := suffix_of_after? behind
  have trimmed := trimStart_suffix r
  have spaced : afterBlanks? (x.upto r).after = some (trimStart r) := by
    rw [Spot.after_upto suffix]
    exact afterBlanks?_eq_some_iff.2 ⟨blank, rfl⟩
  have opened : names = trimStart ((after? "\x7b" (x.upto (trimStart r)).after).getD
      (x.upto (trimStart r)).after) := by
    rw [Spot.after_upto (trimmed.trans suffix), hn]
  have inner : names <:+ trimStart r := by
    rw [← hn]
    exact (trimStart_suffix _).trans (suffix_getD_after? _ _)
  rw [pattern_eq, pursue_seq, pursue_word, behind, Option.bind_some, pursue_seq]
  apply pursue_blanks1_of_some spaced
  rw [Spot.upto_upto suffix trimmed]
  refine (pursue_brace_names opened listed).trans ?_
  rw [standListed_upto (x := (x, {})) (trimmed.trans suffix) inner (suffix_of_listed? listed).1]

end Snapshot.ImportClause
