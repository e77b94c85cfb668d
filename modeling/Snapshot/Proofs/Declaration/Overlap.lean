import Snapshot.Proofs.Declaration.Inert

/-!
# Components among the functions

A component is a function with a body behind its signature, but the two kinds are searched for one
apart from the other, and each search goes on behind what it has found. The function of a component
is found with the same name, unless the component begins inside the parameters of another function.
-/

namespace Snapshot

structure Recognizer.Sights (r : Recognizer) (content : String) (m : Pattern.Match)
    (s : Sighting) : Prop where
  matched : m ∈ r.pattern.matchesIn content.toList
  seen : r.sighting? content.toList m = some s

theorem Recognizer.mem_recognize {r : Recognizer} {content : String} {s : Sighting} :
    s ∈ r.recognize content ↔ ∃ m, r.Sights content m s := by
  rw [recognize, List.mem_filterMap]
  exact exists_congr fun m => ⟨fun h => ⟨h.1, h.2⟩, fun h => ⟨h.1, h.2⟩⟩

namespace Kind
open Pattern Text

theorem sights_iff {k : Kind} (hk : k ≠ importClause) {content : String} {m : Match}
    {s : Sighting} : k.recognizer.Sights content m s ↔ ∃ hit ∈ k.hits content.toList,
      m = matchOf content.toList hit ∧ s = k.sight
        (nameOf hit.named, byteSize content.toList - byteSize hit.whole) := by
  have found : ∀ {hit}, hit ∈ k.hits content.toList →
      k.recognizer.sighting? content.toList (matchOf content.toList hit) = some (k.sight
        (nameOf hit.named, byteSize content.toList - byteSize hit.whole)) := by
    intro hit mem
    obtain ⟨suffix, shape⟩ := of_mem_hits mem
    exact sighting?_matchOf hk suffix shape
  constructor
  · rintro ⟨matched, seen⟩
    change m ∈ k.pattern.matchesIn content.toList at matched
    rw [matchesIn_eq_hits hk] at matched
    obtain ⟨hit, mem, rfl⟩ := List.mem_map.1 matched
    exact ⟨hit, mem, rfl, Option.some.inj (seen.symm.trans (found mem))⟩
  · rintro ⟨hit, mem, rfl, rfl⟩
    refine ⟨?_, found mem⟩
    change matchOf content.toList hit ∈ k.pattern.matchesIn content.toList
    rw [matchesIn_eq_hits hk]
    exact List.mem_map_of_mem mem

theorem mem_hits_or_inside {k : Kind} {s : List Char} {p : Hit} (hp : p.whole <:+ s)
    (h : k.shape? p.whole = some (p.named, p.rest)) :
    p ∈ k.hits s ∨ ∃ t ∈ k.hits s, p.whole <:+ t.whole ∧ t.rest.length < p.whole.length := by
  fun_induction hits k s with
  | case1 =>
    have shorter := (suffix_of_shape? h).2
    rw [List.suffix_nil.1 hp] at shorter
    exact absurd shorter (Nat.not_lt_zero _)
  | case2 c s named rest shape ih =>
    obtain ⟨suffix, -⟩ := suffix_of_shape? shape
    rcases Nat.lt_or_ge rest.length p.whole.length with inside | behind
    · exact .inr ⟨_, List.mem_cons_self, hp, inside⟩
    · refine (ih (List.suffix_of_suffix_length_le hp suffix behind)).imp
        (List.mem_cons_of_mem _) ?_
      rintro ⟨t, ht, inside⟩
      exact ⟨t, List.mem_cons_of_mem _ ht, inside⟩
  | case3 c s shape ih =>
    rcases List.suffix_cons_iff.1 hp with same | hs
    · rw [same, shape] at h
      cases h
    · exact ih hs

theorem function_shape?_of_component {s named rest : List Char}
    (h : component.shape? s = some (named, rest)) :
    ∃ rest', function.shape? s = some (named, rest') := by
  obtain ⟨hn, hr⟩ := shape?_eq_some_iff.1 h
  obtain ⟨rest', signed, -⟩ := Option.bind_eq_some_iff.1 hr
  refine ⟨rest', shape?_eq_some_iff.2 ⟨?_, signed⟩⟩
  -- A keyword stands where `async` would, so there is nothing more to skip.
  have keyword := exists_of_afterKeyword? hn
  have plain : skipQualifier "async" (skipQualifier "export" s) = skipQualifier "export" s := by
    obtain ⟨w, hw, r, same, -, -⟩ := keyword
    have start : ∀ w ∈ ["function", "const"], ∀ r : List Char,
        after? "async" (w.toList ++ r) = none := by
      intro w hw r
      rcases List.mem_pair.1 hw with rfl | rfl <;> rfl
    rw [same, skipQualifier, start w hw r]
    rfl
  rw [named?, plain]
  exact hn

theorem suffix_append_cases {p a b : List Char} (h : p <:+ a ++ b) :
    p <:+ b ∨ ∃ e, e <:+ a ∧ p = e ++ b := by
  rcases List.suffix_or_suffix_of_suffix h (List.suffix_append a b) with inner | ⟨e, rfl⟩
  · exact .inl inner
  · refine .inr ⟨e, ?_, rfl⟩
    obtain ⟨d, same⟩ := h
    rw [← List.append_assoc] at same
    exact ⟨d, List.append_cancel_right same⟩

theorem suffix_of_no_name {p a b : List Char} (h : p <:+ a ++ b)
    (dark : a.any nameChar.has = false) (name : p.head?.any nameChar.has = true) : p <:+ b := by
  rcases suffix_append_cases h with inner | ⟨e, he, rfl⟩
  · exact inner
  · cases e with
    | nil => exact List.suffix_rfl
    | cons c e =>
      exact absurd name (List.any_eq_false.1 dark c (he.subset List.mem_cons_self))

theorem no_name_of_blank {e : List Char} (h : ∀ c ∈ e, isBlank c = true) :
    e.any nameChar.has = false :=
  List.any_eq_false.2 fun c hc => Bool.eq_false_iff.1 (nameChar_of_blank (h c hc))

theorem head?_of_shape? {k : Kind} {s named rest : List Char}
    (h : k.shape? s = some (named, rest)) : s.head?.any nameChar.has = true := by
  cases head : s.head?.any nameChar.has with
  | true => rfl
  | false => simp [shape?_eq_none_of_dark head] at h

section Words
variable {v w : String} (hv : v ∈ keywords ++ qualifiers) (hw : w ∈ keywords ++ qualifiers)
  {r s : List Char} (hr : r.head?.any isBlank = true) (hs : s.head?.any isBlank = true)
include hv hw hr hs

theorem word_append_inj (same : v.toList ++ r = w.toList ++ s) : v = w ∧ r = s := by
  have run := congrArg (List.takeWhile nameChar.has) same
  rw [takeWhile_run (fun _ => nameChar_of_mem_word hv) (head?_nameChar_of_blank hr),
    takeWhile_run (fun _ => nameChar_of_mem_word hw) (head?_nameChar_of_blank hs)] at run
  rw [run] at same
  exact ⟨String.toList_inj.1 run, List.append_cancel_left same⟩

theorem suffix_of_word (h : v.toList ++ r <:+ w.toList ++ s) :
    v.toList ++ r = w.toList ++ s ∨ v.toList ++ r <:+ trimStart s := by
  rcases suffix_append_cases h with inner | ⟨e, he, same⟩
  · right
    rw [← List.takeWhile_append_dropWhile (p := isBlank) (l := s)] at inner
    exact suffix_of_no_name inner (no_name_of_blank fun _ => List.mem_takeWhile_imp)
      (head?_word_append hv r)
  · left
    have apart : ∀ v ∈ keywords ++ qualifiers, ∀ w ∈ keywords ++ qualifiers,
        v.toList <:+ w.toList → v.toList = w.toList := by decide
    have run := congrArg (List.takeWhile nameChar.has) same
    rw [takeWhile_run (fun _ => nameChar_of_mem_word hv) (head?_nameChar_of_blank hr),
      takeWhile_run (fun _ hc => nameChar_of_mem_word hw (he.subset hc))
        (head?_nameChar_of_blank hs)] at run
    rw [same, ← run, apart v hv w hw (run ▸ he)]

end Words

theorem LeadIn.behind_word {w : String} {r named : List Char} (hw : w ∈ keywords ++ qualifiers)
    (blank : r.head?.any isBlank = true) (h : LeadIn (w.toList ++ r) named) :
    w ∈ keywords ∧ named = trimStart r ∨ w ∈ qualifiers ∧ LeadIn (trimStart r) named := by
  generalize same : w.toList ++ r = s at h
  cases h with
  | keyword hv blank' =>
    obtain ⟨rfl, rfl⟩ := word_append_inj hw (List.mem_append_left _ hv) blank blank' same
    exact .inl ⟨hv, rfl⟩
  | qualifier hv blank' behind =>
    obtain ⟨rfl, rfl⟩ := word_append_inj hw (List.mem_append_right _ hv) blank blank' same
    exact .inr ⟨hv, behind⟩

theorem LeadIn.length_lt {s named : List Char} (h : LeadIn s named) :
    named.length < s.length := by
  have one : ∀ w ∈ keywords ++ qualifiers, 0 < w.toList.length := by decide
  induction h with
  | @keyword w r hw blank =>
    have pos := one w (List.mem_append_left _ hw)
    have le := (trimStart_suffix r).length_le
    rw [List.length_append]
    omega
  | @qualifier w r named hw blank behind ih =>
    have le := (trimStart_suffix r).length_le
    rw [List.length_append]
    omega

/-- From inside the way to a name, the way goes to the same name. -/
theorem LeadIn.eq_of_suffix {s p named named' : List Char} (h : LeadIn s named)
    (h' : LeadIn p named') (name : named'.head?.any nameChar.has = true) (hp : p <:+ s)
    (longer : named.length < p.length) : named' = named := by
  have apart : ∀ w ∈ keywords, w ∉ qualifiers := by decide
  induction h generalizing p with
  | @keyword w r hw blank =>
    have known := List.mem_append_left qualifiers hw
    obtain ⟨v, hv, r', rfl, blank', -⟩ := h'.exists_word name
    rcases suffix_of_word hv known blank' blank hp with same | inner
    · rcases (same ▸ h').behind_word known blank with ⟨-, rfl⟩ | ⟨hw', -⟩
      · rfl
      · exact absurd hw' (apart w hw)
    · exact absurd inner.length_le (Nat.not_le.2 longer)
  | @qualifier w r named hw blank behind ih =>
    have known := List.mem_append_right keywords hw
    obtain ⟨v, hv, r', rfl, blank', -⟩ := h'.exists_word name
    rcases suffix_of_word hv known blank' blank hp with same | inner
    · rcases (same ▸ h').behind_word known blank with ⟨hw', -⟩ | ⟨-, further⟩
      · exact absurd hw (apart w hw')
      · exact ih further List.suffix_rfl behind.length_lt
    · exact ih h' inner longer

theorem exists_of_afterParameters? {s rest : List Char} (h : afterParameters? s = some rest) :
    ∃ inner, s = '(' :: (inner ++ ')' :: rest) ∧ ')' ∉ inner := by
  obtain ⟨mid, opened, closed⟩ := Option.bind_eq_some_iff.1 h
  refine ⟨mid.takeWhile (· != ')'), ?_, fun mem => ?_⟩
  · calc s = '(' :: mid := after?_eq_some_iff.1 opened
      _ = '(' :: (mid.takeWhile (· != ')') ++ mid.dropWhile (· != ')')) := by
        rw [List.takeWhile_append_dropWhile]
      _ = '(' :: (mid.takeWhile (· != ')') ++ ')' :: rest) := by
        rw [after?_eq_some_iff.1 closed]
        rfl
  · simpa using List.mem_takeWhile_imp mem

theorem exists_of_afterArrow? {s rest : List Char} (h : afterArrow? s = some rest) :
    ∃ run e, s = run ++ (e ++ '=' :: '>' :: rest) ∧ (∀ c ∈ run, nameChar.has c = true) ∧
      ∀ c ∈ e, isBlank c = true := by
  obtain ⟨mid, name, arrow⟩ := Option.bind_eq_some_iff.1 h
  refine ⟨s.takeWhile nameChar.has, mid.takeWhile isBlank, ?_,
    fun c hc => List.mem_takeWhile_imp hc, fun c hc => List.mem_takeWhile_imp hc⟩
  calc s = s.takeWhile nameChar.has ++ mid := by
        rw [eq_of_afterName? name, List.takeWhile_append_dropWhile]
    _ = s.takeWhile nameChar.has ++ (mid.takeWhile isBlank ++ trimStart mid) := by
        rw [trimStart, List.takeWhile_append_dropWhile]
    _ = s.takeWhile nameChar.has ++ (mid.takeWhile isBlank ++ '=' :: '>' :: rest) := by
        rw [after?_eq_some_iff.1 arrow]
        rfl

theorem head?_of_afterSignature? {s rest : List Char} (h : afterSignature? s = some rest) :
    (trimStart s).head?.any nameChar.has = false := by
  unfold afterSignature? at h
  split at h
  · rw [head?_of_afterParameters? h]
    decide
  · rename_i r equals
    rw [after?_eq_some_iff.1 equals]
    rfl

theorem exists_gap {s rest : List Char} (h : afterSignature? s = some rest) :
    ∃ gap body, s = gap ++ body ∧ gap.filter (!isBlank ·) ∈ [[], ['=']] ∧
      (afterParameters? body = some rest ∨ afterArrow? body = some rest) := by
  have first : ∀ s : List Char, s.takeWhile isBlank ++ trimStart s = s :=
    fun _ => List.takeWhile_append_dropWhile
  have blank : ∀ s : List Char, (s.takeWhile isBlank).filter (!isBlank ·) = [] := fun s =>
    List.filter_eq_nil_iff.2 fun c hc => by simp [List.mem_takeWhile_imp hc]
  unfold afterSignature? at h
  split at h
  · refine ⟨s.takeWhile isBlank, trimStart s, (first s).symm, ?_, .inl h⟩
    rw [blank]
    exact List.mem_cons_self
  · rename_i r equals
    refine ⟨s.takeWhile isBlank ++ '=' :: r.takeWhile isBlank, trimStart r, ?_, ?_, ?_⟩
    · calc s = s.takeWhile isBlank ++ trimStart s := (first s).symm
        _ = s.takeWhile isBlank ++ '=' :: r := by
          rw [after?_eq_some_iff.1 equals]
          rfl
        _ = (s.takeWhile isBlank ++ '=' :: r.takeWhile isBlank) ++ trimStart r := by
          rw [List.append_assoc, List.cons_append, first]
    · have sign : isBlank '=' = false := by decide
      rw [List.filter_append, List.filter_cons_of_pos (by simp [sign]), blank, blank]
      decide
    · split at h
      · exact .inl h
      · exact .inr h

theorem no_name_of_gap {gap : List Char} (h : gap.filter (!isBlank ·) ∈ [[], ['=']]) :
    gap.any nameChar.has = false := by
  refine List.any_eq_false.2 fun c hc name => ?_
  have kept : c ∈ gap.filter (!isBlank ·) :=
    List.mem_filter.2 ⟨hc, by simp [isBlank_eq_false_of_nameChar name]⟩
  have sign : nameChar.has '=' = false := by decide
  rcases List.mem_pair.1 h with none_kept | one
  · simp [none_kept] at kept
  · rw [one, List.mem_singleton] at kept
    rw [kept, sign] at name
    cases name

/-- A place between the parentheses behind the name of a function; `s` is the text behind the name,
`rest` the text behind the parentheses. -/
def InParameters (s rest p : List Char) : Prop :=
  ∃ gap inner, s = gap ++ '(' :: (inner ++ ')' :: rest) ∧
    gap.filter (!isBlank ·) ∈ [[], ['=']] ∧ ')' ∉ inner ∧
    ∃ e, e ≠ [] ∧ e <:+ inner ∧ p = e ++ ')' :: rest

theorem inParameters_of_shape? {k : Kind} {s rest p named after : List Char}
    (h : afterSignature? s = some rest) (shape : k.shape? p = some (named, after))
    (hp : p <:+ s) (longer : rest.length < p.length) : InParameters s rest p := by
  have name := head?_of_shape? shape
  obtain ⟨gap, body, rfl, plain, parameters | arrow⟩ := exists_gap h
  · obtain ⟨inner, rfl, closed⟩ := exists_of_afterParameters? parameters
    refine ⟨gap, inner, rfl, plain, closed, ?_⟩
    have dark : (gap ++ ['(']).any nameChar.has = false := by
      rw [List.any_append, no_name_of_gap plain]
      decide
    rw [List.append_cons] at hp
    rcases suffix_append_cases (suffix_of_no_name hp dark name) with behind | ⟨e, he, rfl⟩
    · have behind : p <:+ rest := suffix_of_no_name (a := [')']) behind (by decide) name
      exact absurd behind.length_le (Nat.not_le.2 longer)
    · refine ⟨e, ?_, he, rfl⟩
      rintro rfl
      have dark : nameChar.has ')' = false := by decide
      exact absurd name (Bool.eq_false_iff.1 dark)
  · obtain ⟨run, e, rfl, chars, blank⟩ := exists_of_afterArrow? arrow
    have dark : (e ++ ['=', '>']).any nameChar.has = false := by
      rw [List.any_append, no_name_of_blank blank]
      decide
    rcases suffix_append_cases (suffix_of_no_name hp (no_name_of_gap plain) name) with
      behind | ⟨u, hu, rfl⟩
    · have behind : p <:+ rest := suffix_of_no_name (by simpa using behind) dark name
      exact absurd behind.length_le (Nat.not_le.2 longer)
    · have sign : nameChar.has '=' = false ∧ isBlank '=' = false := by decide
      have tail : (e ++ '=' :: '>' :: rest).head?.any nameChar.has = false := by
        cases e with
        | nil => exact sign.1
        | cons c e => exact nameChar_of_blank (blank c List.mem_cons_self)
      obtain ⟨-, -, name⟩ := word_of_shape? (fun c hc => chars c (hu.subset hc)) tail shape
      rw [trimStart_append_of_blank blank, trimStart_eq_self (s := '=' :: _) sign.2] at name
      exact absurd name (Bool.eq_false_iff.1 sign.1)

/-- A declaration that begins inside a function has the function's name, or it begins inside the
function's parameters. -/
theorem named_eq_or_parameters {k : Kind} {s named rest p named' rest' : List Char}
    (hs : function.shape? s = some (named, rest)) (shape : k.shape? p = some (named', rest'))
    (hp : p <:+ s) (longer : rest.length < p.length) :
    named' = named ∨ InParameters (named.dropWhile nameChar.has) rest p := by
  obtain ⟨hn, hr⟩ := shape?_eq_some_iff.1 hs
  obtain ⟨hn', hr'⟩ := shape?_eq_some_iff.1 shape
  rcases Nat.lt_or_ge named.length p.length with before | behind
  · exact .inl ((leadIn_of_named? hn).eq_of_suffix (leadIn_of_named? hn')
      (head?_of_afterNamed? hr') hp before)
  · right
    obtain ⟨v, name, signed⟩ := Option.bind_eq_some_iff.1 hr
    have run : named.takeWhile nameChar.has ++ v = named := by
      rw [eq_of_afterName? name, List.takeWhile_append_dropWhile]
    have inside := List.suffix_of_suffix_length_le hp (suffix_of_named? hn) behind
    rw [← eq_of_afterName? name]
    rcases suffix_append_cases (run.symm ▸ inside) with inner | ⟨u, hu, rfl⟩
    · exact inParameters_of_shape? signed shape inner longer
    · have dark : v.head?.any nameChar.has = false := by
        rw [eq_of_afterName? name]
        exact head?_dropWhile_any named
      obtain ⟨-, -, behind⟩ :=
        word_of_shape? (fun c hc => List.mem_takeWhile_imp (hu.subset hc)) dark shape
      rw [head?_of_afterSignature? signed] at behind
      cases behind

/-- The parameters of a function that a match has found: behind the name there are blanks, maybe
with an equals sign among them, and the match ends with the first closing parenthesis. -/
structure ParameterList (text : List Char) (m : Match) where
  name : Span
  gap : List Char
  inner : List Char
  after : List Char
  named : m.span? 1 = some name
  parts : text = text.take name.stop ++ (gap ++ '(' :: (inner ++ ')' :: after))
  plain : gap.filter (!isBlank ·) ∈ [[], ['=']]
  closed : ')' ∉ inner
  ends : m.stop + after.length = text.length

namespace ParameterList
variable {text : List Char} {m : Match}

def opening (p : ParameterList text m) : Nat := byteSize (text.take p.name.stop ++ p.gap)

def closing (p : ParameterList text m) : Nat :=
  byteSize (text.take p.name.stop ++ p.gap ++ '(' :: p.inner)

def Holds (p : ParameterList text m) (offset : Nat) : Prop :=
  p.opening < offset ∧ offset < p.closing

theorem holds (p : ParameterList text m) {e : List Char} (ne : e ≠ []) (he : e <:+ p.inner) :
    p.Holds (byteSize text - byteSize (e ++ ')' :: p.after)) := by
  obtain ⟨d, inner⟩ := he
  have pos : 0 < byteSize e := by
    obtain ⟨c, e, rfl⟩ := List.exists_cons_of_ne_nil ne
    exact Nat.lt_of_lt_of_le c.utf8Size_pos (Nat.le_add_right _ _)
  have one : ('('.utf8Size) = 1 := by decide
  have whole := congrArg byteSize p.parts
  rw [← inner] at whole
  simp only [byteSize_append, byteSize_cons, one] at whole
  simp only [Holds, opening, closing, ← inner, byteSize_append, byteSize_cons, one]
  omega

end ParameterList

theorem holds_of_inParameters {text p : List Char} {t : Hit} (suffix : t.whole <:+ text)
    (shape : function.shape? t.whole = some (t.named, t.rest))
    (h : InParameters (t.named.dropWhile nameChar.has) t.rest p) :
    ∃ l : ParameterList text (matchOf text t), l.Holds (byteSize text - byteSize p) := by
  obtain ⟨gap, inner, parts, plain, closed, e, ne, he, rfl⟩ := h
  have behind : t.named.dropWhile nameChar.has <:+ text :=
    (List.dropWhile_suffix _).trans ((suffix_of_named? (shape?_eq_some_iff.1 shape).1).trans suffix)
  have whole := take_length_sub behind
  obtain ⟨inside, -⟩ := suffix_of_shape? shape
  have le := (inside.trans suffix).length_le
  let l : ParameterList text (matchOf text t) :=
    { name := _
      gap := gap
      inner := inner
      after := t.rest
      named := span?_matchOf suffix shape
      parts := by rw [← parts, whole]
      plain := plain
      closed := closed
      ends := by rw [stop_matchOf suffix inside, index_placeOf, Nat.sub_add_cancel le] }
  exact ⟨l, l.holds ne he⟩

/-- The function of a component is found as well, with the same name at the same place, unless the
component begins between the parentheses of some function. -/
theorem function_of_component {content : String} {m : Match} {c : Sighting}
    (h : component.recognizer.Sights content m c) :
    ∃ n f, function.recognizer.Sights content n f ∧
      ((∃ name, m.span? 1 = some name ∧ n.span? 1 = some name ∧ f.name = c.name) ∨
        ∃ p : ParameterList content.toList n, p.Holds c.start) := by
  obtain ⟨hit, mem, rfl, rfl⟩ := (sights_iff (by decide)).1 h
  obtain ⟨suffix, shape⟩ := of_mem_hits mem
  obtain ⟨rest, shape'⟩ := function_shape?_of_component shape
  have span := span?_matchOf suffix shape
  rcases mem_hits_or_inside (p := ⟨hit.whole, hit.named, rest⟩) suffix shape' with
    found | ⟨t, found, hp, longer⟩
  · have span' : (matchOf content.toList ⟨hit.whole, hit.named, rest⟩).span? 1 = _ :=
      span?_matchOf suffix shape'
    exact ⟨_, _, (sights_iff (by decide)).2 ⟨_, found, rfl, rfl⟩, .inl ⟨_, span, span', rfl⟩⟩
  · obtain ⟨suffix', shape''⟩ := of_mem_hits found
    refine ⟨_, _, (sights_iff (by decide)).2 ⟨t, found, rfl, rfl⟩, ?_⟩
    rcases named_eq_or_parameters shape'' shape hp longer with same | inside
    · have span' := span?_matchOf suffix' shape''
      rw [← same] at span'
      exact .inl ⟨_, span, span', congrArg nameOf same.symm⟩
    · exact .inr (holds_of_inParameters suffix' shape'' inside)

def nested : String := "function f(const A = b => \x7b)"

theorem function_of_nested : ∃ m, component.recognizer.Sights nested m ⟨component, "A", 11, none⟩ ∧
    ∃ n f, function.recognizer.Sights nested n f ∧
      ((∃ name, m.span? 1 = some name ∧ n.span? 1 = some name ∧ f.name = "A") ∨
        ∃ p : ParameterList nested.toList n, p.Holds 11) := by
  have found : ⟨component, "A", 11, none⟩ ∈ component.recognizer.recognize nested := by
    decide +kernel
  obtain ⟨m, h⟩ := Recognizer.mem_recognize.1 found
  exact ⟨m, h, function_of_component h⟩

end Kind
end Snapshot
