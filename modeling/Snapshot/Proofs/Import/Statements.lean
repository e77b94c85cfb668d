import Snapshot.Proofs.Declaration.Scan
import Snapshot.Proofs.Import.Clause
import Snapshot.Extraction

/-!
# Sources written as import statements

A source may be written from a list of import statements, one on a line. What its record says of
imports is what the statements bind, one name after another. A binding may say `from` or `import`
itself: its list is over only where the word `from` comes right before a quote, and then there is
nothing but blanks, and perhaps a brace, between the two.
-/

namespace Snapshot.ImportClause
open Pattern Text Kind

def dark (s : List Char) : List Char := s.filter (!isBlank ·)

theorem dark_append (s t : List Char) : dark (s ++ t) = dark s ++ dark t := List.filter_append s t

theorem dark_takeWhile (s : List Char) : dark (s.takeWhile isBlank) = [] := by
  apply List.filter_eq_nil_iff.2
  intro c hc
  simp [List.mem_takeWhile_imp hc]

def OpensBehind (said s named : List Char) : Prop :=
  ∃ u q, s = u ++ q :: named ∧ quotes.has q = true ∧ dark u = said

theorem OpensBehind.of_trimStart {said s named : List Char}
    (h : OpensBehind said (trimStart s) named) : OpensBehind said s named := by
  obtain ⟨u, q, parts, hq, hu⟩ := h
  refine ⟨s.takeWhile isBlank ++ u, q, ?_, hq, ?_⟩
  · rw [List.append_assoc, ← parts]
    exact List.takeWhile_append_dropWhile.symm
  · rw [dark_append, dark_takeWhile, List.nil_append, hu]

theorem OpensBehind.of_after? {word : String} {said s rest named : List Char}
    (hr : after? word s = some rest) (h : OpensBehind said rest named) :
    OpensBehind (dark word.toList ++ said) s named := by
  obtain ⟨u, q, rfl, hq, rfl⟩ := h
  exact ⟨word.toList ++ u, q, by rw [after?_eq_some_iff.1 hr, List.append_assoc], hq,
    dark_append _ _⟩

theorem opensBehind_of_spaced? {s named closing : List Char}
    (h : spaced? s = some (named, closing)) : OpensBehind "from".toList s named := by
  obtain ⟨r, blanks, origin⟩ := Option.bind_eq_some_iff.1 h
  obtain ⟨r', word, quoted⟩ := Option.bind_eq_some_iff.1 origin
  obtain ⟨w, hw, t, rfl, -, rfl⟩ := exists_of_afterKeyword? word
  obtain rfl := List.mem_singleton.1 hw
  obtain ⟨q, quote, hq, -⟩ := quoted?_eq_some_iff.1 quoted
  have opens : OpensBehind [] (trimStart t) named := ⟨[], q, quote, hq, rfl⟩
  have behind : after? "from" ("from".toList ++ t) = some t := after?_eq_some_iff.2 rfl
  have worded := OpensBehind.of_after? behind opens.of_trimStart
  exact OpensBehind.of_trimStart ((afterBlanks?_eq_some_iff.1 blanks).2 ▸ worded)

theorem opensBehind_of_closing? {s named closing : List Char}
    (h : closing? s = some (named, closing)) :
    OpensBehind "from".toList s named ∨ OpensBehind "\x7dfrom".toList s named := by
  unfold closing? at h
  split at h
  · rename_i brace
    exact .inr (OpensBehind.of_trimStart (.of_after? brace (opensBehind_of_spaced? h)))
  · exact .inl (opensBehind_of_spaced? h)

/-- Texts that may stand between the bindings and the module. -/
def Closes (u : List Char) : Prop := dark u = "from".toList ∨ dark u = "\x7dfrom".toList

theorem Closes.unquoted {u : List Char} (h : Closes u) : ∀ c ∈ u, quotes.has c = false := by
  have said : ∀ w ∈ ["from", "\x7dfrom"], w.toList.any quotes.has = false := by decide
  intro c hc
  by_cases blank : isBlank c = true
  · exact quotes_of_blank blank
  · have inside : c ∈ dark u := List.mem_filter.2 ⟨hc, by simpa using blank⟩
    refine Bool.eq_false_iff.2 ?_
    rcases h with h | h
    · exact List.any_eq_false.1 (said "from" (by decide)) c (h ▸ inside)
    · exact List.any_eq_false.1 (said "\x7dfrom" (by decide)) c (h ▸ inside)

theorem takeWhile_unquoted {u rest : List Char} {q : Char} (hq : quotes.has q = true)
    (hu : ∀ c ∈ u, quotes.has c = false) : (u ++ q :: rest).takeWhile unquoted.has = u := by
  have stop : unquoted.has q = false := by simp [unquoted, CharSet.has, hq]
  rw [List.takeWhile_append_of_pos fun c hc => by simp [unquoted, CharSet.has, hu c hc],
    List.takeWhile_cons_of_neg (by simp [stop]), List.append_nil]

theorem dropWhile_unquoted {u rest : List Char} {q : Char} (hq : quotes.has q = true)
    (hu : ∀ c ∈ u, quotes.has c = false) :
    (u ++ q :: rest).dropWhile unquoted.has = q :: rest := by
  have stop : unquoted.has q = false := by simp [unquoted, CharSet.has, hq]
  rw [List.dropWhile_append_of_pos fun c hc => by simp [unquoted, CharSet.has, hu c hc],
    List.dropWhile_cons_of_neg (by simp [stop])]

theorem closing?_eq_none {b t rest : List Char} {q : Char} (hq : quotes.has q = true)
    (plain : ∀ c ∈ b, quotes.has c = false) (no_brace : '}' ∉ b) (filled : dark b ≠ [])
    (ht : Closes t) : closing? (b ++ (t ++ q :: rest)) = none := by
  cases h : closing? (b ++ (t ++ q :: rest)) with
  | none => rfl
  | some found =>
    obtain ⟨u, q', same, hq', hu⟩ : ∃ u q', b ++ (t ++ q :: rest) = u ++ q' :: found.1 ∧
        quotes.has q' = true ∧ Closes u := by
      rcases opensBehind_of_closing? h with ⟨u, q', same, hq', hu⟩ | ⟨u, q', same, hq', hu⟩
      · exact ⟨u, q', same, hq', .inl hu⟩
      · exact ⟨u, q', same, hq', .inr hu⟩
    have free : ∀ c ∈ b ++ t, quotes.has c = false := by
      intro c hc
      rcases List.mem_append.1 hc with hc | hc
      · exact plain c hc
      · exact ht.unquoted c hc
    -- Both texts go up to the first quote.
    have whole : b ++ t = u := by
      have first : (u ++ q' :: found.1).takeWhile unquoted.has = u :=
        takeWhile_unquoted hq' hu.unquoted
      rw [← first, ← same, ← List.append_assoc, takeWhile_unquoted hq free]
    have said : dark b ++ dark t = dark u := by rw [← dark_append, whole]
    rcases ht with ht | ht <;> rcases hu with hu | hu <;> rw [ht, hu] at said
    · exact absurd (List.append_left_eq_self.1 said) filled
    · have said : dark b ++ "from".toList = ['}'] ++ "from".toList := said
      have brace : dark b = ['}'] := List.append_cancel_right said
      have inside : '}' ∈ dark b := by rw [brace]; exact List.mem_singleton_self _
      exact absurd (List.mem_of_mem_filter inside) no_brace
    · have lengths := congrArg List.length said
      rw [List.length_append] at lengths
      change _ + 5 = 4 at lengths
      omega
    · exact absurd (List.append_left_eq_self.1 said) filled

theorem listed?_append {b s : List Char} {found : List Char × List Char}
    (closed : closing? s = some found) (no_brace : '}' ∉ b)
    (goes_on : ∀ e, e <:+ b → e ≠ [] → closing? (e ++ s) = none) :
    listed? (b ++ s) = some (s, found) := by
  induction b with
  | nil =>
    cases s with
    | nil => cases closed
    | cons c s => rw [List.nil_append, listed?, closed]
  | cons c b ih =>
    have here := goes_on (c :: b) List.suffix_rfl (List.cons_ne_nil c b)
    have no_brace_here : c ≠ '}' := fun h => no_brace (h ▸ List.mem_cons_self)
    rw [List.cons_append] at here ⊢
    rw [listed?, here]
    simp only [if_neg no_brace_here]
    exact ih (fun h => no_brace (List.mem_cons_of_mem c h)) fun e he =>
      goes_on e (he.trans (List.suffix_cons c b))

structure Binding where
  chars : List Char
  filled : chars ≠ []
  trimmed : trim chars = chars
  plain : ∀ c ∈ [',', '{', '}', '\'', '"'], c ∉ chars

structure Origin where
  chars : List Char
  filled : chars ≠ []
  plain : ∀ c ∈ ['\'', '"'], c ∉ chars

inductive Statement
  | braced (first : Binding) (more : List Binding) (m : Origin)
  | bare (b : Binding) (m : Origin)

def names (bs : List Binding) : List Char := ", ".toList.intercalate (bs.map Binding.chars)

namespace Statement

def bindings : Statement → List Binding
  | braced first more _ => first :: more
  | bare b _ => [b]

def origin : Statement → Origin
  | braced _ _ m | bare _ m => m

def render : Statement → List Char
  | braced first more m =>
    "import \x7b ".toList ++ names (first :: more) ++ " \x7d from '".toList ++ m.chars ++
      "';\n".toList
  | bare b m => "import ".toList ++ b.chars ++ " from \"".toList ++ m.chars ++ "\";\n".toList

theorem render_braced (first : Binding) (more : List Binding) (m : Origin) :
    (braced first more m).render = "import \x7b ".toList ++ names (first :: more) ++
      " \x7d from '".toList ++ m.chars ++ "';\n".toList := rfl

theorem render_bare (b : Binding) (m : Origin) : (bare b m).render =
    "import ".toList ++ b.chars ++ " from \"".toList ++ m.chars ++ "\";\n".toList := rfl

def visible (s : Statement) : List Import :=
  (s.bindings.filter fun b => b.chars.head? != some '_').map fun b =>
    ⟨String.ofList b.chars, String.ofList s.origin.chars⟩

end Statement

def renderAll (statements : List Statement) : List Char := statements.flatMap Statement.render

theorem Binding.bounds (b : Binding) :
    b.chars.head?.any isBlank = false ∧ b.chars.getLast?.any isBlank = false :=
  trim_eq_self_iff.1 b.trimmed

theorem names_singleton (b : Binding) : names [b] = b.chars := List.intercalate_singleton

theorem names_cons (b b' : Binding) (bs : List Binding) :
    names (b :: b' :: bs) = b.chars ++ (", ".toList ++ names (b' :: bs)) :=
  List.intercalate_cons_cons.trans (List.append_assoc _ _ _)

theorem mem_names {c : Char} {bs : List Binding} (h : c ∈ names bs) :
    c ∈ ", ".toList ∨ ∃ b ∈ bs, c ∈ b.chars := by
  induction bs with
  | nil => cases h
  | cons b bs ih =>
    cases bs with
    | nil => exact .inr ⟨b, List.mem_cons_self, names_singleton b ▸ h⟩
    | cons b' bs =>
      rw [names_cons] at h
      rcases List.mem_append.1 h with h | h
      · exact .inr ⟨b, List.mem_cons_self, h⟩
      · rcases List.mem_append.1 h with h | h
        · exact .inl h
        · exact (ih h).imp_right fun ⟨d, hd, hc⟩ => ⟨d, List.mem_cons_of_mem b hd, hc⟩

theorem not_mem_names {c : Char} (hc : c ∈ ['{', '}', '\'', '"']) (bs : List Binding) :
    c ∉ names bs := by
  intro h
  rcases mem_names h with h | ⟨b, -, h⟩
  · have apart : ∀ c ∈ ['{', '}', '\'', '"'], c ∉ ", ".toList := by simp
    exact apart c hc h
  · exact b.plain c (List.mem_cons_of_mem ',' hc) h

theorem unquoted_names (bs : List Binding) : ∀ c ∈ names bs, quotes.has c = false := by
  intro c hc
  apply Bool.eq_false_iff.2
  intro hq
  rcases (quotes_iff c).1 hq with rfl | rfl
  · exact not_mem_names (by decide) bs hc
  · exact not_mem_names (by decide) bs hc

theorem exists_names (b : Binding) (bs : List Binding) :
    ∃ c t, names (b :: bs) = c :: t ∧ isBlank c = false := by
  obtain ⟨c, t, ht⟩ := List.exists_cons_of_ne_nil b.filled
  have first := b.bounds.1
  rw [ht] at first
  cases bs with
  | nil => exact ⟨c, t, (names_singleton b).trans ht, first⟩
  | cons b' bs => exact ⟨c, _, by rw [names_cons, ht, List.cons_append], first⟩

theorem getLast?_names (b : Binding) (bs : List Binding) :
    (names (b :: bs)).getLast?.any isBlank = false := by
  induction bs generalizing b with
  | nil => rw [names_singleton]; exact b.bounds.2
  | cons b' bs ih =>
    obtain ⟨c, t, ht, -⟩ := exists_names b' bs
    have filled : names (b' :: bs) ≠ [] := by rw [ht]; exact List.cons_ne_nil c t
    rw [names_cons, List.getLast?_append_of_ne_nil _ (by simp),
      List.getLast?_append_of_ne_nil _ filled]
    exact ih b'

theorem trim_names (b : Binding) (bs : List Binding) :
    trim (names (b :: bs)) = names (b :: bs) := by
  obtain ⟨c, t, ht, dark⟩ := exists_names b bs
  exact trim_eq_self_iff.2 ⟨by rw [ht]; exact dark, getLast?_names b bs⟩

theorem names_eq_intercalate (b : Binding) (bs : List Binding) :
    names (b :: bs) = [','].intercalate (b.chars :: bs.map fun b => ' ' :: b.chars) := by
  have piece : ∀ (u : List Char) (b : Binding) (bs : List Binding),
      u ++ names (b :: bs) =
        [','].intercalate ((u ++ b.chars) :: bs.map fun b => ' ' :: b.chars) := by
    intro u b bs
    induction bs generalizing u b with
    | nil => rw [names_singleton]; exact List.intercalate_singleton.symm
    | cons b' bs ih =>
      rw [names_cons, List.map_cons, List.intercalate_cons_cons]
      have further := ih [' '] b'
      rw [List.singleton_append, List.singleton_append] at further
      rw [← further]
      simp
  exact piece [] b bs

theorem splitOn_names (b : Binding) (bs : List Binding) :
    ((names (b :: bs)).splitOn ',').map trim = (b :: bs).map Binding.chars := by
  have whole : ∀ l ∈ b.chars :: bs.map fun b => ' ' :: b.chars, ',' ∉ l := by
    intro l hl
    rcases List.mem_cons.1 hl with rfl | hl
    · exact b.plain ',' (by decide)
    · obtain ⟨d, -, rfl⟩ := List.mem_map.1 hl
      exact List.not_mem_cons_of_ne_of_not_mem (by decide) (d.plain ',' (by decide))
  rw [names_eq_intercalate, List.splitOn_intercalate _ whole (List.cons_ne_nil _ _), List.map_cons,
    List.map_cons, List.map_map, b.trimmed]
  congr 1
  apply List.map_congr_left
  intro d _
  exact (trim_blank_cons isBlank_space d.chars).trans d.trimmed

theorem dark_of_suffix_names {b : Binding} {bs : List Binding} {e : List Char}
    (h : e <:+ names (b :: bs)) (he : e ≠ []) : dark e ≠ [] := by
  have last := getLast?_names b bs
  obtain ⟨pre, parts⟩ := h
  rw [← parts, List.getLast?_append_of_ne_nil _ he, List.getLast?_eq_some_getLast he] at last
  apply List.ne_nil_of_mem
  exact List.mem_filter.2 ⟨List.getLast_mem he, by simpa using last⟩

namespace Statement

def listing (s : Statement) : List Char := names s.bindings

def opening : Statement → List Char
  | braced .. => "import \x7b ".toList
  | bare .. => "import ".toList

def closing : Statement → List Char
  | braced .. => " \x7d from ".toList
  | bare .. => " from ".toList

def quote : Statement → Char
  | braced .. => '\''
  | bare .. => '"'

def behind (s : Statement) (rest : List Char) : List Char := s.quote :: ';' :: '\n' :: rest

def ending (s : Statement) (rest : List Char) : List Char :=
  s.closing ++ s.quote :: (s.origin.chars ++ s.behind rest)

theorem render_append (s : Statement) (rest : List Char) :
    s.render ++ rest = s.opening ++ (s.listing ++ s.ending rest) := by
  have ended : ∀ q, [q, ';', '\n'] ++ rest = q :: ';' :: '\n' :: rest := fun _ => rfl
  cases s with
  | braced first more m =>
    have quoted : " \x7d from '".toList = " \x7d from ".toList ++ ['\''] := rfl
    have last : "';\n".toList = ['\'', ';', '\n'] := rfl
    rw [render_braced, quoted, last]
    simp only [List.append_assoc, ended, List.singleton_append]
    rfl
  | bare b m =>
    have quoted : " from \"".toList = " from ".toList ++ ['"'] := rfl
    have last : "\";\n".toList = ['"', ';', '\n'] := rfl
    rw [render_bare, quoted, last, ← names_singleton b]
    simp only [List.append_assoc, ended, List.singleton_append]
    rfl

theorem exists_bindings (s : Statement) : ∃ b bs, s.bindings = b :: bs := by
  cases s with
  | braced first more m => exact ⟨first, more, rfl⟩
  | bare b m => exact ⟨b, [], rfl⟩

theorem quotes_quote (s : Statement) : quotes.has s.quote = true := by cases s <;> rfl

theorem closes_closing (s : Statement) : Closes s.closing := by
  cases s with
  | braced first more m => exact .inr rfl
  | bare b m => exact .inl rfl

theorem unquoted_origin (m : Origin) : ∀ c ∈ m.chars, quotes.has c = false := by
  intro c hc
  apply Bool.eq_false_iff.2
  intro hq
  rcases (quotes_iff c).1 hq with rfl | rfl
  · exact m.plain _ (by decide) hc
  · exact m.plain _ (by decide) hc

theorem closing?_ending (s : Statement) (rest : List Char) :
    closing? (s.ending rest) = some (s.origin.chars ++ s.behind rest, s.behind rest) := by
  have opened : closing? (s.ending rest) =
      quoted? (s.quote :: (s.origin.chars ++ s.behind rest)) := by
    rw [ending]
    generalize s.origin.chars ++ s.behind rest = named
    cases s <;> rfl
  obtain ⟨c, t, ht⟩ := List.exists_cons_of_ne_nil s.origin.filled
  have first : unquoted.has c = true := by
    have dark := unquoted_origin s.origin c (ht ▸ List.mem_cons_self)
    simp [unquoted, CharSet.has, dark]
  rw [opened]
  refine quoted?_eq_some_iff.2 ⟨_, rfl, s.quotes_quote, ?_, ?_, List.cons_ne_nil _ _⟩
  · rw [ht]
    exact first
  · exact (dropWhile_unquoted s.quotes_quote (unquoted_origin s.origin)).symm

theorem listed?_statement (s : Statement) (rest : List Char) :
    listed? (s.listing ++ s.ending rest) =
      some (s.ending rest, s.origin.chars ++ s.behind rest, s.behind rest) := by
  have no_brace : '}' ∉ s.listing := not_mem_names (by decide) s.bindings
  refine listed?_append (s.closing?_ending rest) no_brace fun e he filled => ?_
  obtain ⟨b, bs, hb⟩ := s.exists_bindings
  apply closing?_eq_none s.quotes_quote
  · exact fun c hc => unquoted_names s.bindings c (he.mem hc)
  · exact fun hc => no_brace (he.mem hc)
  · rw [listing, hb] at he
    exact dark_of_suffix_names he filled
  · exact s.closes_closing

theorem names?_statement (s : Statement) (rest : List Char) :
    names? (s.render ++ rest) = some (s.listing ++ s.ending rest) := by
  obtain ⟨b, bs, hb⟩ := s.exists_bindings
  obtain ⟨c, t, ht, dark⟩ := exists_names b bs
  have listing : s.listing = c :: t := by rw [Statement.listing, hb, ht]
  have trimmed : trimStart (c :: (t ++ s.ending rest)) = c :: (t ++ s.ending rest) :=
    trimStart_eq_self dark
  rw [render_append, listing, List.cons_append]
  cases s with
  | braced first more m => exact congrArg some trimmed
  | bare b' m =>
    have no_brace : c ≠ '{' := by
      rintro rfl
      exact not_mem_names (by decide) [b'] (listing ▸ List.mem_cons_self)
    have unbraced : after? "\x7b" (c :: (t ++ (bare b' m).ending rest)) = none := by
      cases hr : after? "\x7b" (c :: (t ++ (bare b' m).ending rest)) with
      | none => rfl
      | some r => exact absurd (List.cons.inj (after?_eq_some_iff.1 hr)).1 no_brace
    have keyword :
        afterKeyword? ["import"] ("import ".toList ++ c :: (t ++ (bare b' m).ending rest)) =
          some (c :: (t ++ (bare b' m).ending rest)) := afterBlanks?_space dark
    change Option.map _ (afterKeyword? ["import"] ("import ".toList ++ _)) = _
    rw [keyword, Option.map_some, unbraced, Option.getD_none, trimmed]

end Statement

theorem steady_pattern : importClause.pattern.steady = true := rfl

theorem taking_pattern : importClause.pattern.nullable = false := rfl

theorem matchAt_of_first {x : Spot} (h : x.after.head? ≠ some 'i') :
    importClause.pattern.matchAt x = none := by
  have first : importClause.pattern.mayStart x.after = false := by
    cases hx : x.after with
    | nil => rfl
    | cons c t =>
      have start : (CharSet.single 'i').has c = false := by
        apply Bool.eq_false_iff.2
        intro hc
        exact h (by rw [hx, (has_single 'i' c).1 hc]; rfl)
      exact start
  rw [matchAt_eq_pursue steady_pattern, pursue_eq_none first]
  rfl

section Listed
variable (start : Nat) (x : Spot) (names : List Char) (found : List Char × List Char × List Char)

theorem span?_names : (Match.ofStand start (standListed (x, {}) names found)).span? 1 =
    some ⟨(x.upto names).index, (x.upto found.1).index⟩ := rfl

theorem span?_origin : (Match.ofStand start (standListed (x, {}) names found)).span? 2 =
    some ⟨((x.upto found.1).upto found.2.1).index, ((x.upto found.1).upto found.2.2).index⟩ := rfl

end Listed

section Found
variable {text : List Char} {s : Statement} {rest : List Char} (h : s.render ++ rest <:+ text)
include h

theorem suffix_listing : s.listing ++ s.ending rest <:+ text :=
  (List.suffix_append _ _).trans (Statement.render_append s rest ▸ h)

theorem suffix_ending : s.ending rest <:+ text := (List.suffix_append _ _).trans (suffix_listing h)

theorem suffix_origin : s.origin.chars ++ s.behind rest <:+ text :=
  ((List.suffix_cons _ _).trans (List.suffix_append _ _)).trans (suffix_ending h)

omit h in
def standOf (text : List Char) (s : Statement) (rest : List Char) : Stand :=
  standListed (placeOf text (s.render ++ rest), {}) (s.listing ++ s.ending rest)
    (s.ending rest, s.origin.chars ++ s.behind rest, s.behind rest)

theorem matchAt_statement : importClause.pattern.matchAt (placeOf text (s.render ++ rest)) =
    some (Match.ofStand (placeOf text (s.render ++ rest)).index (standOf text s rest)) := by
  have begins : names? (placeOf text (s.render ++ rest)).after =
      some (s.listing ++ s.ending rest) := by
    rw [after_placeOf h]
    exact s.names?_statement rest
  rw [matchAt_eq_pursue steady_pattern, pursue_of_listed? begins (s.listed?_statement rest)]
  rfl

theorem upto_statement {t : List Char} (ht : t <:+ s.listing ++ s.ending rest) :
    (placeOf text (s.render ++ rest)).upto t = placeOf text t :=
  upto_placeOf h (ht.trans (s.render_append rest ▸ List.suffix_append _ _))

theorem upto_ending {t : List Char} (ht : t <:+ s.ending rest) :
    ((placeOf text (s.render ++ rest)).upto (s.ending rest)).upto t = placeOf text t := by
  rw [upto_statement h (List.suffix_append _ _), upto_placeOf (suffix_ending h) ht]

theorem span?_listing :
    (Match.ofStand (placeOf text (s.render ++ rest)).index (standOf text s rest)).span? 1 =
      some ⟨(placeOf text (s.listing ++ s.ending rest)).index,
        (placeOf text (s.ending rest)).index⟩ := by
  rw [standOf, span?_names, upto_statement h List.suffix_rfl,
    upto_statement h (List.suffix_append _ _)]

theorem span?_module :
    (Match.ofStand (placeOf text (s.render ++ rest)).index (standOf text s rest)).span? 2 =
      some ⟨(placeOf text (s.origin.chars ++ s.behind rest)).index,
        (placeOf text (s.behind rest)).index⟩ := by
  have from_quote : s.origin.chars ++ s.behind rest <:+ s.ending rest :=
    (List.suffix_cons _ _).trans (List.suffix_append _ _)
  rw [standOf, span?_origin, upto_ending h from_quote,
    upto_ending h ((List.suffix_append _ _).trans from_quote)]

theorem sighting?_statement : ∃ start, importClause.recognizer.sighting? text
    (Match.ofStand (placeOf text (s.render ++ rest)).index (standOf text s rest)) =
      some ⟨importClause, String.ofList s.listing, start, some (String.ofList s.origin.chars)⟩ := by
  refine ⟨byteSize (text.take (placeOf text (s.render ++ rest)).index), ?_⟩
  simp only [Recognizer.sighting?, recognizer, if_true, span?_listing h, span?_module h,
    slice_between (suffix_listing h), slice_between (suffix_origin h), Option.map_some,
    Option.bind_eq_bind, Option.bind_some]
  rfl

theorem matchesFrom_statement : importClause.pattern.matchesFrom (placeOf text (s.render ++ rest)) =
    Match.ofStand (placeOf text (s.render ++ rest)).index (standOf text s rest) ::
      importClause.pattern.matchesFrom (placeOf text rest) := by
  have last : ';' :: '\n' :: rest <:+ s.ending rest :=
    (List.suffix_cons _ _).trans ((List.suffix_append _ _).trans
      ((List.suffix_cons _ _).trans (List.suffix_append _ _)))
  have inside : ';' :: '\n' :: rest <:+ s.render ++ rest := by
    rw [s.render_append]
    exact last.trans ((List.suffix_append _ _).trans (List.suffix_append _ _))
  have newline := last.trans (suffix_ending h)
  have newline' := (List.suffix_cons _ _).trans newline
  have stop : (Match.ofStand (placeOf text (s.render ++ rest)).index (standOf text s rest)).stop =
      (placeOf text (';' :: '\n' :: rest)).index :=
    congrArg Spot.index (upto_ending h last)
  rw [matchesFrom_of_some steady_pattern taking_pattern (matchAt_statement h), stop,
    skip_placeOf h inside,
    matchesFrom_of_none steady_pattern taking_pattern, next_placeOf newline,
    matchesFrom_of_none steady_pattern taking_pattern, next_placeOf newline']
  · apply matchAt_of_first
    rw [after_placeOf newline']
    simp
  · apply matchAt_of_first
    rw [after_placeOf newline]
    simp

end Found

def importsFrom (text s : List Char) : List Import :=
  ((importClause.pattern.matchesFrom (placeOf text s)).filterMap
    (importClause.recognizer.sighting? text)).flatMap Sighting.imports

theorem accepts_binding (b : Binding) :
    importClause.accepts (String.ofList b.chars) = (b.chars.head? != some '_') := by
  obtain ⟨c, t, ht⟩ := List.exists_cons_of_ne_nil b.filled
  rw [accepts, String.toList_ofList, ht, List.head?_cons]
  simp [bne, Option.some_beq_some]

theorem imports_sighting (s : Statement) (start : Nat) :
    Sighting.imports ⟨importClause, String.ofList s.listing, start,
      some (String.ofList s.origin.chars)⟩ = s.visible := by
  obtain ⟨b, bs, hb⟩ := s.exists_bindings
  obtain ⟨c, t, ht, -⟩ := exists_names b bs
  have named : (names (b :: bs)).isEmpty = false := by rw [ht]; rfl
  have sourced : (String.ofList s.origin.chars).isEmpty = false := by
    simpa using s.origin.filled
  have pieces := splitOn_names b bs
  simp only [Sighting.imports, Statement.listing, hb, String.toList_ofList, trim_names, named,
    sourced, Bool.or_false, Bool.false_eq_true, if_false, ← List.map_map, pieces]
  rw [Statement.visible, hb, List.map_map, List.filterMap_map, ← List.filterMap_eq_map',
    List.filterMap_filter]
  apply List.filterMap_congr
  intro d _
  simp only [Function.comp_apply, accepts_binding]

theorem importsFrom_statement {text : List Char} {s : Statement} {rest : List Char}
    (h : s.render ++ rest <:+ text) :
    importsFrom text (s.render ++ rest) = s.visible ++ importsFrom text rest := by
  obtain ⟨start, sighted⟩ := sighting?_statement h
  rw [importsFrom, matchesFrom_statement h, List.filterMap_cons, sighted, List.flatMap_cons,
    imports_sighting, importsFrom]

theorem importsFrom_renderAll {text : List Char} {statements : List Statement}
    (h : renderAll statements <:+ text) :
    importsFrom text (renderAll statements) = statements.flatMap Statement.visible := by
  induction statements with
  | nil =>
    rw [importsFrom, renderAll, List.flatMap_nil,
      matchesFrom_end steady_pattern taking_pattern (after_placeOf h)]
    rfl
  | cons s statements ih =>
    have behind : renderAll statements <:+ text := (List.suffix_append _ _).trans h
    rw [renderAll, List.flatMap_cons] at h ⊢
    rw [importsFrom_statement h, List.flatMap_cons]
    exact congrArg _ (ih behind)

/-- The imports of a source that was written as import statements are the bindings of the statements
in their order, apart from those that begin with an underscore. -/
theorem imports_renderAll (path : String) (statements : List Statement) :
    (FileRecord.ofSource path (String.ofList (renderAll statements))).imports =
      statements.flatMap Statement.visible := by
  have whole : placeOf (renderAll statements) (renderAll statements) =
      ⟨none, renderAll statements, 0⟩ := Spot.upto_after _
  have all := importsFrom_renderAll (List.suffix_refl (renderAll statements))
  rw [importsFrom, whole, ← matchesIn_eq] at all
  simp only [FileRecord.ofSource, Recognizer.recognize, String.toList_ofList]
  exact all

end Snapshot.ImportClause
