import Snapshot.Proofs.Declaration.Scan

/-!
# Where no declaration begins

A declaration begins with a keyword, or with words that may stand before one, and blanks stand
behind each of these words. Where a run of name characters is none of them, or is not followed by
blanks and another run, there is no declaration.
-/

namespace Snapshot.Kind
open Text

/-- No declaration of a kind begins in the first part of a text; `rest` is the text behind it. -/
def Inert (k : Kind) : List Char → List Char → Prop
  | [], _ => True
  | c :: chunk, rest => k.shape? (c :: (chunk ++ rest)) = none ∧ k.Inert chunk rest

section Inert
variable {k : Kind} {a b rest : List Char}

theorem Inert.append (ha : k.Inert a (b ++ rest)) (hb : k.Inert b rest) :
    k.Inert (a ++ b) rest := by
  induction a with
  | nil => exact hb
  | cons c a ih => exact ⟨(List.append_assoc a b rest).symm ▸ ha.1, ih ha.2⟩

theorem scan_of_inert (h : k.Inert a rest) (start : Nat) :
    k.scan start (a ++ rest) = k.scan (start + byteSize a) rest := by
  induction a generalizing start with
  | nil => rfl
  | cons c a ih =>
    rw [List.cons_append, scan_of_shape?_eq_none h.1, ih h.2, byteSize_cons, Nat.add_assoc]

end Inert

def keywords : List String := ["function", "const", "class", "interface"]

def qualifiers : List String := ["export", "async"]

inductive LeadIn : List Char → List Char → Prop
  | keyword {w : String} {r : List Char} (hw : w ∈ keywords) (blank : r.head?.any isBlank = true) :
    LeadIn (w.toList ++ r) (trimStart r)
  | qualifier {w : String} {r named : List Char} (hw : w ∈ qualifiers)
    (blank : r.head?.any isBlank = true) (behind : LeadIn (trimStart r) named) :
    LeadIn (w.toList ++ r) named

theorem leadIn_of_afterKeyword? {words : List String} {s named : List Char}
    (known : ∀ w ∈ words, w ∈ keywords) (h : afterKeyword? words s = some named) :
    LeadIn s named := by
  obtain ⟨w, hw, r, rfl, blank, rfl⟩ := exists_of_afterKeyword? h
  exact .keyword (known w hw) blank

theorem leadIn_of_skipQualifier {w : String} {s named : List Char} (hw : w ∈ qualifiers)
    (h : LeadIn (skipQualifier w s) named) : LeadIn s named := by
  unfold skipQualifier at h
  cases skipped : (after? w s).bind afterBlanks? with
  | none => rwa [skipped] at h
  | some rest =>
    obtain ⟨r, rfl, blank, rfl⟩ := afterWord?_eq_some_iff.1 skipped
    rw [skipped] at h
    exact .qualifier hw blank h

theorem leadIn_of_named? {k : Kind} {s named : List Char} (h : k.named? s = some named) :
    LeadIn s named := by
  cases k with
  | function =>
    exact leadIn_of_skipQualifier (by decide)
      (leadIn_of_skipQualifier (by decide) (leadIn_of_afterKeyword? (by decide) h))
  | component | hook | classDef | interface =>
    exact leadIn_of_skipQualifier (by decide) (leadIn_of_afterKeyword? (by decide) h)
  | decorator =>
    obtain ⟨mid, exported, behind⟩ := Option.bind_eq_some_iff.1 h
    obtain ⟨w, hw, r, rfl, blank, rfl⟩ := exists_of_afterKeyword? exported
    obtain rfl := List.mem_singleton.1 hw
    exact .qualifier (by decide) blank (leadIn_of_afterKeyword? (by decide) behind)
  | importClause => simp [named?] at h

theorem head?_word_append {w : String} (hw : w ∈ keywords ++ qualifiers) (r : List Char) :
    (w.toList ++ r).head?.any nameChar.has = true := by
  have first : ∀ w ∈ keywords ++ qualifiers, w.toList.head?.any nameChar.has = true := by decide
  have first := first w hw
  rw [List.head?_append]
  cases hc : w.toList.head? with
  | none => simp [hc] at first
  | some c => rwa [hc] at first

theorem LeadIn.exists_word {s named : List Char} (h : LeadIn s named)
    (name : named.head?.any nameChar.has = true) :
    ∃ w ∈ keywords ++ qualifiers, ∃ r, s = w.toList ++ r ∧ r.head?.any isBlank = true ∧
      (trimStart r).head?.any nameChar.has = true := by
  induction h with
  | @keyword w r hw blank =>
    exact ⟨w, List.mem_append_left _ hw, r, rfl, blank, name⟩
  | @qualifier w r named hw blank behind ih =>
    obtain ⟨v, hv, r', same, -, -⟩ := ih name
    exact ⟨w, List.mem_append_right _ hw, r, rfl, blank, same ▸ head?_word_append hv r'⟩

theorem head?_of_afterNamed? {k : Kind} {named rest : List Char}
    (h : k.afterNamed? named = some rest) : named.head?.any nameChar.has = true := by
  have of_name : ∀ {r}, afterName? named = some r → named.head?.any nameChar.has = true := by
    intro r hr
    unfold afterName? at hr
    split at hr
    · assumption
    · simp at hr
  cases k with
  | function =>
    obtain ⟨r, hr, -⟩ := Option.bind_eq_some_iff.1 h
    exact of_name hr
  | component =>
    obtain ⟨r, hr, -⟩ := Option.bind_eq_some_iff.1 h
    obtain ⟨r, hr, -⟩ := Option.bind_eq_some_iff.1 hr
    exact of_name hr
  | hook | decorator =>
    simp only [afterNamed?] at h
    split at h
    · exact of_name h
    · simp at h
  | classDef | interface => exact of_name h
  | importClause => simp [afterNamed?] at h

theorem takeWhile_run {u t : List Char} (hu : ∀ c ∈ u, nameChar.has c = true)
    (ht : t.head?.any nameChar.has = false) : (u ++ t).takeWhile nameChar.has = u := by
  have stop : t.takeWhile nameChar.has = [] := by
    cases t with
    | nil => rfl
    | cons c t => simpa using ht
  rw [List.takeWhile_append_of_pos hu, stop, List.append_nil]

theorem nameChar_of_mem_word {w : String} (hw : w ∈ keywords ++ qualifiers) {c : Char}
    (hc : c ∈ w.toList) : nameChar.has c = true := by
  have all : ∀ w ∈ keywords ++ qualifiers, w.toList.all nameChar.has = true := by decide
  exact List.all_eq_true.1 (all w hw) c hc

theorem head?_nameChar_of_blank {t : List Char} (h : t.head?.any isBlank = true) :
    t.head?.any nameChar.has = false := by
  cases t with
  | nil => rfl
  | cons c t => exact nameChar_of_blank h

theorem word_of_shape? {k : Kind} {u t named rest : List Char} (hu : ∀ c ∈ u, nameChar.has c = true)
    (ht : t.head?.any nameChar.has = false) (h : k.shape? (u ++ t) = some (named, rest)) :
    u ∈ (keywords ++ qualifiers).map String.toList ∧ t.head?.any isBlank = true ∧
      (trimStart t).head?.any nameChar.has = true := by
  obtain ⟨hn, hr⟩ := shape?_eq_some_iff.1 h
  obtain ⟨w, hw, r, same, blank, name⟩ :=
    (leadIn_of_named? hn).exists_word (head?_of_afterNamed? hr)
  have run : u = w.toList := by
    rw [← takeWhile_run hu ht, same,
      takeWhile_run (fun c => nameChar_of_mem_word hw) (head?_nameChar_of_blank blank)]
  obtain rfl : t = r := by
    rw [run] at same
    exact List.append_cancel_left same
  exact ⟨run ▸ List.mem_map_of_mem hw, blank, name⟩

section Runs
variable {k : Kind} {u t : List Char} (hu : ∀ c ∈ u, nameChar.has c = true)
  (ht : t.head?.any nameChar.has = false)
include hu ht

theorem inert_of_no_word (h : ∀ y ∈ u.tails, y ∉ (keywords ++ qualifiers).map String.toList) :
    k.Inert u t := by
  induction u with
  | nil => trivial
  | cons c u ih =>
    rw [List.tails, List.forall_mem_cons] at h
    refine ⟨?_, ih (fun d hd => hu d (List.mem_cons_of_mem c hd)) h.2⟩
    cases shape : k.shape? (c :: (u ++ t)) with
    | none => rfl
    | some found => exact absurd (word_of_shape? hu ht shape).1 h.1

theorem inert_of_last (h : t.head?.any isBlank = true →
    (trimStart t).head?.any nameChar.has = false) : k.Inert u t := by
  induction u with
  | nil => trivial
  | cons c u ih =>
    refine ⟨?_, ih fun d hd => hu d (List.mem_cons_of_mem c hd)⟩
    cases shape : k.shape? (c :: (u ++ t)) with
    | none => rfl
    | some found =>
      obtain ⟨-, blank, name⟩ := word_of_shape? hu ht shape
      rw [h blank] at name
      exact Bool.noConfusion name

end Runs

/-- A word with which no declaration begins, for none of them ends in another. -/
theorem inert_of_word {k : Kind} {w : String} {t : List Char} (hw : w ∈ keywords ++ qualifiers)
    (ht : t.head?.any nameChar.has = false) (h : k.shape? (w.toList ++ t) = none) :
    k.Inert w.toList t := by
  have ends : ∀ w ∈ keywords ++ qualifiers, w.toList ≠ [] ∧
      ∀ y ∈ w.toList.tail.tails, y ∉ (keywords ++ qualifiers).map String.toList := by decide
  obtain ⟨ne, no_word⟩ := ends w hw
  have chars := fun c (hc : c ∈ w.toList) => nameChar_of_mem_word hw hc
  obtain ⟨c, u, hu⟩ := List.exists_cons_of_ne_nil ne
  rw [hu] at h chars no_word ⊢
  exact ⟨h, inert_of_no_word (fun d hd => chars d (List.mem_cons_of_mem c hd)) ht no_word⟩

theorem shape?_eq_none_of_dark {k : Kind} {s : List Char} (h : s.head?.any nameChar.has = false) :
    k.shape? s = none := by
  cases shape : k.shape? s with
  | none => rfl
  | some found =>
    have none_empty : [] ∉ (keywords ++ qualifiers).map String.toList := by decide
    exact absurd (word_of_shape? (u := []) (by simp) h shape).1 none_empty

theorem inert_of_no_name {k : Kind} {a : List Char} (h : a.any nameChar.has = false)
    (rest : List Char) : k.Inert a rest := by
  induction a with
  | nil => trivial
  | cons c a ih =>
    rw [List.any_cons, Bool.or_eq_false_iff] at h
    exact ⟨shape?_eq_none_of_dark h.1, ih h.2⟩

theorem LeadIn.exists_keyword {s named : List Char} (h : LeadIn s named) :
    ∃ q : List Char, ∃ w ∈ keywords, ∃ r, s = q ++ (w.toList ++ r) ∧ '*' ∉ q := by
  induction h with
  | @keyword w r hw blank => exact ⟨[], w, hw, r, rfl, List.not_mem_nil⟩
  | @qualifier w r named hw blank behind ih =>
    obtain ⟨q, v, hv, r', same, no_star⟩ := ih
    refine ⟨w.toList ++ (r.takeWhile isBlank ++ q), v, hv, r', ?_, ?_⟩
    · rw [List.append_assoc, List.append_assoc, ← same]
      exact congrArg _ List.takeWhile_append_dropWhile.symm
    · have plain : ∀ w ∈ qualifiers, '*' ∉ w.toList := by decide
      intro star
      rcases List.mem_append.1 star with star | star
      · exact plain w hw star
      · rcases List.mem_append.1 star with star | star
        · exact not_mem_of_blank isBlank_star (fun _ hc => List.mem_takeWhile_imp hc) star
        · exact no_star star

theorem inert_of_no_keyword {k : Kind} {a : List Char} (h : ∀ w ∈ keywords, ¬ w.toList <:+: a)
    (rest : List Char) : k.Inert a ('*' :: rest) := by
  induction a with
  | nil => trivial
  | cons c a ih =>
    refine ⟨?_, ih fun w hw inside => h w hw (List.infix_cons inside)⟩
    cases shape : k.shape? (c :: (a ++ '*' :: rest)) with
    | none => rfl
    | some found =>
      obtain ⟨q, w, hw, r, same, no_star⟩ :=
        (leadIn_of_named? (shape?_eq_some_iff.1 shape).1).exists_keyword
      have plain : ∀ w ∈ keywords, '*' ∉ w.toList := by decide
      rw [← List.append_assoc, ← List.cons_append] at same
      have inside := prefix_of_append_eq same.symm fun star =>
        (List.mem_append.1 star).elim no_star (plain w hw)
      exact absurd ((List.suffix_append q w.toList).isInfix.trans inside.isInfix) (h w hw)

end Snapshot.Kind
