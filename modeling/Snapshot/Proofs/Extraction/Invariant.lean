import Snapshot.Proofs.Comment.Attribution
import Snapshot.Proofs.Declaration.Inert
import Snapshot.Proofs.Pattern.Captures

/-!
# What holds of every record

Whatever the text of a file is, the names in its record are whole words of the text, the
descriptions are lines of words with one space between them, and an import has a trimmed name and a
module without quotes.
-/

namespace Snapshot

/-- A name stands somewhere in a text, behind a blank and as far as name characters go. -/
def StandsIn (name text : List Char) : Prop :=
  ∃ before c after, text = before ++ c :: (name ++ after) ∧ Text.isBlank c = true ∧
    after.head?.any Kind.nameChar.has = false

def Kind.Fits : Kind → List Char → Prop
  | component, name => name.head?.any capital.has = true
  | hook, name => startsLikeHook name = true
  | decorator, name => name.head?.any capital.has = true ∧ endsLikeDecorator name = true
  | _, _ => True

structure Kind.NameIn (k : Kind) (text name : List Char) : Prop where
  filled : name ≠ []
  named : ∀ c ∈ name, nameChar.has c = true
  shown : name.head? ≠ some '_'
  stands : StandsIn name text
  fits : k.Fits name

structure OneLine (s : List Char) : Prop where
  filled : s ≠ []
  first : s.head?.any Text.isBlank = false
  last : s.getLast?.any Text.isBlank = false
  spaced : ∀ c ∈ s, Text.isBlank c = true → c = ' '
  single : ¬ [' ', ' '] <:+: s

structure Import.Clean (i : Import) : Prop where
  filled : i.name.toList ≠ []
  trimmed : Text.trim i.name.toList = i.name.toList
  shown : i.name.toList.head? ≠ some '_'
  plain : ',' ∉ i.name.toList ∧ '}' ∉ i.name.toList
  source_filled : i.source.toList ≠ []
  source_plain : '\'' ∉ i.source.toList ∧ '"' ∉ i.source.toList

namespace Kind
open Text Pattern

theorem mem_scan {k : Kind} {start : Nat} {s : List Char} {found : String × Nat}
    (h : found ∈ k.scan start s) :
    ∃ t named rest, t <:+ s ∧ k.shape? t = some (named, rest) ∧ found.1 = nameOf named := by
  fun_induction scan k start s with
  | case1 start => cases h
  | case2 start c s named rest shape ih =>
    rcases List.mem_cons.1 h with rfl | h
    · exact ⟨c :: s, named, rest, List.suffix_rfl, shape, rfl⟩
    · obtain ⟨t, named', rest', ht, found⟩ := ih h
      exact ⟨t, named', rest', ht.trans (suffix_of_shape? shape).1, found⟩
  | case3 start c s shape ih =>
    obtain ⟨t, named, rest, ht, found⟩ := ih h
    exact ⟨t, named, rest, ht.trans (List.suffix_cons c s), found⟩

theorem exists_blank_before {r : List Char} (h : r.head?.any isBlank = true) :
    ∃ pre c, r = pre ++ c :: trimStart r ∧ isBlank c = true := by
  have filled : r.takeWhile isBlank ≠ [] := by
    cases r with
    | nil => simp at h
    | cons c r =>
      rw [List.takeWhile_cons_of_pos (by simpa using h)]
      exact List.cons_ne_nil _ _
  refine ⟨(r.takeWhile isBlank).dropLast, (r.takeWhile isBlank).getLast filled, ?_, ?_⟩
  · rw [List.append_cons, List.dropLast_append_getLast]
    exact List.takeWhile_append_dropWhile.symm
  · exact List.mem_takeWhile_imp (List.getLast_mem filled)

theorem LeadIn.exists_blank {s named : List Char} (h : LeadIn s named) :
    ∃ pre c, s = pre ++ c :: named ∧ isBlank c = true := by
  induction h with
  | @keyword w r hw blank =>
    obtain ⟨pre, c, parts, hc⟩ := exists_blank_before blank
    exact ⟨w.toList ++ pre, c, by rw [List.append_assoc, ← parts], hc⟩
  | @qualifier w r named hw blank behind ih =>
    obtain ⟨pre, c, parts, hc⟩ := ih
    refine ⟨w.toList ++ (r.takeWhile isBlank ++ pre), c, ?_, hc⟩
    rw [List.append_assoc, List.append_assoc, ← parts]
    exact congrArg _ List.takeWhile_append_dropWhile.symm

theorem standsIn_of_named? {k : Kind} {text t named : List Char} (ht : t <:+ text)
    (h : k.named? t = some named) : StandsIn (named.takeWhile nameChar.has) text := by
  obtain ⟨before, rfl⟩ := ht
  obtain ⟨pre, c, rfl, hc⟩ := (leadIn_of_named? h).exists_blank
  refine ⟨before ++ pre, c, named.dropWhile nameChar.has, ?_, hc, head?_dropWhile_any named⟩
  rw [List.takeWhile_append_dropWhile, List.append_assoc]

theorem head?_takeWhile_of_any {p : Char → Bool} {s : List Char} (h : s.head?.any p = true) :
    (s.takeWhile p).head? = s.head? ∧ s.takeWhile p ≠ [] := by
  cases s with
  | nil => simp at h
  | cons c s =>
    rw [List.takeWhile_cons_of_pos (by simpa using h)]
    exact ⟨rfl, List.cons_ne_nil _ _⟩

theorem accepts_iff {k : Kind} {name : List Char} : k.accepts (String.ofList name) = true ↔
    name ≠ [] ∧ name.head? ≠ some '_' ∧ (k = component → name.head?.any isUppercase = true) ∧
      (k = hook → startsLikeHook name = true) := by
  unfold accepts
  rw [String.toList_ofList]
  cases name with
  | nil => simp
  | cons c rest => cases k <;> simp

theorem fits_of_accepts {k : Kind} {named rest : List Char} (h : k.afterNamed? named = some rest)
    (accepted : k.accepts (nameOf named) = true) : k.Fits (named.takeWhile nameChar.has) := by
  obtain ⟨first, -⟩ := head?_takeWhile_of_any (head?_of_afterNamed? h)
  obtain ⟨filled, -, upper, hooked⟩ := accepts_iff.1 accepted
  cases k with
  | component =>
    obtain ⟨c, t, ht⟩ := List.exists_cons_of_ne_nil filled
    have named : nameChar.has c = true :=
      List.mem_takeWhile_imp (ht ▸ List.mem_cons_self)
    have first := upper rfl
    rw [Fits]
    rw [ht] at first ⊢
    exact (isUppercase_eq named).symm.trans first
  | hook => exact hooked rfl
  | decorator =>
    simp only [afterNamed?] at h
    split at h
    · rename_i like
      rw [Bool.and_eq_true, Bool.and_eq_true] at like
      exact ⟨by rw [first]; exact like.1.1, like.1.2⟩
    · simp at h
  | _ => trivial

theorem nameIn_of_accepts {k : Kind} (hk : k ≠ importClause) {content : String} {s : Sighting}
    (h : s ∈ k.recognizer.recognize content) (accepted : k.accepts s.name = true) :
    k.NameIn content.toList s.name.toList := by
  rw [recognize_eq hk] at h
  obtain ⟨found, hfound, rfl⟩ := List.mem_map.1 h
  obtain ⟨t, named, rest, ht, shape, same⟩ := mem_scan hfound
  obtain ⟨lead, behind⟩ := shape?_eq_some_iff.1 shape
  have name : (k.sight found).name = nameOf named := same
  rw [name] at accepted ⊢
  obtain ⟨filled, shown, -⟩ := accepts_iff.1 accepted
  rw [nameOf, String.toList_ofList]
  exact ⟨filled, fun c hc => List.mem_takeWhile_imp hc, shown, standsIn_of_named? ht lead,
    fits_of_accepts behind accepted⟩

end Kind

namespace DocComment
open Text Pattern

theorem spaced_squeeze (s : List Char) : ∀ c ∈ squeeze s, isBlank c = true → c = ' ' := by
  intro c hc blank
  fun_induction squeeze s with
  | case1 => cases hc
  | case2 d s hd ih =>
    rcases List.mem_cons.1 hc with rfl | hc
    · rfl
    · exact ih hc
  | case3 d s hd ih =>
    rcases List.mem_cons.1 hc with rfl | hc
    · exact absurd blank hd
    · exact ih hc

theorem single_squeeze (s : List Char) : ¬ [' ', ' '] <:+: squeeze s := by
  fun_induction squeeze s with
  | case1 => simp
  | case2 c s hc ih =>
    rw [List.infix_cons_iff, not_or]
    refine ⟨fun first => ?_, ih⟩
    have dark := dark_of_head?_squeeze (head?_dropWhile_any (p := isBlank) s)
    obtain ⟨t, parts⟩ := first
    obtain ⟨-, parts⟩ := List.cons.inj parts
    rw [← parts] at dark
    simp [isBlank_space] at dark
  | case3 c s hc ih =>
    rw [List.infix_cons_iff, not_or]
    refine ⟨fun first => hc ?_, ih⟩
    obtain ⟨t, parts⟩ := first
    rw [← (List.cons.inj parts).1]
    exact isBlank_space

theorem oneLine_normalize {body : List Char} (h : normalize body ≠ []) :
    OneLine (normalize body) := by
  rw [normalize_eq_squeeze] at h ⊢
  have inside := isInfix_trim (squeeze (undecorated body))
  exact ⟨h, head?_trim _, getLast?_trimEnd _, fun c hc => spaced_squeeze _ c (inside.mem hc),
    fun twice => single_squeeze _ (twice.trans inside)⟩

theorem oneLine_textBefore {text : List Char} {n : Nat} (h : textBefore text n ≠ []) :
    OneLine (textBefore text n) := by
  rw [textBefore] at h ⊢
  cases found : (takeBytes? n text).bind last? with
  | none => simp [found] at h
  | some comment =>
    rw [found, Option.getD_some] at h
    obtain ⟨before, -, last⟩ := Option.bind_eq_some_iff.1 found
    obtain ⟨m, -, span⟩ := Option.bind_eq_some_iff.1 last
    obtain ⟨s, -, rfl⟩ := Option.map_eq_some_iff.1 span
    exact oneLine_normalize h

end DocComment

theorem Kind.oneLine_fallback {k : Kind} (hk : k ≠ .importClause) : OneLine k.fallback.toList := by
  have spaced : (k.fallback.toList.all fun c => !Text.isBlank c || c == ' ') = true := by
    cases k <;> decide
  cases k with
  | importClause => exact absurd rfl hk
  | _ =>
    refine ⟨by decide, by decide, by decide, fun c hc blank => ?_, by decide⟩
    simpa [blank] using List.all_eq_true.1 spaced c hc

theorem Kind.oneLine_describe {k : Kind} (hk : k ≠ .importClause) (text : List Char) (start : Nat) :
    OneLine (k.describe text start).toList := by
  rw [describe]
  split
  · exact oneLine_fallback hk
  · rename_i filled
    rw [String.toList_ofList]
    exact DocComment.oneLine_textBefore fun empty => filled empty

namespace ImportClause
open Kind Text Pattern

def Held (n : Nat) (c : Char) : Prop :=
  if n = 1 then c ≠ '}' else quotes.has c = false

theorem capturesOver_pattern : importClause.pattern.CapturesOver Held := by
  have names : (group 1 (many (char (.compl (.single '}'))) false)).CapturesOver Held := by
    refine ⟨rfl, fun c hc => ?_⟩
    rw [has_compl_single] at hc
    exact bne_iff_ne.1 hc
  have module : (group 2 (many1 (char (.compl quotes)))).CapturesOver Held := by
    refine ⟨rfl, fun c hc => ?_⟩
    simpa [CharSet.has, Held] using hc
  have part : ∀ p : Pattern, p.flat = true → p.CapturesOver Held := fun p =>
    capturesOver_of_flat
  exact ⟨part _ rfl, part _ rfl, part _ rfl, part _ rfl, names, part _ rfl, part _ rfl,
    part _ rfl, part _ rfl, part _ rfl, part _ rfl, module, part _ rfl⟩

theorem plain_of_mem_recognize {content : String} {s : Sighting}
    (h : s ∈ importClause.recognizer.recognize content) : '}' ∉ s.name.toList ∧
      ∀ source, s.source = some source → ∀ c ∈ source.toList, quotes.has c = false := by
  obtain ⟨m, hm, found⟩ := List.mem_filterMap.1 h
  have held : ∀ n span, n ≠ 0 → m.span? n = some span →
      ∀ c ∈ span.slice content.toList, Held n c :=
    fun n span hn => slice_over rfl rfl capturesOver_pattern hm hn
  obtain ⟨name, hname, found⟩ := Option.bind_eq_some_iff.1 found
  obtain ⟨source?, hsource, same⟩ := Option.bind_eq_some_iff.1 found
  obtain rfl := Option.some.inj same
  obtain ⟨span, hspan, rfl⟩ := Option.map_eq_some_iff.1 hsource
  constructor
  · intro brace
    rw [String.toList_ofList] at brace
    exact held 1 name (Nat.succ_ne_zero 0) hname '}' brace rfl
  · intro source same
    rw [← Option.some.inj same, String.toList_ofList]
    exact held 2 span (Nat.succ_ne_zero 1) hspan

theorem clean_of_mem_imports {content : String} {s : Sighting} {i : Import}
    (h : s ∈ importClause.recognizer.recognize content) (hi : i ∈ s.imports) : i.Clean := by
  obtain ⟨no_brace, no_quote⟩ := plain_of_mem_recognize h
  unfold Sighting.imports at hi
  cases hs : s.source with
  | none => simp [hs] at hi
  | some source =>
    rw [hs] at hi
    dsimp only at hi
    split at hi
    · cases hi
    · rename_i filled
      obtain ⟨name, hname, hi⟩ := List.mem_filterMap.1 hi
      obtain ⟨piece, hpiece, rfl⟩ := List.mem_map.1 hname
      obtain ⟨accepted, rfl⟩ : importClause.accepts (String.ofList (trim piece)) = true ∧
          ⟨String.ofList (trim piece), source⟩ = i := by simpa using hi
      obtain ⟨name_filled, shown, -⟩ := accepts_iff.1 accepted
      have inside : ∀ c ∈ trim piece, c ∈ s.name.toList ∧ c ≠ ',' := by
        intro c hc
        obtain ⟨inside, no_comma⟩ := mem_of_mem_splitOn hpiece c ((isInfix_trim piece).mem hc)
        exact ⟨(isInfix_trim s.name.toList).mem inside, no_comma⟩
      have source_filled : source.toList ≠ [] := by
        intro empty
        rw [Bool.or_eq_true, not_or] at filled
        exact filled.2 (by simpa using empty)
      have name : (String.ofList (trim piece)).toList = trim piece := String.toList_ofList
      exact {
        filled := by rwa [name]
        trimmed := by rw [name]; exact trim_eq_self_iff.2 ⟨head?_trim piece, getLast?_trimEnd _⟩
        shown := by rwa [name]
        plain := by
          rw [name]
          exact ⟨fun comma => (inside _ comma).2 rfl, fun brace => no_brace (inside _ brace).1⟩
        source_filled := source_filled
        source_plain := ⟨fun quote => absurd (no_quote source hs _ quote) (by decide),
          fun quote => absurd (no_quote source hs _ quote) (by decide)⟩ }

end ImportClause

structure FileRecord.Sound (r : FileRecord) (path content : String) : Prop where
  path_eq : r.path = path
  named : ∀ k, ∀ d ∈ r.listed k, k.NameIn content.toList d.name.toList
  described : ∀ k, ∀ d ∈ r.listed k, OneLine d.description.toList
  imported : ∀ i ∈ r.imports, i.Clean

theorem sound_ofSource (path content : String) :
    (FileRecord.ofSource path content).Sound path content := by
  have declared : ∀ k, ∀ d ∈ (FileRecord.ofSource path content).listed k,
      k ≠ .importClause ∧ ∃ s ∈ k.recognizer.recognize content, k.accepts s.name = true ∧
        d = ⟨s.name, k.describe content.toList s.start⟩ := by
    intro k d hd
    by_cases hk : k = .importClause
    · rw [hk] at hd
      cases hd
    · rw [FileRecord.listed_ofSource hk] at hd
      obtain ⟨s, hs, rfl⟩ := List.mem_map.1 hd
      obtain ⟨found, accepted⟩ := List.mem_filter.1 hs
      exact ⟨hk, s, found, accepted, rfl⟩
  refine ⟨rfl, fun k d hd => ?_, fun k d hd => ?_, fun i hi => ?_⟩
  · obtain ⟨hk, s, found, accepted, rfl⟩ := declared k d hd
    exact Kind.nameIn_of_accepts hk found accepted
  · obtain ⟨hk, s, -, -, rfl⟩ := declared k d hd
    exact Kind.oneLine_describe hk _ _
  · obtain ⟨s, found, hi⟩ := List.mem_flatMap.1 hi
    exact ImportClause.clean_of_mem_imports found hi

end Snapshot
