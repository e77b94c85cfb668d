import Snapshot.Proofs.Toml.Spelling
import Snapshot.Toml.Document

/-!
# Documents of keys and values

A document in which each line gives a value to a key is read as those keys and values, in their
order, unless a key is there twice. One more line, whatever stands behind its key, either adds that
key or makes the document invalid.
-/

namespace Snapshot.Toml

structure Line where
  key : String
  value : Value
  text : List Char
  bare : isBare key = true
  written : Written value text

namespace Line

def entry (l : Line) : String × Value := (l.key, l.value)

def chars (l : Line) : List Char := pairLine l.key l.text

end Line

def document (lines : List Line) : List Char := lines.flatMap Line.chars

namespace Entries
variable {es es' : Entries} {key : String} {v : Value}

def keys (es : Entries) : List String := es.map Prod.fst

theorem lookup_eq_none_iff_keys : es.lookup key = none ↔ key ∉ es.keys := by
  induction es with
  | nil => simp [keys]
  | cons e es ih =>
    obtain ⟨k, w⟩ := e
    by_cases same : key = k
    · simp [keys, same]
    · simpa [keys, List.lookup_cons, beq_eq_false_iff_ne.2 same, same] using ih

theorem insert?_of_not_mem (h : key ∉ es.keys) : es.insert? key v = some (es ++ [(key, v)]) := by
  rw [insert?, lookup_eq_none_iff_keys.2 h]

theorem insert?_of_mem (h : key ∈ es.keys) : es.insert? key v = none := by
  unfold insert?
  split
  · rename_i absent
    exact absurd h (lookup_eq_none_iff_keys.1 absent)
  · rfl

theorem keys_of_insert? (h : es.insert? key v = some es') : es'.keys = es.keys ++ [key] := by
  unfold insert? at h
  split at h
  · cases h
    simp [keys]
  · cases h

theorem keys_subset_append : es.keys ⊆ keys (es ++ [(key, v)]) := by
  rw [keys, keys, List.map_append]
  exact List.subset_append_left _ _

theorem keys_replace : (es.replace key v).keys = es.keys := by
  induction es with
  | nil => rfl
  | cons e es ih =>
    obtain ⟨k, w⟩ := e
    rw [replace]
    split
    · rfl
    · exact congrArg (k :: ·) ih

theorem keys_subset_replace : es.keys ⊆ (es.replace key v).keys := by
  rw [keys_replace]
  exact List.Subset.refl _

/-- A change at the end of a path takes no key from the table that the path starts at. -/
theorem keys_subset_of_updateAt {made : Origin} {change : Origin → Entries → Option Entries}
    (grows : ∀ o es es', change o es = some es' → es.keys ⊆ es'.keys) {origin : Origin}
    {path : List String} (h : updateAt made change origin path es = some es') :
    es.keys ⊆ es'.keys := by
  cases path with
  | nil =>
    rw [updateAt] at h
    exact grows _ _ _ h
  | cons k path =>
    rw [updateAt] at h
    split at h
    · obtain ⟨sub, -, same⟩ := Option.bind_eq_some_iff.1 h
      cases same
      exact keys_subset_append
    · split at h
      · cases h
      · obtain ⟨sub, -, same⟩ := Option.bind_eq_some_iff.1 h
        cases same
        exact keys_subset_replace
    · obtain ⟨newest, -, same⟩ := Option.bind_eq_some_iff.1 h
      cases same
      exact keys_subset_replace
    · cases h

theorem keys_subset_of_addUnder {current path : List String}
    (h : es.addUnder current path key v = some es') : es.keys ⊆ es'.keys := by
  refine keys_subset_of_updateAt (fun _ es es' h => keys_subset_of_updateAt ?_ h) h
  intro o es es' h
  split at h
  · rw [keys_of_insert? h]
    exact List.subset_append_left _ _
  · cases h

theorem keys_subset_of_addHeader {path : List String} (h : es.addHeader path key = some es') :
    es.keys ⊆ es'.keys := by
  refine keys_subset_of_updateAt (fun _ es es' h => ?_) h
  split at h <;> cases h
  · exact keys_subset_append
  · exact keys_subset_replace

theorem keys_subset_of_addToTables {path : List String} (h : es.addToTables path key = some es') :
    es.keys ⊆ es'.keys := by
  refine keys_subset_of_updateAt (fun _ es es' h => ?_) h
  split at h <;> cases h
  · exact keys_subset_append
  · exact keys_subset_replace

theorem addUnder_nil : es.addUnder [] [] key v = es.insert? key v := by
  simp [addUnder, addDotted, updateAt]

def addLines (es : Entries) (lines : List Line) : Option Entries :=
  lines.foldlM (fun es l => es.insert? l.key l.value) es

theorem addLines_of_nodup {lines : List Line} (distinct : (lines.map Line.key).Nodup)
    (apart : ∀ l ∈ lines, l.key ∉ es.keys) :
    es.addLines lines = some (es ++ lines.map Line.entry) := by
  induction lines generalizing es with
  | nil => simp [addLines]
  | cons l lines ih =>
    obtain ⟨first, rest⟩ := List.forall_mem_cons.1 apart
    obtain ⟨other, distinct⟩ := List.nodup_cons.1 distinct
    rw [addLines, List.foldlM_cons, insert?_of_not_mem first]
    refine (ih distinct fun m hm => ?_).trans (by simp [Line.entry])
    have differ : m.key ≠ l.key := fun same => other (same ▸ List.mem_map_of_mem hm)
    simpa [keys, differ] using rest m hm

theorem addLines_of_mem {lines : List Line} (there : key ∈ es.keys)
    (again : key ∈ lines.map Line.key) : es.addLines lines = none := by
  induction lines generalizing es with
  | nil => cases again
  | cons l lines ih =>
    rw [addLines, List.foldlM_cons]
    by_cases same : key = l.key
    · rw [insert?_of_mem (same ▸ there)]
      rfl
    · cases added : es.insert? l.key l.value with
      | none => rfl
      | some es' =>
        refine ih ?_ (List.mem_of_ne_of_mem same again)
        rw [keys_of_insert? added]
        exact List.mem_append_left _ there

end Entries

namespace Builder

theorem complete_place (b : Builder) (place : Place) (v : Value) :
    { b with place }.complete v = b.complete v := by
  unfold complete
  split <;> simp_all

theorem foldlM_singleton (b : Builder) (t : Token) : [t].foldlM next b = b.next t := bind_pure _

theorem next_value {b : Builder} (place : b.place = .value) {t : Token}
    (other : t ≠ .blank ∧ t ≠ .newline) : b.next t = b.beginValue t := by
  obtain ⟨root, current, frames, _⟩ := b
  obtain rfl : _ = Place.value := place
  cases t with
  | blank => exact absurd rfl other.1
  | newline => exact absurd rfl other.2
  | _ => rfl

theorem next_string (root : Entries) (current : List String) (items : List Value)
    (frames : List Frame) (s : String) :
    next ⟨root, current, .array items :: frames, .item⟩ (.line s.toList) =
      some ⟨root, current, .array (.string s :: items) :: frames, .afterValue⟩ := by
  have value : next ⟨root, current, .array items :: frames, .item⟩ (.line s.toList) =
      some ⟨root, current, .array (.string (String.ofList s.toList) :: items) :: frames,
        .afterValue⟩ := rfl
  rw [value, String.ofList_toList]

end Builder

theorem Items.exists_tokens {ss : List String} {u : List Char} (h : Items ss u) :
    ∃ ts, Lexeme.clear.after? u = some (.clear, ts) ∧
      ∀ (root : Entries) (current : List String) (items : List Value) (frames : List Frame),
        ts.foldlM Builder.next ⟨root, current, .array items :: frames, .item⟩ =
          Builder.complete ⟨root, current, frames, .item⟩
            (.array (items.reverse ++ ss.map Value.string)) := by
  induction h with
  | none =>
    refine ⟨[.closeBracket], rfl, fun root current items frames => ?_⟩
    rw [List.map_nil, List.append_nil, Builder.foldlM_singleton]
    rfl
  | @last s t text =>
    refine ⟨[.line s.toList, .closeBracket], ?_, fun root current items frames => ?_⟩
    · rw [after?_quoted text (by decide)]
      rfl
    · rw [List.foldlM_cons, Builder.next_string, Option.bind_eq_bind, Option.bind_some,
        Builder.foldlM_singleton,
        ← Builder.complete_place ⟨root, current, frames, .item⟩ .afterValue]
      exact congrArg (Builder.complete _ ∘ Value.array) List.reverse_cons
  | @more s t ss u text rest ih =>
    obtain ⟨ts, read, built⟩ := ih
    refine ⟨.line s.toList :: .comma :: .blank :: ts, ?_, fun root current items frames => ?_⟩
    · have string : Lexeme.clear.after? (quoted t ++ [',']) =
          some (.clear, [.line s.toList, .comma]) := by
        rw [after?_quoted text (by decide)]
        rfl
      have behind : Lexeme.clear.after? (' ' :: u) = some (.clear, .blank :: ts) := by
        have blank : Lexeme.clear.next ' ' = some (.clear, [.blank]) := rfl
        rw [Lexeme.after?_cons blank, read]
        rfl
      exact Lexeme.after?_append_of_eq_some string behind
    · have comma : (Token.comma :: .blank :: ts).foldlM Builder.next
          ⟨root, current, .array (.string s :: items) :: frames, .afterValue⟩ =
          ts.foldlM Builder.next ⟨root, current, .array (.string s :: items) :: frames, .item⟩ :=
        rfl
      rw [List.foldlM_cons, Builder.next_string, Option.bind_eq_bind, Option.bind_some, comma,
        built, List.reverse_cons, List.append_assoc]
      rfl

/-- The tokens of a value that is at the end of its line, and what is built from them. -/
theorem Written.exists_tokens {value : Value} {v : List Char} (h : Written value v) :
    ∃ ts, Lexeme.clear.after? (v ++ ['\n']) = some (.clear, ts ++ [Token.newline]) ∧
      ∀ b : Builder, b.place = .value → ts.foldlM Builder.next b = b.complete value := by
  cases h with
  | @string s t text =>
    refine ⟨[.line s.toList], ?_, fun b place => ?_⟩
    · rw [after?_quoted text (by decide)]
      rfl
    · rw [Builder.foldlM_singleton, Builder.next_value place (by simp)]
      exact congrArg (b.complete ∘ Value.string) String.ofList_toList
  | boolean v =>
    refine ⟨[.bare (toString v).toList], ?_, fun b place => ?_⟩
    · cases v <;> decide
    · rw [Builder.foldlM_singleton, Builder.next_value place (by simp)]
      cases v <;> rfl
  | @strings ss u items =>
    obtain ⟨ts, read, built⟩ := items.exists_tokens
    refine ⟨.openBracket :: ts, ?_, fun b place => ?_⟩
    · have bracket : Lexeme.clear.next '[' = some (.clear, [.openBracket]) := rfl
      have ended : Lexeme.clear.after? ['\n'] = some (.clear, [.newline]) := rfl
      rw [List.cons_append, Lexeme.after?_cons bracket, Lexeme.after?_append_of_eq_some read ended]
      rfl
    · have opened : b.next .openBracket =
          some ⟨b.root, b.current, .array [] :: b.frames, .item⟩ :=
        Builder.next_value place (by simp)
      rw [List.foldlM_cons, opened]
      exact (built b.root b.current [] b.frames).trans (Builder.complete_place b .item _)

theorem Written.oneLine {value : Value} {v : List Char} (h : Written value v) : OneLine v := by
  refine ⟨h.no_break, fun x ts read => ?_⟩
  obtain ⟨us, closed, -⟩ := h.exists_tokens
  exact (Prod.mk.inj (Option.some.inj (read.symm.trans closed))).1

namespace Builder

def waiting (root : Entries) (key : String) : Builder where
  root := root
  frames := [.pair ⟨[], key⟩]
  place := .value

theorem foldlM_key (root : Entries) (key : String) (ts : List Token) :
    (Token.bare key.toList :: .blank :: .equals :: .blank :: ts).foldlM next { root } =
      ts.foldlM next (waiting root key) := by
  have read : (Token.bare key.toList :: .blank :: .equals :: .blank :: ts).foldlM next { root } =
      ts.foldlM next (waiting root (String.ofList key.toList)) := rfl
  rw [read, String.ofList_toList]

theorem complete_waiting (root : Entries) (key : String) (v : Value) :
    (waiting root key).complete v =
      (root.insert? key v).map fun root => { root, place := .lineEnd } := by
  simp only [complete, waiting, Entries.addUnder_nil]
  cases root.insert? key v <;> rfl

end Builder

theorem Line.exists_tokens (l : Line) :
    ∃ ts, Lexeme.clear.after? l.chars = some (.clear, .bare l.key.toList :: ts) ∧
      ∀ root, (Token.bare l.key.toList :: ts).foldlM Builder.next { root } =
        (root.insert? l.key l.value).map fun root => { root } := by
  obtain ⟨ts, read, built⟩ := l.written.exists_tokens
  refine ⟨.blank :: .equals :: .blank :: (ts ++ [Token.newline]), ?_, fun root => ?_⟩
  · rw [Line.chars, pairLine, List.append_assoc (_ ++ _)]
    exact Lexeme.after?_append_of_eq_some (after?_key l.bare) read
  · rw [Builder.foldlM_key, List.foldlM_append, built _ rfl, Builder.complete_waiting]
    cases root.insert? l.key l.value <;> rfl

theorem exists_tokens_document (lines : List Line) :
    ∃ ts, Lexeme.clear.after? (document lines) = some (.clear, ts) ∧
      (∀ root, ts.foldlM Builder.next { root } =
        (root.addLines lines).map fun root => { root }) ∧
      ∀ l ∈ lines.head?, ∃ us, ts = .bare l.key.toList :: us := by
  induction lines with
  | nil => exact ⟨[], rfl, fun root => rfl, nofun⟩
  | cons l lines ih =>
    obtain ⟨ts, read, built⟩ := l.exists_tokens
    obtain ⟨us, reads, builds, -⟩ := ih
    refine ⟨.bare l.key.toList :: ts ++ us, ?_, fun root => ?_, ?_⟩
    · rw [document, List.flatMap_cons]
      exact Lexeme.after?_append_of_eq_some read reads
    · rw [List.foldlM_append, built, Entries.addLines, List.foldlM_cons]
      cases root.insert? l.key l.value with
      | none => rfl
      | some root => exact builds root
    · rintro m ⟨⟩
      exact ⟨ts ++ us, rfl⟩

end Snapshot.Toml
