import Mathlib.Data.List.Induction
import Snapshot.Proofs.Toml.Pairs

/-!
# One more line

From the key of a line on, the table waits for the value of that key, in whatever brackets and
braces the tokens stand. It goes on waiting, and then there is no document, or it takes the value;
nothing takes a key away again.
-/

namespace Snapshot.Toml

def Place.inValue : Place → Bool
  | .value | .item | .firstMember | .afterValue | .key .member _ _ => true
  | _ => false

inductive Frame.Behind (key : String) : List Frame → Prop
  | pair : Behind key [.pair ⟨[], key⟩]
  | array {frames} (items : List Value) (inside : Behind key frames) :
    Behind key (.array items :: frames)
  | braces {frames} (entries : Entries) (inside : Behind key frames) :
    Behind key (.braces entries :: frames)
  | member {frames} (entries : Entries) (k : Key) (inside : Behind key frames) :
    Behind key (.member entries k :: frames)

namespace Builder

structure Pending (root : Entries) (key : String) (b : Builder) : Prop where
  same_root : b.root = root
  no_header : b.current = []
  behind : Frame.Behind key b.frames
  in_value : b.place.inValue = true

def Done (root : Entries) (key : String) (b : Builder) : Prop :=
  ∃ v root', root.insert? key v = some root' ∧ b = { root := root', place := .lineEnd }

section Step
variable {root : Entries} {key : String} {b b' : Builder} {v : Value} {t : Token}

theorem pending_waiting : Pending root key (waiting root key) := ⟨rfl, rfl, .pair, rfl⟩

theorem Pending.complete (p : Pending root key b) (h : b.complete v = some b') :
    Pending root key b' ∨ Done root key b' := by
  obtain ⟨_, _, frames, place⟩ := b
  obtain ⟨rfl, rfl, behind, -⟩ := p
  cases behind with
  | pair =>
    obtain ⟨root', added, same⟩ := Option.bind_eq_some_iff.1 h
    cases same
    rw [Entries.addUnder_nil] at added
    exact .inr ⟨v, root', added, rfl⟩
  | array items inside =>
    cases h
    exact .inl ⟨rfl, rfl, .array _ inside, rfl⟩
  | braces => cases h
  | member entries k inside =>
    obtain ⟨entries', -, same⟩ := Option.bind_eq_some_iff.1 h
    cases same
    exact .inl ⟨rfl, rfl, .braces _ inside, rfl⟩

theorem Pending.closeArray (p : Pending root key b) (h : b.closeArray = some b') :
    Pending root key b' ∨ Done root key b' := by
  unfold Builder.closeArray at h
  split at h
  · rename_i items frames top
    have inside := p.behind
    rw [top] at inside
    cases inside with
    | array _ inside =>
      have opened : Pending root key { b with frames } :=
        ⟨p.same_root, p.no_header, inside, p.in_value⟩
      exact opened.complete h
  · cases h

theorem Pending.closeBraces (p : Pending root key b) (h : b.closeBraces = some b') :
    Pending root key b' ∨ Done root key b' := by
  unfold Builder.closeBraces at h
  split at h
  · rename_i entries frames top
    have inside := p.behind
    rw [top] at inside
    cases inside with
    | braces _ inside =>
      have opened : Pending root key { b with frames } :=
        ⟨p.same_root, p.no_header, inside, p.in_value⟩
      exact opened.complete h
  · cases h

theorem Pending.beginValue (p : Pending root key b) (h : b.beginValue t = some b') :
    Pending root key b' ∨ Done root key b' := by
  unfold Builder.beginValue at h
  split at h
  · exact p.complete h
  · exact p.complete h
  · split_ifs at h
    · exact p.complete h
    · exact p.complete h
  · cases h
    exact .inl ⟨p.same_root, p.no_header, .array _ p.behind, rfl⟩
  · cases h
    exact .inl ⟨p.same_root, p.no_header, .braces _ p.behind, rfl⟩
  · split_ifs at h
    cases h
    exact .inl p
  · cases h

theorem Pending.move (p : Pending root key b) {place : Place} (inside : place.inValue = true) :
    Pending root key { b with place } := ⟨p.same_root, p.no_header, p.behind, inside⟩

theorem Pending.beginMember (p : Pending root key b) (h : b.beginKey .member t = some b') :
    Pending root key b' := by
  unfold Builder.beginKey at h
  split at h
  · cases h
    exact p.move rfl
  · cases h
    exact p.move rfl
  · cases h

theorem Pending.endMember (p : Pending root key b) {parts : List String}
    (h : b.endKey .member parts = some b') : Pending root key b' := by
  obtain ⟨k, -, h⟩ := Option.bind_eq_some_iff.1 h
  split at h
  · contradiction
  · rename_i entries frames _ top
    cases h
    have inside := p.behind
    rw [top] at inside
    cases inside with
    | braces _ inside => exact ⟨p.same_root, p.no_header, .member _ _ inside, rfl⟩
  all_goals contradiction

theorem Pending.next_blank (p : Pending root key b) : b.next .blank = some b := by
  have inside := p.in_value
  cases place : b.place with
  | lineStart | lineEnd | bracket | closing => simp [place, Place.inValue] at inside
  | _ => simp only [Builder.next, place]

theorem Pending.next_key (p : Pending root key b) {parts : List String} {wanted : Bool}
    (place : b.place = .key .member parts wanted) (h : b.next t = some b') :
    Pending root key b' := by
  cases t with
  | blank =>
    obtain rfl := Option.some.inj (p.next_blank.symm.trans h)
    exact p
  | bare s | line s =>
    cases wanted with
    | true =>
      simp only [Builder.next, place, Option.some.injEq] at h
      exact h ▸ p.move rfl
    | false => simp [Builder.next, place] at h
  | dot =>
    cases wanted with
    | true => simp [Builder.next, place] at h
    | false =>
      simp only [Builder.next, place, Option.some.injEq] at h
      exact h ▸ p.move rfl
  | equals =>
    cases wanted with
    | true => simp [Builder.next, place] at h
    | false =>
      simp only [Builder.next, place] at h
      exact p.endMember h
  | _ => simp [Builder.next, place] at h

/-- A token leaves the value open, or completes it. -/
theorem Pending.next (p : Pending root key b) (h : b.next t = some b') :
    Pending root key b' ∨ Done root key b' := by
  have inside := p.in_value
  cases place : b.place with
  | lineStart | lineEnd | bracket | closing => simp [place, Place.inValue] at inside
  | key use parts wanted =>
    obtain rfl : use = .member := by
      cases use <;> simp [place, Place.inValue] at inside ⊢
    exact .inl (p.next_key place h)
  | value =>
    cases t with
    | blank =>
      obtain rfl := Option.some.inj (p.next_blank.symm.trans h)
      exact .inl p
    | newline => simp [Builder.next, place] at h
    | _ =>
      simp only [Builder.next, place] at h
      exact p.beginValue h
  | item =>
    cases t with
    | blank =>
      obtain rfl := Option.some.inj (p.next_blank.symm.trans h)
      exact .inl p
    | closeBracket =>
      simp only [Builder.next, place] at h
      exact p.closeArray h
    | _ =>
      simp only [Builder.next, place] at h
      exact p.beginValue h
  | firstMember =>
    cases t with
    | blank =>
      obtain rfl := Option.some.inj (p.next_blank.symm.trans h)
      exact .inl p
    | closeBrace =>
      simp only [Builder.next, place] at h
      exact p.closeBraces h
    | _ =>
      simp only [Builder.next, place] at h
      exact .inl (p.beginMember h)
  | afterValue =>
    cases t with
    | blank =>
      obtain rfl := Option.some.inj (p.next_blank.symm.trans h)
      exact .inl p
    | comma =>
      simp only [Builder.next, place, Option.some.injEq] at h
      refine .inl (h ▸ p.move ?_)
      split <;> rfl
    | closeBracket =>
      simp only [Builder.next, place] at h
      exact p.closeArray h
    | closeBrace =>
      simp only [Builder.next, place] at h
      exact p.closeBraces h
    | newline =>
      simp only [Builder.next, place] at h
      split at h
      · cases h
        exact .inl p
      · cases h
    | _ => simp [Builder.next, place] at h

theorem keys_subset_of_complete (h : b.complete v = some b') : b.root.keys ⊆ b'.root.keys := by
  unfold complete at h
  split at h
  · obtain ⟨root', added, same⟩ := Option.bind_eq_some_iff.1 h
    cases same
    exact Entries.keys_subset_of_addUnder added
  · cases h
    exact List.Subset.refl _
  · obtain ⟨entries, -, same⟩ := Option.bind_eq_some_iff.1 h
    cases same
    exact List.Subset.refl _
  · cases h

theorem keys_subset_of_endKey {use : Use} {parts : List String}
    (h : b.endKey use parts = some b') : b.root.keys ⊆ b'.root.keys := by
  obtain ⟨k, -, h⟩ := Option.bind_eq_some_iff.1 h
  split at h
  · cases h
    exact List.Subset.refl _
  · cases h
    exact List.Subset.refl _
  · obtain ⟨root', added, same⟩ := Option.bind_eq_some_iff.1 h
    cases same
    exact Entries.keys_subset_of_addHeader added
  · obtain ⟨root', added, same⟩ := Option.bind_eq_some_iff.1 h
    cases same
    exact Entries.keys_subset_of_addToTables added
  · cases h

theorem keys_subset_of_closeArray (h : b.closeArray = some b') : b.root.keys ⊆ b'.root.keys := by
  unfold closeArray at h
  split at h
  · rename_i frames _
    exact keys_subset_of_complete (b := { b with frames }) h
  · cases h

theorem keys_subset_of_closeBraces (h : b.closeBraces = some b') : b.root.keys ⊆ b'.root.keys := by
  unfold closeBraces at h
  split at h
  · rename_i frames _
    exact keys_subset_of_complete (b := { b with frames }) h
  · cases h

theorem root_eq_of_beginKey {use : Use} (h : b.beginKey use t = some b') : b'.root = b.root := by
  unfold beginKey at h
  split at h <;> cases h <;> rfl

theorem keys_subset_of_beginValue (h : b.beginValue t = some b') :
    b.root.keys ⊆ b'.root.keys := by
  unfold beginValue at h
  split at h
  · exact keys_subset_of_complete h
  · exact keys_subset_of_complete h
  · split_ifs at h
    · exact keys_subset_of_complete h
    · exact keys_subset_of_complete h
  · cases h
    exact List.Subset.refl _
  · cases h
    exact List.Subset.refl _
  · split_ifs at h
    cases h
    exact List.Subset.refl _
  · cases h

theorem keys_subset_of_next (h : b.next t = some b') : b.root.keys ⊆ b'.root.keys := by
  unfold next at h
  split at h
  all_goals first
    | contradiction
    | exact keys_subset_of_beginValue h
    | exact keys_subset_of_closeArray h
    | exact keys_subset_of_closeBraces h
    | exact keys_subset_of_endKey h
    | exact (root_eq_of_beginKey h) ▸ List.Subset.refl _
    | skip
  -- what is left moves on, after a header in double brackets or at the end of a line in an array
  case h_18 =>
    obtain ⟨c, ended, same⟩ := Option.map_eq_some_iff.1 h
    cases same
    have kept := keys_subset_of_endKey ended
    exact kept
  case h_29 =>
    split_ifs at h
    cases h
    exact List.Subset.refl _
  all_goals
    cases h
    exact List.Subset.refl _

end Step

section Run
variable {root : Entries} {key : String} {b b' : Builder} {ts : List Token}

theorem keys_subset_of_foldlM (h : ts.foldlM next b = some b') : b.root.keys ⊆ b'.root.keys := by
  induction ts generalizing b with
  | nil =>
    cases h
    exact List.Subset.refl _
  | cons t ts ih =>
    obtain ⟨c, first, rest⟩ := Option.bind_eq_some_iff.1 h
    exact List.Subset.trans (keys_subset_of_next first) (ih rest)

theorem Done.keys (h : Done root key b) : key ∉ root.keys ∧ key ∈ b.root.keys := by
  obtain ⟨v, root', added, rfl⟩ := h
  refine ⟨fun there => ?_, ?_⟩
  · rw [Entries.insert?_of_mem there] at added
    cases added
  · rw [Entries.keys_of_insert? added]
    exact List.mem_append_right _ (List.mem_singleton_self _)

/-- Whatever the tokens are, the value stays open, or the key is a new one and stays there. -/
theorem Pending.foldlM (p : Pending root key b) (h : ts.foldlM Builder.next b = some b') :
    Pending root key b' ∨ (key ∉ root.keys ∧ key ∈ b'.root.keys) := by
  induction ts generalizing b with
  | nil =>
    cases h
    exact .inl p
  | cons t ts ih =>
    obtain ⟨c, first, rest⟩ := Option.bind_eq_some_iff.1 h
    rcases p.next first with still | done
    · exact ih still rest
    · exact .inr ⟨done.keys.1, keys_subset_of_foldlM rest done.keys.2⟩

theorem Pending.foldlM_line (p : Pending root key b) (no_newline : .newline ∉ ts)
    (h : ts.foldlM Builder.next b = some b') : Pending root key b' ∨ Done root key b' := by
  induction ts using List.reverseRecOn generalizing b' with
  | nil =>
    cases h
    exact .inl p
  | append_singleton ts t ih =>
    rw [List.foldlM_append] at h
    obtain ⟨c, front, last⟩ := Option.bind_eq_some_iff.1 h
    obtain ⟨d, last, same⟩ := Option.bind_eq_some_iff.1 last
    cases same
    simp only [List.mem_append, List.mem_singleton, not_or] at no_newline
    rcases ih no_newline.1 front with still | ⟨v, root', added, rfl⟩
    · exact still.next last
    · refine .inr ⟨v, root', added, ?_⟩
      cases t with
      | blank =>
        cases last
        rfl
      | newline => exact absurd rfl no_newline.2
      | _ => cases last

theorem Pending.finish? (p : Pending root key b) : b.finish? = none := by
  have inside := p.in_value
  unfold Builder.finish?
  split <;> simp_all [Place.inValue]

/-- A line may end in a list; a bare word that is no truth value does not go on with it. -/
theorem Pending.next_newline (p : Pending root key b) (h : b.next .newline = some b')
    {word : List Char} (no_true : word ≠ "true".toList) (no_false : word ≠ "false".toList) :
    b'.next (.bare word) = none := by
  have inside := p.in_value
  cases place : b.place with
  | lineStart | lineEnd | bracket | closing => simp [place, Place.inValue] at inside
  | key use parts wanted => simp [Builder.next, place] at h
  | value => simp [Builder.next, place] at h
  | firstMember => simp [Builder.next, place, beginKey] at h
  | item =>
    simp only [Builder.next, place, Builder.beginValue] at h
    split_ifs at h
    cases h
    simp only [Builder.next, place, Builder.beginValue]
    rw [if_neg no_true, if_neg no_false]
  | afterValue =>
    simp only [Builder.next, place] at h
    split_ifs at h
    cases h
    simp [Builder.next, place]

theorem foldlM_line_eq_none {word : List Char} {us : List Token} (no_newline : .newline ∉ ts)
    (no_true : word ≠ "true".toList) (no_false : word ≠ "false".toList)
    (again : ∀ root', key ∈ root'.keys →
      (Token.bare word :: us).foldlM next { root := root' } = none) :
    (ts ++ .newline :: .bare word :: us).foldlM next (waiting root key) = none := by
  rw [List.foldlM_append]
  cases front : ts.foldlM next (waiting root key) with
  | none => rfl
  | some b =>
    rcases pending_waiting.foldlM_line no_newline front with still | done
    · cases ended : b.next .newline with
      | none => simp [ended]
      | some b' => simp [ended, still.next_newline ended no_true no_false]
    · have there := done.keys.2
      obtain ⟨w, root', -, rfl⟩ := done
      exact again root' there

end Run

end Builder

theorem Entries.keys_of_addLines {es es' : Entries} {lines : List Line}
    (h : es.addLines lines = some es') : es'.keys = es.keys ++ lines.map Line.key := by
  induction lines generalizing es with
  | nil =>
    cases h
    simp
  | cons l lines ih =>
    obtain ⟨c, first, rest⟩ := Option.bind_eq_some_iff.1 h
    rw [ih rest, Entries.keys_of_insert? first]
    simp

section Document
variable {before after : List Line} {key : String} {v rest : List Char}

theorem head?_document (lines : List Line) {s : List Char} (h : s.head? ≠ some '\ufeff') :
    (document lines ++ s).head? ≠ some '\ufeff' := by
  cases lines with
  | nil => exact h
  | cons l lines =>
    rw [document, List.flatMap_cons, List.append_assoc]
    exact head?_pairLine l.bare _ _

theorem read?_document {lines : List Line} (distinct : (lines.map Line.key).Nodup) :
    read? (document lines) = some (lines.map Line.entry) := by
  obtain ⟨ts, read, built, -⟩ := exists_tokens_document lines
  have tokens : tokens? (document lines) = some ts := by
    have no_mark := head?_document lines (s := []) (by simp)
    rw [← List.append_nil (document lines), tokens?_eq_tokensFrom? no_mark,
      Lexeme.tokensFrom?_append_of_eq_some read]
    simp [tokensFrom?, Lexeme.finish?]
  rw [read?, tokens, Option.bind_eq_bind, Option.bind_some, built,
    Entries.addLines_of_nodup distinct (by simp [Entries.keys])]
  rfl

theorem read?_append_pairLine (bare : isBare key = true) :
    read? (document before ++ (pairLine key v ++ rest)) =
      (Entries.addLines [] before).bind fun root =>
        (tokensFrom? .clear (v ++ '\n' :: rest)).bind fun ts =>
          (ts.foldlM Builder.next (.waiting root key)).bind Builder.finish? := by
  obtain ⟨us, read, built, -⟩ := exists_tokens_document before
  have tokens : tokens? (document before ++ (pairLine key v ++ rest)) =
      (tokensFrom? .clear (v ++ '\n' :: rest)).map fun ts =>
        us ++ (.bare key.toList :: .blank :: .equals :: .blank :: ts) := by
    have cut : pairLine key v ++ rest = key.toList ++ " = ".toList ++ (v ++ '\n' :: rest) := by
      simp [pairLine]
    rw [tokens?_eq_tokensFrom? (head?_document before (head?_pairLine bare v rest)), cut,
      Lexeme.tokensFrom?_append_of_eq_some read,
      Lexeme.tokensFrom?_append_of_eq_some (after?_key bare), Option.map_map]
    rfl
  rw [read?, tokens]
  cases tokensFrom? .clear (v ++ '\n' :: rest) with
  | none => cases Entries.addLines [] before <;> rfl
  | some ts =>
    simp only [Option.bind_eq_bind, Option.map_some, Option.bind_some]
    rw [List.foldlM_append, built]
    cases Entries.addLines [] before with
    | none => rfl
    | some root =>
      simp only [Option.map_some, Option.bind_eq_bind, Option.bind_some]
      rw [Builder.foldlM_key]

/-- If there is a document with one more line, then the key of the line was not there before it and
is there in the end, whatever stands behind the key. -/
theorem mem_keys_of_read? (bare : isBare key = true) {es : Entries}
    (h : read? (document before ++ (pairLine key v ++ rest)) = some es) :
    key ∉ before.map Line.key ∧ key ∈ es.keys := by
  rw [read?_append_pairLine bare] at h
  obtain ⟨root, lines, h⟩ := Option.bind_eq_some_iff.1 h
  obtain ⟨ts, -, h⟩ := Option.bind_eq_some_iff.1 h
  obtain ⟨b, built, finished⟩ := Option.bind_eq_some_iff.1 h
  rcases Builder.pending_waiting.foldlM built with still | ⟨fresh, there⟩
  · rw [still.finish?] at finished
    cases finished
  · have keys := Entries.keys_of_addLines lines
    simp only [Entries.keys, List.map_nil, List.nil_append] at keys
    refine ⟨keys ▸ fresh, ?_⟩
    unfold Builder.finish? at finished
    split at finished
    · cases finished
      exact there
    · cases finished
      exact there
    · cases finished

theorem read?_eq_none_of_again (bare : isBare key = true) (line : OneLine v)
    (again : key ∈ after.map Line.key)
    (no_word : ∀ l ∈ after, l.key ≠ "true" ∧ l.key ≠ "false") :
    read? (document before ++ (pairLine key v ++ document after)) = none := by
  rw [read?_append_pairLine bare]
  refine Option.bind_eq_none_iff.2 fun root _ => ?_
  obtain ⟨ts, read, built, first⟩ := exists_tokens_document after
  obtain ⟨l, lines, rfl⟩ : ∃ l lines, after = l :: lines := by
    cases after with
    | nil => cases again
    | cons l lines => exact ⟨l, lines, rfl⟩
  obtain ⟨us, rfl⟩ := first l rfl
  rw [List.append_cons]
  cases inside : Lexeme.clear.after? (v ++ ['\n']) with
  | none => rw [Lexeme.tokensFrom?_append, inside, Option.bind_none, Option.bind_none]
  | some found =>
    obtain ⟨x, vs⟩ := found
    obtain ⟨rfl, vs, rfl, no_newline⟩ := line.exists_of_after? inside
    have tokens : tokensFrom? .clear (v ++ ['\n'] ++ document (l :: lines)) =
        some (vs ++ .newline :: .bare l.key.toList :: us) := by
      rw [Lexeme.tokensFrom?_append_of_eq_some inside, ← List.append_nil (document _),
        Lexeme.tokensFrom?_append_of_eq_some read]
      simp [tokensFrom?, Lexeme.finish?]
    obtain ⟨no_true, no_false⟩ := no_word l (List.mem_cons_self ..)
    rw [tokens, Option.bind_some, Builder.foldlM_line_eq_none no_newline
      (mt String.toList_inj.1 no_true) (mt String.toList_inj.1 no_false) fun root' there => ?_]
    · rfl
    · rw [built, Entries.addLines_of_mem there again]
      rfl

end Document

end Snapshot.Toml
