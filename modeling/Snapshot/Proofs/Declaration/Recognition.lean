import Snapshot.Proofs.Declaration.Parts

/-!
# Patterns of declarations

The pattern of each kind matches where the text begins with the shape of that kind, and takes the
same name and the same stretch of text. The run of a decorator's name has to give back its ending,
and it can do so in one way only: behind the ending there must be an edge, and no edge is inside the
run.
-/

namespace Snapshot.Kind
open Pattern Text

def standAt (x : Spot) (named rest : List Char) : Stand :=
  (x.upto rest, (({} : Groups).enter 1 (x.upto named).index).leave 1
    (x.upto (named.dropWhile nameChar.has)).index)

def fromName : Kind → Pattern
  | function => seq (group 1 nameRun) (seq blanks signature)
  | component => seq (group 1 nameRun)
      (seq blanks (seq signature (seq blanks (seq (opt (word "=>")) (seq blanks (word "\x7b"))))))
  | hook => group 1 (concat [word "use", char capital, many (char nameChar)])
  | classDef | interface => group 1 nameRun
  | decorator => seq (group 1 (concat [char capital, many (char nameChar),
        alt (word "Module") (word "Decorator")])) (edge .wordEdge)
  | importClause => choice []

theorem refuses_fromName (k : Kind) : Refuses (fun y => k.fromName.pursue y some) .blank := by
  apply refuses_pursue (by cases k <;> rfl)
  intro c hc
  have blank : isBlank c = true := hc
  cases k with
  | function | component | classDef | interface => exact nameChar_of_blank blank
  | hook => exact single_eq_false hc (by decide)
  | decorator =>
    have no_letter := nameChar_of_blank blank
    simp only [nameChar, letter, CharSet.has, Bool.or_eq_false_iff] at no_letter
    exact no_letter.1.2
  | importClause => rfl

theorem pursue_seq_qualifier {α : Type} {k : Stand → Option α} {w : String} {c : Char}
    {cs : List Char} (hw : w.toList = c :: cs) {p : Pattern} (hp : p.nullable = false)
    (blank : ∀ d, isBlank d = true → p.first.has d = false) (first : p.first.has c = false)
    (x : Stand) :
    (seq (opt (seq (word w) blanks1)) p).pursue x k =
      p.pursue (x.1.upto (skipQualifier w x.1.after), x.2) k := by
  rw [pursue_seq]
  refine pursue_qualifier hw (refuses_pursue hp blank) (refuses_pursue hp fun d hd => ?_) x
  rw [(has_single c d).1 hd]
  exact first

theorem pursue_keyword_fromName (k : Kind) (w : String) (x : Stand) :
    (seq (word w) (seq blanks1 k.fromName)).pursue x some =
      (afterKeyword? [w] x.1.after).bind fun r => k.fromName.pursue (x.1.upto r, x.2) some := by
  simp only [pursue_seq]
  exact pursue_keyword (refuses_fromName k) w x

theorem pursue_functionOrConst_fromName (k : Kind) (x : Stand) :
    (seq functionOrConst k.fromName).pursue x some =
      (afterKeyword? ["function", "const"] x.1.after).bind fun r =>
        k.fromName.pursue (x.1.upto r, x.2) some := by
  rw [pursue_seq]
  exact pursue_functionOrConst (refuses_fromName k) x

theorem first_functionOrConst {d : Char} (hd : isBlank d = true) :
    functionOrConst.first.has d = false := by
  have f := single_eq_false (s := .blank) (d := 'f') hd (by decide)
  have c := single_eq_false (s := .blank) (d := 'c') hd (by decide)
  change (CharSet.union (.single 'f') (.single 'c')).has d = false
  rw [CharSet.has, f, c]
  rfl

/-- Reading the text from its end `q` on, instead of the text of the place there. -/
theorem keyword_upto {x : Spot} {q : List Char} (hq : q <:+ x.after) (k : Kind)
    (words : List String) :
    ((afterKeyword? words (x.upto q).after).bind fun r =>
        k.fromName.pursue ((x.upto q).upto r, {}) some) =
      (afterKeyword? words q).bind fun r => k.fromName.pursue (x.upto r, {}) some := by
  rw [Spot.after_upto hq]
  exact Option.bind_congr fun r hr => by rw [Spot.upto_upto hq (suffix_of_afterKeyword? hr)]

theorem pursue_exported_functionOrConst (k : Kind) (x : Spot) :
    (seq exported (seq functionOrConst k.fromName)).pursue (x, {}) some =
      (afterKeyword? ["function", "const"] (skipQualifier "export" x.after)).bind fun r =>
        k.fromName.pursue (x.upto r, {}) some := by
  have no_e : functionOrConst.first.has 'e' = false := by decide
  rw [exported, pursue_seq_qualifier (p := seq functionOrConst k.fromName) rfl rfl
      (fun _ => first_functionOrConst) no_e,
    pursue_functionOrConst_fromName, keyword_upto (skipQualifier_suffix _ _)]

theorem pursue_exported_keyword (k : Kind) {w : String} {c : Char} {cs : List Char}
    (hw : w.toList = c :: cs) (blank : isBlank c = false) (hc : c ≠ 'e') (x : Spot) :
    (seq exported (seq (word w) (seq blanks1 k.fromName))).pursue (x, {}) some =
      (afterKeyword? [w] (skipQualifier "export" x.after)).bind fun r =>
        k.fromName.pursue (x.upto r, {}) some := by
  have first : ∀ p : Pattern, (seq (word w) p).nullable = false ∧
      (seq (word w) p).first = .single c := by
    intro p
    cases cs <;> simp [word, hw, ofList, nullable, Pattern.first]
  rw [exported, pursue_seq_qualifier rfl (first _).1 ?_ ?_, pursue_keyword_fromName,
    keyword_upto (skipQualifier_suffix _ _)]
  · intro d hd
    rw [(first _).2]
    exact single_eq_false (s := .blank) hd blank
  · rw [(first _).2]
    exact Bool.eq_false_iff.2 fun h => hc ((has_single c 'e').1 h).symm

theorem pursue_named {k : Kind} (hk : k ≠ importClause) (x : Spot) :
    k.pattern.pursue (x, {}) some =
      (k.named? x.after).bind fun named => k.fromName.pursue (x.upto named, {}) some := by
  cases k with
  | function =>
    have exported := skipQualifier_suffix "export" x.after
    have async := skipQualifier_suffix "async" (skipQualifier "export" x.after)
    have no_a : functionOrConst.first.has 'a' = false := by decide
    change (seq Kind.exported (seq (opt (seq (word "async") blanks1))
      (seq functionOrConst function.fromName))).pursue (x, {}) some = _
    rw [Kind.exported, pursue_seq_qualifier rfl rfl ?_ (by decide),
      pursue_seq_qualifier (p := seq functionOrConst function.fromName) rfl rfl
        (fun _ => first_functionOrConst) no_a,
      Spot.after_upto exported, Spot.upto_upto exported async, pursue_functionOrConst_fromName,
      keyword_upto (async.trans exported)]
    · rfl
    · intro d hd
      have a := single_eq_false (s := .blank) (d := 'a') hd (by decide)
      change (CharSet.union (CharSet.union (.single 'a') .none) functionOrConst.first).has d = false
      simp only [CharSet.has, a, first_functionOrConst hd, Bool.or_self]
  | component => exact pursue_exported_functionOrConst component x
  | hook => exact pursue_exported_functionOrConst hook x
  | classDef => exact pursue_exported_keyword classDef rfl (by decide) (by decide) x
  | interface => exact pursue_exported_keyword interface rfl (by decide) (by decide) x
  | decorator =>
    change (seq (word "export") (seq blanks1 (seq (word "function")
      (seq blanks1 decorator.fromName)))).pursue (x, {}) some = _
    have blank : Refuses (fun y => (seq (word "function") (seq blanks1 decorator.fromName)).pursue
        y some) .blank :=
      refuses_pursue rfl fun d hd => single_eq_false hd (by decide)
    have keyword := pursue_keyword blank "export" (x, {})
    simp only [pursue_seq _ _ _] at keyword ⊢
    rw [keyword, named?, Option.bind_assoc]
    apply Option.bind_congr
    intro q hq
    have inner := pursue_keyword_fromName decorator "function" (x.upto q, {})
    simp only [pursue_seq] at inner
    rw [inner, keyword_upto (suffix_of_afterKeyword? hq)]
  | importClause => exact absurd rfl hk

theorem first_behind_name {c : Char} (hc : nameChar.has c = true) :
    (seq blanks signature).first.has c = false := by
  have blank := isBlank_eq_false_of_nameChar hc
  have open_paren := single_eq_false (d := '(') hc (by decide)
  have equals := single_eq_false (d := '=') hc (by decide)
  change (CharSet.union .blank (.union (.single '(') (.union (.union .blank (.single '='))
    (.union .blank (.single '='))))).has c = false
  simp only [CharSet.has, blank, open_paren, equals, Bool.or_self]

theorem pursue_last_name (x : Stand) :
    (group 1 nameRun).pursue x some = (afterName? x.1.after).map fun r =>
      (x.1.upto r, (x.2.enter 1 x.1.index).leave 1 (x.1.upto r).index) := by
  rw [pursue_group]
  refine (pursue_run1 fun n hn no_end => by simp at no_end).trans ?_
  unfold afterName?
  split <;> rfl

theorem pursue_name_then {q : Pattern} {after : List Char → Option (List Char)}
    (refuses : Refuses (fun x => q.pursue x some) nameChar)
    (hq : ∀ x : Stand, q.pursue x some = (after x.1.after).map fun r => (x.1.upto r, x.2))
    (suffix : ∀ {s r}, after s = some r → r <:+ s) (y : Spot) :
    (seq (group 1 nameRun) q).pursue (y, {}) some =
      ((afterName? y.after).bind after).map (standAt y y.after) := by
  rw [pursue_seq, pursue_name refuses, Option.map_bind]
  apply Option.bind_congr
  intro r hr
  have name := (suffix_of_afterName? hr).1
  rw [hq, Spot.after_upto name, Function.comp_apply]
  apply Option.map_congr
  intro rest hrest
  rw [standAt, Spot.upto_after, ← eq_of_afterName? hr, Spot.upto_upto name (suffix hrest)]

theorem pursue_function (y : Spot) :
    function.fromName.pursue (y, {}) some =
      (function.afterNamed? y.after).map (standAt y y.after) := by
  refine pursue_name_then (refuses_pursue rfl fun _ => first_behind_name) (fun x => ?_)
    suffix_of_afterSignature? y
  rw [pursue_blanks_signature, Option.map_eq_bind]
  rfl

theorem pursue_component (y : Spot) :
    component.fromName.pursue (y, {}) some =
      (component.afterNamed? y.after).map (standAt y y.after) := by
  rw [afterNamed?, Option.bind_assoc]
  refine pursue_name_then (q := seq blanks (seq signature (seq blanks (seq (opt (word "=>"))
    (seq blanks (word "\x7b")))))) (refuses_pursue rfl fun _ => first_behind_name) (fun x => ?_)
    (fun h => ?_) y
  · have signed := pursue_blanks_signature (k := fun z => (seq blanks (seq (opt (word "=>"))
      (seq blanks (word "\x7b")))).pursue z some) x
    rw [pursue_seq] at signed ⊢
    simp only [pursue_seq signature _] at signed ⊢
    rw [signed, Option.map_bind]
    apply Option.bind_congr
    intro r hr
    have suffix := suffix_of_afterSignature? hr
    rw [pursue_brace, Spot.after_upto suffix, Function.comp_apply, Option.map_eq_bind]
    apply Option.bind_congr
    intro rest hrest
    rw [Function.comp_apply, Spot.upto_upto suffix (suffix_of_afterBrace? hrest)]
  · obtain ⟨r, hr, hrest⟩ := Option.bind_eq_some_iff.1 h
    exact (suffix_of_afterBrace? hrest).trans (suffix_of_afterSignature? hr)

theorem pursue_plain_name (y : Spot) :
    (group 1 nameRun).pursue (y, {}) some = (afterName? y.after).map (standAt y y.after) := by
  rw [pursue_last_name]
  apply Option.map_congr
  intro r hr
  rw [standAt, Spot.upto_after, ← eq_of_afterName? hr]

theorem isUpper_eq (c : Char) : c.isUpper = capital.has c := Bool.decide_and _ _

theorem nameChar_of_capital {c : Char} (h : capital.has c = true) : nameChar.has c = true := by
  have letter : letter.has c = true := Bool.or_eq_true_iff.2 (.inr h)
  exact Bool.or_eq_true_iff.2 (.inl letter)

theorem startsLikeHook_iff (s : List Char) :
    startsLikeHook s = true ↔
      ∃ c rest, s = 'u' :: 's' :: 'e' :: c :: rest ∧ capital.has c = true := by
  constructor
  · intro h
    unfold startsLikeHook at h
    split at h
    · rename_i c rest
      exact ⟨c, rest, rfl, isUpper_eq c ▸ h⟩
    · simp at h
  · rintro ⟨c, rest, rfl, hc⟩
    exact (isUpper_eq c).trans hc

theorem pursue_hook (y : Spot) :
    hook.fromName.pursue (y, {}) some = (hook.afterNamed? y.after).map (standAt y y.after) := by
  change (group 1 (seq (word "use") (seq (char capital) (star true (char nameChar))))).pursue
    (y, {}) some = _
  rw [pursue_group, pursue_seq, pursue_word, afterNamed?]
  by_cases like : startsLikeHook y.after = true
  · obtain ⟨c, rest, hy, hc⟩ := (startsLikeHook_iff y.after).1 like
    have name : afterName? y.after = some (rest.dropWhile nameChar.has) := by
      have run : (y.after).dropWhile nameChar.has = rest.dropWhile nameChar.has := by
        rw [hy]
        simp [nameChar_of_capital hc, show nameChar.has 'u' = true by decide,
          show nameChar.has 's' = true by decide, show nameChar.has 'e' = true by decide]
      rw [← run, afterName?, if_pos]
      simp [hy, show nameChar.has 'u' = true by decide]
    have used : after? "use" y.after = some (c :: rest) := after?_eq_some_iff.2 hy
    have suffix := suffix_of_after? used
    rw [if_pos like, name, used, Option.bind_some, pursue_seq, pursue_char, Spot.after_upto suffix,
      List.head?_cons, Option.any_some, if_pos hc, pursue_run fun n hn no_end => by simp at no_end]
    have one : (y.upto (c :: rest)).next = y.upto rest := by
      rw [Spot.next_eq_upto (Spot.after_upto suffix),
        Spot.upto_upto suffix (List.suffix_cons c rest)]
    have inner := (List.suffix_cons c rest).trans suffix
    rw [one, Spot.after_upto inner, Spot.upto_upto inner (List.dropWhile_suffix _), Option.map_some,
      standAt, Spot.upto_after, ← eq_of_afterName? name]
  · rw [if_neg like, Option.map_none]
    cases used : after? "use" y.after with
    | none => rfl
    | some r =>
      rw [Option.bind_some, pursue_seq, pursue_char, Spot.after_upto (suffix_of_after? used)]
      cases r with
      | nil => rfl
      | cons c rest =>
        refine if_neg fun hc => like ?_
        exact (startsLikeHook_iff y.after).2 ⟨c, rest, after?_eq_some_iff.1 used, by simpa using hc⟩

def ending (x : Stand) : Option Stand :=
  (alt (word "Module") (word "Decorator")).pursue x fun y =>
    (edge .wordEdge).pursue (y.1, y.2.leave 1 y.1.index) some

theorem wordEdge_behind {x : Spot} {w rest : List Char} {c : Char} (hc : nameChar.has c = true)
    (hx : x.after = w ++ c :: rest) :
    Edge.wordEdge.holds (x.upto rest).before (x.upto rest).after =
      !rest.head?.any isWord := by
  have inner : rest <:+ x.after :=
    hx ▸ (List.suffix_cons c rest).trans (List.suffix_append w _)
  simp [Edge.holds, Edge.inWord, Spot.before_upto hx, Spot.after_upto inner, isWord_of_nameChar hc]

theorem pursue_ending {w : String} {c : Char} (hw : w.toList.getLast? = some c)
    (hc : nameChar.has c = true) (x : Stand) :
    ((word w).pursue x fun y => (edge .wordEdge).pursue (y.1, y.2.leave 1 y.1.index) some) =
      ((after? w x.1.after).filter fun r => !r.head?.any isWord).map fun r =>
        (x.1.upto r, x.2.leave 1 (x.1.upto r).index) := by
  rw [pursue_word]
  cases hr : after? w x.1.after with
  | none => rfl
  | some r =>
    obtain ⟨init, hw⟩ := List.getLast?_eq_some_iff.1 hw
    have hx : x.1.after = init ++ c :: r := by
      rw [after?_eq_some_iff.1 hr, hw, List.append_assoc, List.singleton_append]
    rw [Option.bind_some, pursue_edge, wordEdge_behind hc hx, Option.filter_some]
    cases r.head?.any isWord <;> rfl

def endings : List String := ["Module", "Decorator"]

def afterEnding? (s : List Char) : Option (List Char) :=
  endings.findSome? fun w => (after? w s).filter fun r => !r.head?.any isWord

theorem ending_eq (x : Stand) :
    ending x = (afterEnding? x.1.after).map fun r =>
      (x.1.upto r, x.2.leave 1 (x.1.upto r).index) := by
  have e : nameChar.has 'e' = true ∧ nameChar.has 'r' = true := by decide
  rw [ending, pursue_alt, pursue_ending (w := "Module") (c := 'e') rfl e.1,
    pursue_ending (w := "Decorator") (c := 'r') rfl e.2, afterEnding?, endings]
  simp only [List.findSome?_cons, List.findSome?_nil]
  cases (after? "Module" x.1.after).filter fun r => !r.head?.any isWord with
  | some r => rfl
  | none =>
    cases (after? "Decorator" x.1.after).filter fun r => !r.head?.any isWord <;> rfl

theorem nameChar_of_mem_ending {w : String} (hw : w ∈ endings) {c : Char} (hc : c ∈ w.toList) :
    nameChar.has c = true := by
  have all : ∀ w ∈ endings, w.toList.all nameChar.has = true := by decide
  exact List.all_eq_true.1 (all w hw) c hc

theorem run_of_afterEnding? {t r : List Char} {n : Nat}
    (hn : n ≤ (t.takeWhile nameChar.has).length) (h : afterEnding? (t.drop n) = some r) :
    r = t.dropWhile nameChar.has ∧ r.head?.any isWord = false ∧
      ∃ w ∈ endings, w.toList <:+ t.takeWhile nameChar.has := by
  obtain ⟨w, hw, h⟩ := List.exists_of_findSome?_eq_some h
  obtain ⟨hr, edge⟩ := Option.filter_eq_some_iff.1 h
  have edge : r.head?.any isWord = false := by simpa using edge
  have no_name : r.head?.any nameChar.has = false := by
    cases r with
    | nil => rfl
    | cons c r =>
      apply Bool.eq_false_iff.2
      intro hc
      have hc : nameChar.has c = true := by simpa using hc
      simp [isWord_of_nameChar hc] at edge
  have pre : ∀ c ∈ t.take n ++ w.toList, nameChar.has c = true := by
    intro c hc
    rcases List.mem_append.1 hc with hc | hc
    · have inside : t.take n <+: t.takeWhile nameChar.has :=
        List.prefix_of_prefix_length_le (List.take_prefix n t) (List.takeWhile_prefix _)
          ((List.length_take_le n t).trans hn)
      exact List.mem_takeWhile_imp (inside.subset hc)
    · exact nameChar_of_mem_ending hw hc
  have parts : t = (t.take n ++ w.toList) ++ r := by
    rw [List.append_assoc, ← after?_eq_some_iff.1 hr, List.take_append_drop]
  refine ⟨?_, edge, w, hw, ?_⟩
  · rw [parts, List.dropWhile_append_of_pos pre, dropWhile_eq_self no_name]
  · have stops : r.takeWhile nameChar.has = [] := by
      cases r with
      | nil => rfl
      | cons c r => exact List.takeWhile_cons_of_neg (by simpa using no_name)
    rw [parts, List.takeWhile_append_of_pos pre, stops, List.append_nil]
    exact List.suffix_append _ _

theorem exists_afterEnding? {t : List Char} {w : String} (hw : w ∈ endings)
    (suffix : w.toList <:+ t.takeWhile nameChar.has)
    (edge : (t.dropWhile nameChar.has).head?.any isWord = false) :
    ∃ n ≤ (t.takeWhile nameChar.has).length, afterEnding? (t.drop n) ≠ none := by
  obtain ⟨pre, hpre⟩ := suffix
  refine ⟨pre.length, ?_, ?_⟩
  · rw [← hpre, List.length_append]
    exact Nat.le_add_right _ _
  · have parts : t = pre ++ (w.toList ++ t.dropWhile nameChar.has) := by
      rw [← List.append_assoc, hpre, List.takeWhile_append_dropWhile]
    have behind : after? w (t.drop pre.length) = some (t.dropWhile nameChar.has) := by
      refine after?_eq_some_iff.2 ?_
      conv_lhs => rw [parts, List.drop_left]
    refine fun none_found => ?_
    have missed := List.findSome?_eq_none_iff.1 none_found w hw
    simp [behind, edge] at missed

/-- A run and an ending: the ending is that of the run, and nothing goes on behind it. -/
theorem pursue_run_ending (x : Stand) :
    (star true (char nameChar)).pursue x ending =
      if endings.any (·.toList.isSuffixOf (x.1.after.takeWhile nameChar.has)) &&
          !(x.1.after.dropWhile nameChar.has).head?.any isWord then
        some (x.1.upto (x.1.after.dropWhile nameChar.has),
          x.2.leave 1 (x.1.upto (x.1.after.dropWhile nameChar.has)).index)
      else none := by
  rw [pursue_star_char]
  simp only [if_true]
  -- Every way to end is the same way, so it is enough to know whether there is one.
  have at_stop : ∀ n ≤ (x.1.after.takeWhile nameChar.has).length,
      ending (x.1.skip n, x.2) = (afterEnding? (x.1.after.drop n)).map fun r =>
        (x.1.upto r, x.2.leave 1 (x.1.upto r).index) := by
    intro n hn
    have le : n ≤ x.1.after.length := hn.trans (List.takeWhile_prefix _).length_le
    rw [ending_eq, Spot.after_skip]
    apply Option.map_congr
    intro r hr
    obtain ⟨w, -, hw⟩ := List.exists_of_findSome?_eq_some hr
    have suffix := suffix_of_after? (Option.filter_eq_some_iff.1 hw).1
    rw [Spot.skip_eq_upto le, Spot.upto_upto (List.drop_suffix _ _) suffix]
  split
  · rename_i good
    simp only [Bool.and_eq_true, List.any_eq_true, List.isSuffixOf_iff_suffix,
      Bool.not_eq_true'] at good
    obtain ⟨⟨w, hw, suffix⟩, edge⟩ := good
    obtain ⟨n, hn, found⟩ := exists_afterEnding? hw suffix edge
    cases hz : (List.range ((x.1.after.takeWhile nameChar.has).length + 1)).reverse.findSome?
        fun n => ending (x.1.skip n, x.2) with
    | none =>
      have missed := List.findSome?_eq_none_iff.1 hz n
        (List.mem_reverse.2 (List.mem_range.2 (Nat.lt_succ_of_le hn)))
      rw [at_stop n hn] at missed
      exact absurd (Option.map_eq_none_iff.1 missed) found
    | some z =>
      obtain ⟨m, hm, hz⟩ := List.exists_of_findSome?_eq_some hz
      have hm := Nat.le_of_lt_succ (List.mem_range.1 (List.mem_reverse.1 hm))
      rw [at_stop m hm] at hz
      obtain ⟨r, hr, rfl⟩ := Option.map_eq_some_iff.1 hz
      obtain ⟨rfl, -, -⟩ := run_of_afterEnding? hm hr
      rfl
  · rename_i bad
    refine List.findSome?_eq_none_iff.2 fun n hn => ?_
    have hn := Nat.le_of_lt_succ (List.mem_range.1 (List.mem_reverse.1 hn))
    rw [at_stop n hn, Option.map_eq_none_iff]
    cases hr : afterEnding? (x.1.after.drop n) with
    | none => rfl
    | some r =>
      refine absurd ?_ bad
      obtain ⟨rfl, edge, w, hw, suffix⟩ := run_of_afterEnding? hn hr
      simp only [Bool.and_eq_true, List.any_eq_true, List.isSuffixOf_iff_suffix,
        Bool.not_eq_true']
      exact ⟨⟨w, hw, suffix⟩, edge⟩

theorem endsLikeDecorator_cons (c : Char) (run : List Char) :
    endsLikeDecorator (c :: run) = endings.any (·.toList.isSuffixOf run) := by
  rw [Bool.eq_iff_iff]
  simp only [endsLikeDecorator, endings, List.any_eq_true, Bool.and_eq_true,
    List.isSuffixOf_iff_suffix, decide_eq_true_eq, List.length_cons]
  refine exists_congr fun w => and_congr_right fun _ =>
    ⟨fun ⟨suffix, shorter⟩ => ?_, fun suffix => ?_⟩
  · rcases List.suffix_cons_iff.1 suffix with h | h
    · rw [h, List.length_cons] at shorter
      exact absurd shorter (Nat.lt_irrefl _)
    · exact h
  · exact ⟨suffix.trans (List.suffix_cons c run), Nat.lt_succ_of_le suffix.length_le⟩

theorem pursue_decorator (y : Spot) :
    decorator.fromName.pursue (y, {}) some =
      (decorator.afterNamed? y.after).map (standAt y y.after) := by
  change (seq (group 1 (seq (char capital) (seq (star true (char nameChar))
    (alt (word "Module") (word "Decorator"))))) (edge .wordEdge)).pursue (y, {}) some = _
  rw [pursue_seq, pursue_group, pursue_seq, pursue_char, afterNamed?]
  cases hy : y.after with
  | nil => rfl
  | cons c t =>
    by_cases hc : capital.has c = true
    · have name : nameChar.has c = true := nameChar_of_capital hc
      have suffix : t <:+ y.after := hy ▸ List.suffix_cons c t
      have inner : t.dropWhile nameChar.has <:+ t := List.dropWhile_suffix _
      have run := pursue_run_ending (y.upto t, ({} : Groups).enter 1 y.index)
      rw [List.head?_cons, Option.any_some, if_pos hc, pursue_seq, Spot.next_eq_upto hy]
      apply run.trans
      rw [Spot.after_upto suffix, Spot.upto_upto suffix inner, List.takeWhile_cons_of_pos name,
        List.dropWhile_cons_of_pos name, endsLikeDecorator_cons, hc, Bool.true_and]
      split
      · have named : afterName? (c :: t) = some (t.dropWhile nameChar.has) := by
          simp [afterName?, name]
        rw [named, Option.map_some, standAt, List.dropWhile_cons_of_pos name, ← hy,
          Spot.upto_after]
      · rfl
    · simp [hc]

theorem pursue_fromName (k : Kind) (y : Spot) :
    k.fromName.pursue (y, {}) some = (k.afterNamed? y.after).map (standAt y y.after) := by
  cases k with
  | function => exact pursue_function y
  | component => exact pursue_component y
  | hook => exact pursue_hook y
  | classDef | interface => exact pursue_plain_name y
  | decorator => exact pursue_decorator y
  | importClause =>
    apply pursue_eq_none
    obtain ⟨before, _ | ⟨c, t⟩, index⟩ := y <;> rfl

/-- The pattern of a kind matches where the text begins with a declaration, and it takes the whole
declaration and its name. -/
theorem matchAt_pattern {k : Kind} (hk : k ≠ importClause) (x : Spot) :
    k.pattern.matchAt x = (k.shape? x.after).map fun shape =>
      Match.ofStand x.index (standAt x shape.1 shape.2) := by
  have steady : k.pattern.steady = true := by cases k <;> rfl
  rw [matchAt_eq_pursue steady, pursue_named hk, shape?, Option.map_bind, Option.map_bind]
  apply Option.bind_congr
  intro named hn
  have suffix := suffix_of_named? hn
  rw [Function.comp_apply, Function.comp_apply, pursue_fromName, Spot.after_upto suffix,
    Option.map_map, Option.map_map]
  apply Option.map_congr
  intro rest hr
  obtain ⟨inner, -⟩ := suffix_of_afterNamed? hr
  have name : named.dropWhile nameChar.has <:+ named := List.dropWhile_suffix _
  simp only [Function.comp_apply, standAt, Spot.upto_upto suffix (inner.trans name),
    Spot.upto_upto suffix name, Spot.upto_upto suffix List.suffix_rfl]

end Snapshot.Kind
