import Mathlib.Data.List.TakeWhile
import Snapshot.Proofs.Declaration.Shape
import Snapshot.Proofs.Pattern.Runs

/-!
# Parts of the patterns of declarations

What comes of keywords, names, parameters and braces, in terms of the text behind them. Each part is
followed by something that it could not have taken itself, so a shorter run never lets the rest of
a pattern go on.
-/

namespace Snapshot.Kind
open Pattern Text

theorem covers_eq_false {runs : List Run} {c : Char}
    (h : ∀ r ∈ runs, c.toNat < r.first ∨ r.last < c.toNat) : covers runs c = false := by
  apply List.any_eq_false.2
  intro r hr
  rcases h r hr with lt | lt
  · simp [Run.has, Nat.not_le.2 lt]
  · simp [Run.has, Nat.not_le.2 lt]

theorem covers_of_mem {runs : List Run} {r : Run} (hr : r ∈ runs) (one : r.step = 1) {c : Char}
    (lo : r.first ≤ c.toNat) (hi : c.toNat ≤ r.last) : covers runs c = true :=
  List.any_eq_true.2 ⟨r, hr, by simp [Run.has, lo, hi, one, Nat.mod_one]⟩

theorem nameChar_iff (c : Char) : nameChar.has c = true ↔
    'a' ≤ c ∧ c ≤ 'z' ∨ 'A' ≤ c ∧ c ≤ 'Z' ∨ '0' ≤ c ∧ c ≤ '9' ∨ c = '_' := by
  simp only [nameChar, letter, CharSet.has, has_single, Bool.or_eq_true, Bool.and_eq_true,
    decide_eq_true_eq, or_assoc]

theorem toNat_of_nameChar {c : Char} (h : nameChar.has c = true) :
    48 ≤ c.toNat ∧ c.toNat ≤ 122 := by
  rcases (nameChar_iff c).1 h with ⟨lo, hi⟩ | ⟨lo, hi⟩ | ⟨lo, hi⟩ | rfl
  · have lo : 97 ≤ c.toNat := lo
    exact ⟨by omega, hi⟩
  · have lo : 65 ≤ c.toNat := lo
    have hi : c.toNat ≤ 90 := hi
    omega
  · have hi : c.toNat ≤ 57 := hi
    exact ⟨lo, by omega⟩
  · decide

theorem isBlank_eq_false_of_nameChar {c : Char} (h : nameChar.has c = true) :
    isBlank c = false := by
  have bounds := toNat_of_nameChar h
  apply covers_eq_false
  intro r hr
  have apart : ∀ r ∈ blankRuns, r.last < 48 ∨ 122 < r.first := by decide
  rcases apart r hr with h | h
  · exact .inr (by omega)
  · exact .inl (by omega)

theorem nameChar_of_blank {c : Char} (h : isBlank c = true) : nameChar.has c = false := by
  cases hc : nameChar.has c with
  | false => rfl
  | true => simp [isBlank_eq_false_of_nameChar hc] at h

theorem isWord_of_nameChar {c : Char} (h : nameChar.has c = true) : isWord c = true := by
  rcases (nameChar_iff c).1 h with h | h | h | rfl
  · exact covers_of_mem (r := ⟨0x61, 0x7A, 1⟩) (by decide) rfl h.1 h.2
  · exact covers_of_mem (r := ⟨0x41, 0x5A, 1⟩) (by decide) rfl h.1 h.2
  · exact covers_of_mem (r := ⟨0x30, 0x39, 1⟩) (by decide) rfl h.1 h.2
  · exact covers_of_mem (r := ⟨0x5F, 0x5F, 1⟩) (by decide) rfl (by decide) (by decide)

theorem isUppercase_eq {c : Char} (h : nameChar.has c = true) : isUppercase c = capital.has c := by
  have bounds := toNat_of_nameChar h
  cases hc : capital.has c with
  | true =>
    obtain ⟨lo, hi⟩ : 'A' ≤ c ∧ c ≤ 'Z' := by simpa [capital, CharSet.has] using hc
    exact covers_of_mem (r := ⟨0x41, 0x5A, 1⟩) (by decide) rfl lo hi
  | false =>
    have outside : ¬ (65 ≤ c.toNat ∧ c.toNat ≤ 90) := by
      rintro ⟨lo, hi⟩
      have inside : capital.has c = true := Bool.and_eq_true_iff.2
        ⟨decide_eq_true (show 'A' ≤ c from lo), decide_eq_true (show c ≤ 'Z' from hi)⟩
      simp [hc] at inside
    have apart : ∀ r ∈ uppercaseRuns, r = ⟨0x41, 0x5A, 1⟩ ∨ 122 < r.first := by
      decide +kernel
    apply covers_eq_false
    intro r hr
    rcases apart r hr with rfl | later
    · change c.toNat < 65 ∨ 90 < c.toNat
      omega
    · exact .inl (by omega)

theorem single_eq_false {s : CharSet} {c d : Char} (hc : s.has c = true) (hd : s.has d = false) :
    (CharSet.single d).has c = false := by
  cases h : (CharSet.single d).has c with
  | false => rfl
  | true =>
    obtain rfl := (has_single d c).1 h
    simp [hc] at hd

section Parts
variable {α : Type} {k : Stand → Option α}

theorem pursue_qualifier {w : String} {c : Char} {cs : List Char} (hw : w.toList = c :: cs)
    (blank : Refuses k .blank) (first : Refuses k (.single c)) (x : Stand) :
    (opt (seq (word w) blanks1)).pursue x k =
      k (x.1.upto (skipQualifier w x.1.after), x.2) := by
  change (alt (seq (word w) blanks1) empty).pursue x k = _
  rw [pursue_alt, pursue_empty, pursue_seq, pursue_word]
  cases hr : after? w x.1.after with
  | none => simp [skipQualifier, hr, Spot.upto_after]
  | some r =>
    have suffix := suffix_of_after? hr
    rw [Option.bind_some, pursue_blanks1 blank, Spot.after_upto suffix]
    cases hr' : afterBlanks? r with
    | none => simp [skipQualifier, hr, hr', Spot.upto_after]
    | some r' =>
      have whole : k x = none := by
        apply first x
        rw [after?_eq_some_iff.1 hr, hw, List.cons_append, List.head?_cons]
        exact (has_single c c).2 rfl
      rw [whole, Option.or_none, Option.bind_some,
        Spot.upto_upto suffix (suffix_of_afterBlanks? hr')]
      simp [skipQualifier, hr, hr']

theorem pursue_keyword (blank : Refuses k .blank) (w : String) (x : Stand) :
    (word w).pursue x (fun y => blanks1.pursue y k) =
      (afterKeyword? [w] x.1.after).bind fun r => k (x.1.upto r, x.2) := by
  rw [pursue_word, afterKeyword?, List.findSome?_singleton]
  cases hr : after? w x.1.after with
  | none => rfl
  | some r =>
    have suffix := suffix_of_after? hr
    rw [Option.bind_some, Option.bind_some, pursue_blanks1 blank, Spot.after_upto suffix]
    apply Option.bind_congr
    intro r' hr'
    rw [Spot.upto_upto suffix (suffix_of_afterBlanks? hr')]

theorem after?_const_of_function {s r : List Char} (h : after? "function" s = some r) :
    after? "const" s = none := by
  rw [after?_eq_some_iff.1 h]
  rfl

theorem pursue_functionOrConst (blank : Refuses k .blank) (x : Stand) :
    functionOrConst.pursue x k =
      (afterKeyword? ["function", "const"] x.1.after).bind fun r => k (x.1.upto r, x.2) := by
  rw [functionOrConst, pursue_seq, pursue_alt, pursue_keyword blank, pursue_keyword blank]
  simp only [afterKeyword?, List.findSome?_cons, List.findSome?_nil]
  cases hr : after? "function" x.1.after with
  | none => rfl
  | some r =>
    rw [after?_const_of_function hr]
    simp

theorem pursue_name (hk : Refuses k nameChar) (x : Stand) :
    (group 1 nameRun).pursue x k = (afterName? x.1.after).bind fun r =>
      k (x.1.upto r, (x.2.enter 1 x.1.index).leave 1 (x.1.upto r).index) := by
  have hk' : Refuses (fun y : Stand => k (y.1, y.2.leave 1 y.1.index)) nameChar :=
    fun y hy => hk _ hy
  rw [pursue_group]
  refine (pursue_run1_of_refuses hk' _).trans ?_
  unfold afterName?
  split <;> rfl

theorem bind_or_bind {β : Type} {a b : Option β} (f : β → Option α)
    (h : ∀ r, a = some r → b = none) : (a.bind f).or (b.bind f) = (a.or b).bind f := by
  cases a with
  | none => rfl
  | some r => simp [h r rfl]

theorem has_compl_single (d : Char) : (CharSet.compl (.single d)).has = (· != d) := by
  funext c
  rw [CharSet.has, has_single_eq]
  rfl

theorem pursue_parameters (x : Stand) :
    parameters.pursue x k = (afterParameters? x.1.after).bind fun r => k (x.1.upto r, x.2) := by
  change (seq (word "(") (seq (star true (char (.compl (.single ')')))) (word ")"))).pursue x k = _
  have stop : Refuses (fun y => (word ")").pursue y k) (.compl (.single ')')) := by
    apply refuses_pursue rfl
    intro c hc
    have first : (word ")").first = .single ')' := rfl
    simpa [first, CharSet.has] using hc
  rw [pursue_seq, pursue_word, afterParameters?]
  cases hr : after? "(" x.1.after with
  | none => rfl
  | some r =>
    have suffix := suffix_of_after? hr
    have inner : r.dropWhile (· != ')') <:+ r := List.dropWhile_suffix _
    rw [Option.bind_some, Option.bind_some, pursue_seq, pursue_run_of_refuses stop,
      has_compl_single,
      Spot.after_upto suffix, Spot.upto_upto suffix inner, pursue_word,
      Spot.after_upto (inner.trans suffix)]
    apply Option.bind_congr
    intro r' hr'
    rw [Spot.upto_upto (inner.trans suffix) (suffix_of_after? hr')]

theorem pursue_equals (blank : Refuses k .blank) (x : Stand) :
    equals.pursue x k = (after? "=" (trimStart x.1.after)).bind fun r =>
      k (x.1.upto (trimStart r), x.2) := by
  change (seq blanks (seq (word "=") blanks)).pursue x k = _
  have stop : Refuses (fun y => (seq (word "=") blanks).pursue y k) .blank :=
    refuses_pursue rfl fun c hc => single_eq_false hc (by decide)
  have suffix := trimStart_suffix x.1.after
  rw [pursue_seq, pursue_blanks stop, pursue_seq, pursue_word, Spot.after_upto suffix]
  apply Option.bind_congr
  intro r hr
  have hr := suffix_of_after? hr
  rw [pursue_blanks blank, Spot.upto_upto suffix hr, Spot.after_upto (hr.trans suffix),
    Spot.upto_upto (hr.trans suffix) (trimStart_suffix r)]

theorem pursue_arrow (x : Stand) :
    (seq nameRun (seq blanks (word "=>"))).pursue x k =
      (afterArrow? x.1.after).bind fun r => k (x.1.upto r, x.2) := by
  have behind_blanks : Refuses (fun y => (word "=>").pursue y k) .blank :=
    refuses_pursue rfl fun c hc => single_eq_false hc (by decide)
  have behind_name : Refuses (fun y => (seq blanks (word "=>")).pursue y k) nameChar := by
    apply refuses_pursue rfl
    intro c hc
    have first : (seq blanks (word "=>")).first = .union .blank (.single '=') := rfl
    rw [first, CharSet.has, single_eq_false hc (by decide), Bool.or_false]
    exact isBlank_eq_false_of_nameChar hc
  rw [pursue_seq]
  refine (pursue_run1_of_refuses behind_name x).trans ?_
  unfold afterArrow? afterName?
  split
  · have suffix : x.1.after.dropWhile nameChar.has <:+ x.1.after := List.dropWhile_suffix _
    have trimmed := trimStart_suffix (x.1.after.dropWhile nameChar.has)
    rw [Option.bind_some, pursue_seq, pursue_blanks behind_blanks, Spot.after_upto suffix,
      Spot.upto_upto suffix trimmed, pursue_word, Spot.after_upto (trimmed.trans suffix)]
    apply Option.bind_congr
    intro r hr
    rw [Spot.upto_upto (trimmed.trans suffix) (suffix_of_after? hr)]
  · rfl

theorem head?_of_afterParameters? {s r : List Char} (h : afterParameters? s = some r) :
    s.head? = some '(' := by
  obtain ⟨mid, h, -⟩ := Option.bind_eq_some_iff.1 h
  rw [after?_eq_some_iff.1 h]
  rfl

theorem afterArrow?_of_afterParameters? {s r : List Char} (h : afterParameters? s = some r) :
    afterArrow? s = none := by
  have no_name : nameChar.has '(' = false := by decide
  simp [afterArrow?, afterName?, head?_of_afterParameters? h, no_name]

theorem afterParameters?_of_head? {s : List Char} (h : s.head? ≠ some '(') :
    afterParameters? s = none := by
  cases hp : afterParameters? s with
  | none => rfl
  | some r => exact absurd (head?_of_afterParameters? hp) h

def afterValue? (s : List Char) : Option (List Char) :=
  (after? "=" s).bind fun s => (afterParameters? (trimStart s)).or (afterArrow? (trimStart s))

theorem suffix_of_afterValue? {s rest : List Char} (h : afterValue? s = some rest) :
    rest <:+ s := by
  obtain ⟨r, hr, h⟩ := Option.bind_eq_some_iff.1 h
  refine List.IsSuffix.trans ?_ ((trimStart_suffix r).trans (suffix_of_after? hr))
  rcases Option.or_eq_some_iff.1 h with h | ⟨-, h⟩
  · exact suffix_of_afterParameters? h
  · exact suffix_of_afterArrow? h

theorem afterValue?_of_afterParameters? {s r : List Char} (h : afterParameters? s = some r) :
    afterValue? s = none := by
  cases hr : after? "=" s with
  | none => rw [afterValue?, hr, Option.bind_none]
  | some r =>
    rw [after?_eq_some_iff.1 hr] at h
    have first := head?_of_afterParameters? h
    simp at first

theorem afterSignature?_eq (s : List Char) :
    afterSignature? s = (afterParameters? (trimStart s)).or (afterValue? (trimStart s)) := by
  unfold afterSignature? afterValue?
  cases hr : after? "=" (trimStart s) with
  | none => simp
  | some r =>
    have no_parameters : afterParameters? (trimStart s) = none := by
      refine afterParameters?_of_head? ?_
      rw [after?_eq_some_iff.1 hr]
      simp
    rw [no_parameters, Option.none_or, Option.bind_some]
    by_cases h : (trimStart r).head? = some '('
    · cases hp : afterParameters? (trimStart r) with
      | some r' => simp [h, hp]
      | none =>
        have no_name : nameChar.has '(' = false := by decide
        simp [h, hp, afterArrow?, afterName?, no_name]
    · simp [h, afterParameters?_of_head? h]

theorem pursue_signature (x : Stand) :
    signature.pursue x k =
      ((afterParameters? x.1.after).bind fun r => k (x.1.upto r, x.2)).or
        ((afterValue? (trimStart x.1.after)).bind fun r => k (x.1.upto r, x.2)) := by
  change (alt parameters (alt (seq equals parameters)
    (seq equals (seq nameRun (seq blanks (word "=>")))))).pursue x k = _
  have before_parameters : Refuses (fun y => parameters.pursue y k) .blank :=
    refuses_pursue rfl fun c hc => single_eq_false hc (by decide)
  have before_arrow :
      Refuses (fun y => (seq nameRun (seq blanks (word "=>"))).pursue y k) .blank :=
    refuses_pursue rfl fun c hc => nameChar_of_blank hc
  rw [pursue_alt, pursue_alt, pursue_seq, pursue_seq, pursue_parameters,
    pursue_equals before_parameters, pursue_equals before_arrow, afterValue?]
  congr 1
  cases hr : after? "=" (trimStart x.1.after) with
  | none => rfl
  | some r =>
    have suffix : trimStart r <:+ x.1.after :=
      (trimStart_suffix r).trans ((suffix_of_after? hr).trans (trimStart_suffix _))
    simp only [Option.bind_some, pursue_parameters, pursue_arrow, Spot.after_upto suffix]
    rw [bind_or_bind _ fun _ => afterArrow?_of_afterParameters?]
    apply Option.bind_congr
    intro r' hr'
    rw [Spot.upto_upto suffix]
    rcases Option.or_eq_some_iff.1 hr' with h | ⟨-, h⟩
    · exact suffix_of_afterParameters? h
    · exact suffix_of_afterArrow? h

theorem trimStart_drop {s : List Char} {n : Nat} (h : n ≤ (s.takeWhile isBlank).length) :
    trimStart (s.drop n) = trimStart s := by
  induction s generalizing n with
  | nil => simp
  | cons c s ih =>
    cases n with
    | zero => rfl
    | succ n =>
      cases hc : isBlank c with
      | false => simp [hc] at h
      | true =>
        rw [List.takeWhile_cons_of_pos hc, List.length_cons] at h
        rw [List.drop_succ_cons, ih (Nat.le_of_succ_le_succ h)]
        exact (List.dropWhile_cons_of_pos hc).symm

/-- Where a signature cannot be read behind all blanks, it cannot behind some of them. -/
theorem pursue_blanks_signature (x : Stand) :
    (seq blanks signature).pursue x k =
      (afterSignature? x.1.after).bind fun r => k (x.1.upto r, x.2) := by
  have trimmed := trimStart_suffix x.1.after
  have at_end : signature.pursue (x.1.upto (trimStart x.1.after), x.2) k =
      (afterSignature? x.1.after).bind fun r => k (x.1.upto r, x.2) := by
    rw [pursue_signature, Spot.after_upto trimmed,
      trimStart_eq_self (head?_trimStart x.1.after), bind_or_bind, ← afterSignature?_eq]
    · apply Option.bind_congr
      intro r hr
      rw [Spot.upto_upto trimmed]
      rw [afterSignature?_eq] at hr
      rcases Option.or_eq_some_iff.1 hr with h | ⟨-, h⟩
      · exact suffix_of_afterParameters? h
      · exact suffix_of_afterValue? h
    · exact fun r hr => afterValue?_of_afterParameters? hr
  rw [pursue_seq, ← at_end]
  apply pursue_run
  intro n hn none_at_end
  rw [has_blank] at hn none_at_end
  have none_at_end := at_end.symm.trans none_at_end
  have le : n ≤ x.1.after.length := hn.le.trans (List.takeWhile_prefix _).length_le
  have blank : (x.1.after.drop n).head?.any isBlank = true := head?_drop_any hn
  have no_parameters : afterParameters? (x.1.after.drop n) = none := by
    refine afterParameters?_of_head? fun h => ?_
    rw [h] at blank
    revert blank
    decide
  rw [pursue_signature, Spot.after_skip, no_parameters, Option.bind_none, Option.none_or,
    trimStart_drop hn.le]
  cases hv : afterValue? (trimStart x.1.after) with
  | none => rfl
  | some r =>
    have no_parameters : afterParameters? (trimStart x.1.after) = none := by
      cases hp : afterParameters? (trimStart x.1.after) with
      | none => rfl
      | some r' => simp [afterValue?_of_afterParameters? hp] at hv
    have suffix : r <:+ x.1.after.drop n := by
      rw [← trimStart_drop hn.le] at hv
      exact (suffix_of_afterValue? hv).trans (trimStart_suffix _)
    rw [afterSignature?_eq, no_parameters, Option.none_or, hv, Option.bind_some] at none_at_end
    rw [Option.bind_some, Spot.skip_eq_upto le, Spot.upto_upto (List.drop_suffix _ _) suffix,
      none_at_end]

theorem pursue_blanks_brace (x : Stand) :
    (seq blanks (word "\x7b")).pursue x k =
      (after? "\x7b" (trimStart x.1.after)).bind fun r => k (x.1.upto r, x.2) := by
  have stop : Refuses (fun y => (word "\x7b").pursue y k) .blank :=
    refuses_pursue rfl fun c hc => single_eq_false hc (by decide)
  have suffix := trimStart_suffix x.1.after
  rw [pursue_seq, pursue_blanks stop, pursue_word, Spot.after_upto suffix]
  apply Option.bind_congr
  intro r hr
  rw [Spot.upto_upto suffix (suffix_of_after? hr)]

theorem after?_brace_of_arrow {s r : List Char} (h : after? "=>" s = some r) :
    after? "\x7b" (trimStart s) = none := by
  rw [after?_eq_some_iff.1 h]
  rfl

theorem pursue_arrow_brace (x : Stand) :
    (seq (opt (word "=>")) (seq blanks (word "\x7b"))).pursue x k =
      (after? "\x7b" (trimStart ((after? "=>" x.1.after).getD x.1.after))).bind fun r =>
        k (x.1.upto r, x.2) := by
  change (seq (alt (word "=>") empty) (seq blanks (word "\x7b"))).pursue x k = _
  rw [pursue_seq, pursue_alt, pursue_empty, pursue_word, pursue_blanks_brace]
  cases hr : after? "=>" x.1.after with
  | none => rfl
  | some r =>
    have suffix := suffix_of_after? hr
    rw [after?_brace_of_arrow hr, Option.bind_none, Option.or_none, Option.bind_some,
      pursue_blanks_brace, Option.getD_some, Spot.after_upto suffix]
    apply Option.bind_congr
    intro r' hr'
    rw [Spot.upto_upto suffix ((suffix_of_after? hr').trans (trimStart_suffix r))]

theorem pursue_brace (x : Stand) :
    (seq blanks (seq (opt (word "=>")) (seq blanks (word "\x7b")))).pursue x k =
      (afterBrace? x.1.after).bind fun r => k (x.1.upto r, x.2) := by
  have trimmed := trimStart_suffix x.1.after
  have at_end : (seq (opt (word "=>")) (seq blanks (word "\x7b"))).pursue
      (x.1.upto (trimStart x.1.after), x.2) k =
        (afterBrace? x.1.after).bind fun r => k (x.1.upto r, x.2) := by
    rw [pursue_arrow_brace, Spot.after_upto trimmed]
    apply Option.bind_congr
    intro r hr
    rw [Spot.upto_upto trimmed]
    refine (suffix_of_after? hr).trans ((trimStart_suffix _).trans ?_)
    cases arrow : after? "=>" (trimStart x.1.after) with
    | none => exact List.suffix_rfl
    | some r' => exact suffix_of_after? arrow
  rw [pursue_seq, ← at_end]
  -- With a blank ahead there is no arrow, and then the blanks could as well have been taken here.
  apply pursue_run
  intro n hn none_at_end
  rw [has_blank] at hn none_at_end
  have none_at_end := at_end.symm.trans none_at_end
  have le : n ≤ x.1.after.length := hn.le.trans (List.takeWhile_prefix _).length_le
  have blank : (x.1.after.drop n).head?.any isBlank = true := head?_drop_any hn
  have no_arrow : after? "=>" (x.1.after.drop n) = none := by
    cases hr : after? "=>" (x.1.after.drop n) with
    | none => rfl
    | some r =>
      have no_blank : isBlank '=' = false := by decide
      rw [after?_eq_some_iff.1 hr] at blank
      simp [no_blank] at blank
  rw [pursue_arrow_brace, Spot.after_skip, no_arrow, Option.getD_none, trimStart_drop hn.le]
  cases hb : after? "\x7b" (trimStart x.1.after) with
  | none => rfl
  | some r =>
    have no_arrow : after? "=>" (trimStart x.1.after) = none := by
      rw [after?_eq_some_iff.1 hb]
      rfl
    have suffix : r <:+ x.1.after.drop n := by
      rw [← trimStart_drop hn.le] at hb
      exact (suffix_of_after? hb).trans (trimStart_suffix _)
    have found : afterBrace? x.1.after = some r := by
      rw [afterBrace?, no_arrow, Option.getD_none, trimStart_eq_self (head?_trimStart _), hb]
    rw [found, Option.bind_some] at none_at_end
    rw [Option.bind_some, Spot.skip_eq_upto le, Spot.upto_upto (List.drop_suffix _ _) suffix,
      none_at_end]

end Parts

end Snapshot.Kind
