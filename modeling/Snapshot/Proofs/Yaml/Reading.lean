import Snapshot.Proofs.Text.Reading
import Snapshot.Yaml.Reader

/-!
# Reading scalars that were written

A scalar is read as the text that was written, and no more of the document is read with it. Only
what stands behind a block could go on with it: a blank line or one that is moved in as far.
-/

namespace Snapshot.Yaml

attribute [local simp] readSingle readBlock

def Stops (indent : Nat) (rest : List Char) : Prop :=
  rest.head?.any isBreak = false ∧ (List.replicate indent ' ').isPrefixOf rest = false

def endsLine (lineStart : Bool) (s : List Char) : Bool := s.getLast?.elim lineStart isBreak

theorem endsLine_cons (lineStart : Bool) (c : Char) (s : List Char) :
    endsLine lineStart (c :: s) = endsLine (isBreak c) s := by
  cases s with
  | nil => rfl
  | cons d s => simp [endsLine, List.getLast?_eq_some_getLast]

def doubled (s : List Char) : List Char :=
  s.flatMap fun c => if c == '\'' then ['\'', '\''] else [c]

def margin (indent : Nat) (lineStart : Bool) : List Char :=
  if lineStart then List.replicate indent ' ' else []

theorem readSingle_margin (indent : Nat) (lineStart : Bool) (t : List Char) :
    readSingle indent (if lineStart then indent else 0) (margin indent lineStart ++ t) =
      readSingle indent 0 t := by
  have spaces : ∀ n, readSingle indent n (List.replicate n ' ' ++ t) = readSingle indent 0 t := by
    intro n
    induction n with
    | zero => rfl
    | succ n ih =>
      have no_break : isBreak ' ' = false := by decide
      simpa [List.replicate_succ, no_break] using ih
  cases lineStart with
  | false => rfl
  | true => exact spaces indent

theorem indentLines_cons {indent : Nat} {lineStart : Bool} {c : Char} (h : isBreak c = false)
    (s : List Char) : indentLines indent lineStart (c :: s) =
      margin indent lineStart ++ c :: indentLines indent false s := by
  rw [indentLines, if_neg (by simp [h])]
  rfl

theorem indentLines_break {indent : Nat} {lineStart : Bool} {c : Char} (h : isBreak c = true)
    (s : List Char) : indentLines indent lineStart (c :: s) = c :: indentLines indent true s := by
  rw [indentLines, if_pos h]

theorem readSingle_char {indent : Nat} {c : Char} (h : c ≠ '\'') (text : List Char) :
    readSingle indent 0 (c :: text) =
      (readSingle indent (if isBreak c then indent else 0) text).map fun (s, r) => (c :: s, r) := by
  rw [readSingle]
  · exact fun _ same => absurd same h
  · exact h

theorem readSingle_end {rest : List Char} (h : rest.head? ≠ some '\'') (indent : Nat) :
    readSingle indent 0 ('\'' :: rest) = some ([], rest) := by
  rw [readSingle]
  rintro more rfl
  exact h rfl

theorem readSingle_break {indent : Nat} {c : Char} (h : isBreak c = true) (skip : Nat)
    (text : List Char) : readSingle indent skip (c :: text) =
      (readSingle indent indent text).map fun (s, r) => (c :: s, r) := by
  cases skip with
  | zero =>
    have ne : c ≠ '\'' := by
      rintro rfl
      cases h
    rw [readSingle_char ne, if_pos h]
  | succ skip => simp [h]

theorem readSingle_doubled (indent : Nat) (lineStart : Bool) (s rest : List Char)
    (behind : rest.head? ≠ some '\'') :
    readSingle indent (if lineStart then indent else 0)
      (indentLines indent lineStart (doubled s) ++
        (margin indent (endsLine lineStart s) ++ '\'' :: rest)) = some (s, rest) := by
  induction s generalizing lineStart with
  | nil => exact (readSingle_margin indent lineStart _).trans (readSingle_end behind indent)
  | cons c s ih =>
    rw [endsLine_cons]
    by_cases quote : c = '\''
    · subst quote
      have pair : doubled ('\'' :: s) = '\'' :: '\'' :: doubled s := rfl
      rw [pair, indentLines_cons (by decide), indentLines_cons (by decide), List.append_assoc,
        readSingle_margin]
      exact congrArg (Option.map _) (ih false)
    · have single : doubled (c :: s) = c :: doubled s := by simp [doubled, quote]
      rw [single]
      cases newline : isBreak c with
      | true =>
        rw [indentLines_break newline, List.cons_append, readSingle_break newline]
        exact congrArg (Option.map _) (ih true)
      | false =>
        rw [indentLines_cons newline, List.append_assoc, readSingle_margin, List.cons_append,
          readSingle_char quote, newline]
        exact congrArg (Option.map _) (ih false)

theorem digitValue?_hexDigit : ∀ d < 16,
    digitValue? 16 (Char.ofNat (if d < 10 then 48 + d else 55 + d)) = some d := by decide

theorem foldlM_hexDigits (k n : Nat) (h : n < Nat.pow 16 k) :
    (hexDigits k n).foldlM (fun n c => (digitValue? 16 c).map (n * 16 + ·)) 0 = some n := by
  induction k generalizing n with
  | zero =>
    obtain rfl : n = 0 := Nat.lt_one_iff.1 h
    rfl
  | succ k ih =>
    have high : n / 16 < Nat.pow 16 k := (Nat.div_lt_iff_lt_mul (by decide)).2 h
    rw [hexDigits, List.foldlM_append, ih (n / 16) high]
    have whole : n / 16 * 16 + n % 16 = n := by omega
    simp [digitValue?_hexDigit (n % 16) (by omega), whole]

theorem length_hexDigits (k n : Nat) : (hexDigits k n).length = k := by
  induction k generalizing n with
  | zero => rfl
  | succ k ih => rw [hexDigits, List.length_append, ih, List.length_singleton]

theorem readEscape_code {letter : Char} {k : Nat} (h : escapeLength? letter = some (k + 1))
    {c : Char} (fits : c.toNat < Nat.pow 16 (k + 1)) (rest : List Char) :
    readEscape (letter :: (hexDigits (k + 1) c.toNat ++ rest)) = some (c, rest) := by
  have length := length_hexDigits (k + 1) c.toNat
  have code : natural? 16 (hexDigits (k + 1) c.toNat) = some c.toNat := by
    rw [natural?, if_neg, foldlM_hexDigits _ _ fits]
    simp [← List.length_eq_zero_iff, length]
  rw [readEscape, h]
  simp only [List.take_left' length, List.drop_left' length, code, Option.map_some,
    Char.ofNat_toNat]

def lettered : List Char :=
  ['\x00', '\x07', '\x08', '\t', '\n', '\x0b', '\x0c', '\r', '\x1b', '"', '\\', '\u0085',
    '\u2028', '\u2029']

theorem escapeLetter?_eq_none {c : Char} (h : c ∉ lettered) : escapeLetter? c = none := by
  unfold escapeLetter?
  split
  case h_15 => rfl
  all_goals exact absurd (by decide) h

theorem readDouble_escape {text rest : List Char} {c : Char}
    (h : readEscape text = some (c, rest)) :
    readDouble ('\\' :: text) = (readDouble rest).map fun (s, r) => (c :: s, r) := by
  rw [readDouble, if_neg (by decide), if_pos (by decide)]
  split
  · rename_i found
    obtain ⟨rfl, rfl⟩ := Prod.mk.inj (Option.some.inj (found.symm.trans h))
    rfl
  · rename_i none_found
    exact absurd (none_found.symm.trans h) (by simp)

theorem readDouble_escapeChar (c : Char) (rest : List Char) :
    readDouble (escapeChar c ++ rest) = (readDouble rest).map fun (s, r) => (c :: s, r) := by
  by_cases special : c ∈ lettered
  · simp only [lettered, List.mem_cons, List.not_mem_nil, or_false] at special
    rcases special with rfl | rfl | rfl | rfl | rfl | rfl | rfl | rfl | rfl | rfl | rfl | rfl |
      rfl | rfl
    all_goals exact readDouble_escape rfl
  · have no_letter := escapeLetter?_eq_none special
    unfold escapeChar
    rw [no_letter]
    dsimp only
    split
    · simp only [lettered, List.mem_cons, not_or] at special
      rw [List.singleton_append, readDouble]
      simp [special]
    · split
      · have fits : c.toNat < 0x100 := by omega
        exact readDouble_escape (readEscape_code (k := 1) rfl fits rest)
      · split
        · have fits : c.toNat < 0x10000 := by omega
          exact readDouble_escape (readEscape_code (k := 3) rfl fits rest)
        · have fits : c.toNat < 0x100000000 := c.val.toNat_lt
          exact readDouble_escape (readEscape_code (k := 7) rfl fits rest)

theorem readDouble_quoted (s rest : List Char) :
    readDouble (s.flatMap escapeChar ++ '"' :: rest) = some (s, rest) := by
  induction s with
  | nil =>
    rw [List.flatMap_nil, List.nil_append, readDouble]
    rfl
  | cons c s ih => rw [List.flatMap_cons, List.append_assoc, readDouble_escapeChar, ih]; rfl

theorem readBlock_break {indent : Nat} {c : Char} (h : isBreak c = true) (skip : Nat)
    (text : List Char) :
    readBlock indent skip (c :: text) = (readBlock indent indent text).map (c :: ·) id := by
  cases skip with
  | zero => simp [h]
  | succ skip => simp [h]

theorem readBlock_margin {indent : Nat} (lineStart : Bool) (text : List Char) :
    readBlock indent (if lineStart then indent else 0) (margin indent lineStart ++ text) =
      readBlock indent 0 text := by
  have moved : (List.replicate indent ' ').isPrefixOf (List.replicate indent ' ' ++ text) = true :=
    List.isPrefixOf_iff_prefix.2 (List.prefix_append _ _)
  have spaces : ∀ n, n < indent →
      readBlock indent n (List.replicate n ' ' ++ text) = readBlock indent 0 text := by
    intro n
    induction n with
    | zero => exact fun _ => rfl
    | succ n ih =>
      intro lt
      rw [List.replicate_succ, List.cons_append, readBlock, if_neg (by decide), if_neg]
      · exact ih (by omega)
      · simp [Nat.ne_of_lt lt]
  cases lineStart with
  | false => rfl
  | true =>
    cases indent with
    | zero => rfl
    | succ n =>
      rw [List.replicate_succ, List.cons_append] at moved
      rw [margin, if_pos rfl, if_pos rfl, List.replicate_succ, List.cons_append, readBlock,
        if_neg (by decide), if_neg (by simp [List.replicate_succ, moved])]
      exact spaces n (Nat.lt_succ_self n)

theorem readBlock_end {indent : Nat} (filled : 0 < indent) {rest : List Char}
    (stops : Stops indent rest) : readBlock indent indent rest = ([], rest) := by
  obtain ⟨no_break, no_margin⟩ := stops
  obtain ⟨n, rfl⟩ := Nat.exists_eq_add_one_of_ne_zero (Nat.ne_of_gt filled)
  cases rest with
  | nil => rfl
  | cons c rest =>
    have no_break : isBreak c = false := no_break
    rw [readBlock, if_neg (by simp [no_break]), if_pos (by simp [no_margin])]

theorem readBlock_indentLines {indent : Nat} (filled : 0 < indent) {rest : List Char}
    (stops : Stops indent rest) (lineStart : Bool) (s : List Char)
    (ends : endsLine lineStart s = true) :
    readBlock indent (if lineStart then indent else 0) (indentLines indent lineStart s ++ rest) =
      (s, rest) := by
  induction s generalizing lineStart with
  | nil =>
    have start : lineStart = true := ends
    rw [if_pos start]
    exact readBlock_end filled stops
  | cons c s ih =>
    rw [endsLine_cons] at ends
    cases newline : isBreak c with
    | true =>
      rw [newline] at ends
      rw [indentLines_break newline, List.cons_append, readBlock_break newline]
      exact congrArg (Prod.map _ id) (ih true ends)
    | false =>
      rw [newline] at ends
      rw [indentLines_cons newline, List.append_assoc, readBlock_margin, List.cons_append,
        readBlock, newline]
      exact congrArg (Prod.map _ id) (ih false ends)

theorem indentLines_concat (indent : Nat) (lineStart : Bool) (s : List Char) :
    indentLines indent lineStart (s ++ ['\n']) = indentLines indent lineStart s ++ ['\n'] := by
  induction s generalizing lineStart with
  | nil => rfl
  | cons c s ih =>
    rw [List.cons_append]
    cases newline : isBreak c with
    | true => rw [indentLines_break newline, indentLines_break newline, ih]; rfl
    | false =>
      rw [indentLines_cons newline, indentLines_cons newline, ih, List.append_assoc]
      rfl

/-- The head of a block tells whether the last line break is its own. -/
theorem exists_literalHead {s : List Char} (filled : s ≠ []) :
    ∃ marks, literalHead s = '|' :: marks ∧ '\n' ∉ marks ∧
      marks.contains '-' = !s.getLast?.any isBreak := by
  have chomped : '\n' ∉ chomping s ∧ (chomping s).contains '-' = !s.getLast?.any isBreak := by
    rcases List.eq_nil_or_concat s with rfl | ⟨t, c, rfl⟩
    · exact absurd rfl filled
    · rw [List.concat_eq_append, chomping, List.reverse_append, List.getLast?_concat]
      cases t.reverse with
      | nil => cases newline : isBreak c <;> simp [newline]
      | cons d r =>
        cases newline : isBreak c <;> cases before : isBreak d <;> simp [newline, before]
  have depth : ∃ depth, literalHead s = '|' :: depth ++ chomping s ∧
      (depth = [] ∨ depth = ['2']) := by
    refine ⟨_, rfl, ?_⟩
    cases s with
    | nil => exact .inl rfl
    | cons c s =>
      dsimp only
      split
      · exact .inr rfl
      · exact .inl rfl
  obtain ⟨depth, head, rfl | rfl⟩ := depth
  · exact ⟨chomping s, head, chomped⟩
  · exact ⟨'2' :: chomping s, head, by simpa using chomped⟩

theorem of_style_plain {s : List Char} (h : style s = .plain) :
    '\n' ∉ s ∧ ∃ c t, s = c :: t ∧ isLeadingMark c = false := by
  unfold style at h
  split at h
  · split at h <;> cases h
  · rename_i line
    split at h
    · rename_i plain
      simp only [Bool.and_eq_true, Bool.not_eq_true', allowsPlain, Bool.or_eq_false_iff] at plain
      obtain ⟨unambiguous, ⟨⟨-, no_mark⟩, -⟩, -⟩ := plain
      refine ⟨by simpa using line, ?_⟩
      cases s with
      | nil => cases unambiguous
      | cons c t =>
        refine ⟨c, t, rfl, ?_⟩
        unfold hasMark at no_mark
        split at no_mark
        case h_4 =>
          rename_i same
          obtain ⟨rfl, rfl⟩ := List.cons.inj same
          simp only [Bool.or_eq_false_iff] at no_mark
          exact no_mark.1.1
        all_goals simp_all
    · split at h <;> cases h

theorem ne_nil_of_style_literal {s : List Char} (h : style s = .literal) : s ≠ [] := by
  rintro rfl
  cases h

section Scalar
variable (indent : Nat) {s : List Char} (rest : List Char)

theorem readScalar?_plain (h : style s = .plain) :
    readScalar? indent (s ++ '\n' :: rest) = some (s, rest) := by
  obtain ⟨line, c, t, rfl, no_mark⟩ := of_style_plain h
  have other : c ≠ '\'' ∧ c ≠ '"' ∧ c ≠ '|' := by
    refine ⟨?_, ?_, ?_⟩ <;> rintro rfl <;> cases no_mark
  rw [List.cons_append, readScalar?, ← List.cons_append, Text.takeWhile_until line,
    Text.dropWhile_until line]
  · rfl
  · exact fun _ same => other.1 (List.cons.inj same).1
  · exact fun _ same => other.2.1 (List.cons.inj same).1
  · exact fun _ same => other.2.2 (List.cons.inj same).1

theorem readScalar?_single (s : List Char) :
    readScalar? indent (quoteSingle indent s ++ '\n' :: rest) = some (s, rest) := by
  have text : quoteSingle indent s ++ '\n' :: rest =
      '\'' :: (indentLines indent false (doubled s) ++
        (margin indent (endsLine false s) ++ '\'' :: '\n' :: rest)) := by
    unfold quoteSingle margin endsLine
    cases s.getLast? with
    | none => simp [doubled]
    | some c => cases newline : isBreak c <;> simp [doubled, newline]
  have body := readSingle_doubled indent false s ('\n' :: rest) (by simp)
  rw [if_neg Bool.false_ne_true] at body
  rw [text, readScalar?, body]
  rfl

theorem readScalar?_double (s : List Char) :
    readScalar? indent (quoteDouble s ++ '\n' :: rest) = some (s, rest) := by
  have text : quoteDouble s ++ '\n' :: rest =
      '"' :: (s.flatMap escapeChar ++ '"' :: '\n' :: rest) := by
    simp [quoteDouble]
  rw [text, readScalar?, readDouble_quoted]
  rfl

def lastBreak (s : List Char) : List Char := if s.getLast?.any isBreak then [] else ['\n']

theorem endsLine_lastBreak (s : List Char) : endsLine true (s ++ lastBreak s) = true := by
  unfold lastBreak
  split
  · rename_i ends
    rw [List.append_nil, endsLine]
    cases last : s.getLast? with
    | none => rfl
    | some c => simpa [last] using ends
  · rw [endsLine, List.getLast?_concat]
    rfl

theorem indentLines_lastBreak (lineStart : Bool) (s : List Char) :
    indentLines indent lineStart (s ++ lastBreak s) =
      indentLines indent lineStart s ++ lastBreak s := by
  unfold lastBreak
  split
  · rw [List.append_nil, List.append_nil]
  · exact indentLines_concat indent lineStart s

variable {indent rest} in
theorem readScalar?_literal (filled : 0 < indent) (ne : s ≠ []) (stops : Stops indent rest) :
    readScalar? indent
      (literalHead s ++ '\n' :: (indentLines indent true s ++ (lastBreak s ++ rest))) =
        some (s, rest) := by
  obtain ⟨marks, head, line, chomped⟩ := exists_literalHead ne
  have body := readBlock_indentLines filled stops true _ (endsLine_lastBreak s)
  rw [if_pos rfl, indentLines_lastBreak, List.append_assoc] at body
  rw [head, List.cons_append, readScalar?]
  simp only [Text.takeWhile_until line, Text.dropWhile_until line, atLineEnd, Option.bind_eq_bind,
    Option.bind_some, body, chomped, Option.pure_def, Option.some.injEq, Prod.mk.injEq, and_true]
  cases ends : s.getLast?.any isBreak <;> simp [lastBreak, ends]

end Scalar

/-- A scalar is read as it was written, whatever stands behind it, if no block goes on there. -/
theorem readScalar?_scalarLine {indent : Nat} (filled : 0 < indent) (s : List Char)
    {rest : List Char} (stops : Stops indent rest) :
    readScalar? indent (scalarLine indent s ++ rest) = some (s, rest) := by
  unfold scalarLine
  cases h : style s with
  | plain =>
    rw [← readScalar?_plain indent rest h]
    simp
  | singleQuoted =>
    rw [← readScalar?_single indent rest s]
    simp
  | doubleQuoted =>
    rw [← readScalar?_double indent rest s]
    simp
  | literal =>
    rw [← readScalar?_literal filled (ne_nil_of_style_literal h) stops]
    cases ends : s.getLast?.any isBreak <;> simp [lastBreak, ends]

end Snapshot.Yaml
