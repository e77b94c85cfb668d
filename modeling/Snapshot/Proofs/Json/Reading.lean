import Mathlib.Data.List.Nodup
import Mathlib.Data.List.TakeWhile
import Snapshot.Json.Reader

/-!
# Reading what was printed

The text of a value is read as the value itself, at whatever depth it was laid out: what stands
behind a value never goes on with it, since it begins with a comma, with a line end or not at all.
A value can be read if its numbers are numbers, no key of an object occurs twice, and it is not
nested too deeply.
-/

namespace Snapshot.Json

theorem readFrom_cons {x y : Lexeme} {c : Char} {ts : List Token} (h : x.next c = some (y, ts))
    (r : Reading) (s : List Char) :
    readFrom x r (c :: s) = (ts.foldlM Reading.next? r).bind fun r => readFrom y r s := by
  rw [readFrom, h]
  rfl

theorem readFrom_silent {x y : Lexeme} {c : Char} (h : x.next c = some (y, [])) (r : Reading)
    (s : List Char) : readFrom x r (c :: s) = readFrom y r s := readFrom_cons h r s

theorem readFrom_token {x y : Lexeme} {c : Char} {t : Token} (h : x.next c = some (y, [t]))
    (r : Reading) (s : List Char) :
    readFrom x r (c :: s) = (r.next? t).bind fun r => readFrom y r s := by
  rw [readFrom_cons h, List.foldlM_cons]
  cases r.next? t <;> rfl

theorem readFrom_newline (depth : Nat) (r : Reading) (s : List Char) :
    readFrom .clear r (newline depth ++ s) = readFrom .clear r s := by
  have spaces : ∀ n, readFrom .clear r (List.replicate n ' ' ++ s) = readFrom .clear r s := by
    intro n
    induction n with
    | zero => rfl
    | succ n ih => exact (readFrom_silent rfl r _).trans ih
  exact (readFrom_silent rfl r _).trans (spaces _)

theorem hexValue?_hexDigit : ∀ n < 16, Text.hexValue? (hexDigit n) = some n := by decide

def lettered : List Char := ['"', '\\', '\n', '\r', '\t', '\x08', '\x0c']

theorem escapeChar_of_not_mem {c : Char} (h : c ∉ lettered) : escapeChar c =
    if c.toNat < 0x20 then
      ['\\', 'u', '0', '0', hexDigit (c.toNat / 16), hexDigit (c.toNat % 16)]
    else [c] := by
  unfold escapeChar
  split
  case h_8 => rfl
  all_goals exact absurd (by decide) h

theorem readFrom_control {c : Char} (h : c.toNat < 0x20) (t : List Char) (r : Reading)
    (s : List Char) : readFrom (.string t) r
        ('\\' :: 'u' :: '0' :: '0' :: hexDigit (c.toNat / 16) :: hexDigit (c.toNat % 16) :: s) =
      readFrom (.string (c :: t)) r s := by
  have high : (Lexeme.code t none 2 0).next (hexDigit (c.toNat / 16)) =
      some (.code t none 1 (c.toNat / 16), []) := by
    simp [Lexeme.next, hexValue?_hexDigit (c.toNat / 16) (by omega)]
  have low : (Lexeme.code t none 1 (c.toNat / 16)).next (hexDigit (c.toNat % 16)) =
      some (.string (c :: t), []) := by
    have value : c.toNat / 16 * 16 + c.toNat % 16 = c.toNat := by omega
    have whole : isHighHalf c.toNat = false ∧ isLowHalf c.toNat = false := by
      simp only [isHighHalf, isLowHalf, Bool.and_eq_false_iff, decide_eq_false_iff_not]
      omega
    simp [Lexeme.next, hexValue?_hexDigit (c.toNat % 16) (by omega), value, endCode, whole]
  calc readFrom (.string t) r
        ('\\' :: 'u' :: '0' :: '0' :: hexDigit (c.toNat / 16) :: hexDigit (c.toNat % 16) :: s)
      = readFrom (.code t none 2 0) r
          (hexDigit (c.toNat / 16) :: hexDigit (c.toNat % 16) :: s) := by
        rw [readFrom_silent (y := .escape t) rfl, readFrom_silent (y := .code t none 4 0) rfl,
          readFrom_silent (y := .code t none 3 0) rfl, readFrom_silent (y := .code t none 2 0) rfl]
    _ = readFrom (.string (c :: t)) r s := by rw [readFrom_silent high, readFrom_silent low]

theorem readFrom_escapeChar (c : Char) (t : List Char) (r : Reading) (s : List Char) :
    readFrom (.string t) r (escapeChar c ++ s) = readFrom (.string (c :: t)) r s := by
  by_cases special : c ∈ lettered
  · simp only [lettered, List.mem_cons, List.not_mem_nil, or_false] at special
    rcases special with rfl | rfl | rfl | rfl | rfl | rfl | rfl
    all_goals exact (readFrom_silent rfl r _).trans (readFrom_silent rfl r _)
  · rw [escapeChar_of_not_mem special]
    split
    · rename_i control
      exact readFrom_control control t r s
    · rename_i plain
      simp only [lettered, List.mem_cons, not_or] at special
      refine readFrom_silent ?_ r s
      simp [Lexeme.next, special, Nat.le_of_not_lt plain]

theorem readFrom_quote (text : String) (r : Reading) (s : List Char) :
    readFrom .clear r (quote text ++ s) =
      (r.next? (.string text.toList)).bind fun r => readFrom .clear r s := by
  have chars : ∀ cs t, readFrom (.string t) r (cs.flatMap escapeChar ++ '"' :: s) =
      (r.next? (.string (t.reverse ++ cs))).bind fun r => readFrom .clear r s := by
    intro cs
    induction cs with
    | nil =>
      intro t
      rw [List.append_nil]
      exact readFrom_token rfl r s
    | cons c cs ih =>
      intro t
      rw [List.flatMap_cons, List.append_assoc, readFrom_escapeChar, ih, List.reverse_cons,
        List.append_assoc, List.singleton_append]
  rw [quote, List.append_assoc, List.cons_append]
  exact (readFrom_silent rfl r _).trans (chars text.toList [])

def Stops (s : List Char) : Prop := s.head?.any isBareChar = false

theorem start_of_bare {c : Char} (h : isBareChar c = true) : start c = some (.bare [c], []) := by
  unfold start
  split
  case h_12 => rw [if_pos h]
  all_goals exact absurd h (by decide)

theorem readFrom_stop (w : List Char) (r : Reading) {s : List Char} (h : Stops s) :
    readFrom (.bare w) r s = (r.next? (.bare w.reverse)).bind fun r => readFrom .clear r s := by
  cases s with
  | nil => cases hr : r.next? (.bare w.reverse) <;> simp [readFrom, Lexeme.finish?, hr]
  | cons c s =>
    have stop : isBareChar c = false := h
    rw [readFrom]
    simp only [Lexeme.next, stop, Bool.false_eq_true, if_false, readFrom]
    cases start c with
    | none => cases r.next? (.bare w.reverse) <;> rfl
    | some found =>
      simp only [Option.map_some, Option.bind_eq_bind, Option.bind_some, List.foldlM_cons]
      cases r.next? (.bare w.reverse) <;> rfl

theorem readFrom_bare {w : List Char} (filled : w ≠ []) (bare : ∀ c ∈ w, isBareChar c = true)
    (r : Reading) {s : List Char} (h : Stops s) :
    readFrom .clear r (w ++ s) = (r.next? (.bare w)).bind fun r => readFrom .clear r s := by
  have chars : ∀ w t, (∀ c ∈ w, isBareChar c = true) →
      readFrom (.bare t) r (w ++ s) =
        (r.next? (.bare (t.reverse ++ w))).bind fun r => readFrom .clear r s := by
    intro w
    induction w with
    | nil =>
      intro t _
      rw [List.append_nil]
      exact readFrom_stop t r h
    | cons c w ih =>
      intro t bare
      have next : (Lexeme.bare t).next c = some (.bare (c :: t), []) :=
        if_pos (bare c List.mem_cons_self)
      rw [List.cons_append, readFrom_silent next,
        ih (c :: t) fun d hd => bare d (List.mem_cons_of_mem c hd), List.reverse_cons,
        List.append_assoc, List.singleton_append]
  obtain ⟨c, w, rfl⟩ := List.exists_cons_of_ne_nil filled
  have first := start_of_bare (bare c List.mem_cons_self)
  rw [List.cons_append, readFrom_silent (x := .clear) first,
    chars w [c] fun d hd => bare d (List.mem_cons_of_mem c hd)]
  rfl

def GoesTo (s t : List Char) : Prop := ∃ w, s = w ++ t ∧ ∀ c ∈ w, isBareChar c = true

theorem GoesTo.refl (s : List Char) : GoesTo s s := ⟨[], rfl, by simp⟩

theorem GoesTo.trans {s t u : List Char} (h : GoesTo s t) (h' : GoesTo t u) : GoesTo s u := by
  obtain ⟨w, rfl, hw⟩ := h
  obtain ⟨w', rfl, hw'⟩ := h'
  refine ⟨w ++ w', (List.append_assoc _ _ _).symm, fun c hc => ?_⟩
  exact (List.mem_append.1 hc).elim (hw c) (hw' c)

theorem GoesTo.cons {c : Char} {s t : List Char} (hc : isBareChar c = true) (h : GoesTo s t) :
    GoesTo (c :: s) t := GoesTo.trans ⟨[c], rfl, by simpa using hc⟩ h

theorem isBareChar_of_isDigit {c : Char} (h : c.isDigit = true) : isBareChar c = true := by
  simp [isBareChar, Char.isAlphanum, h]

theorem goesTo_of_afterDigits? {s t : List Char} (h : afterDigits? s = some t) : GoesTo s t := by
  cases s with
  | nil => cases h
  | cons c s =>
    obtain ⟨digit, rest⟩ := Option.ite_none_right_eq_some.1 h
    rw [← Option.some.inj rest]
    refine .cons (isBareChar_of_isDigit digit) ⟨s.takeWhile Char.isDigit, ?_, fun d hd => ?_⟩
    · exact List.takeWhile_append_dropWhile.symm
    · exact isBareChar_of_isDigit (List.mem_takeWhile_imp hd)

theorem goesTo_of_afterWhole? {s t : List Char} (h : afterWhole? s = some t) : GoesTo s t := by
  unfold afterWhole? at h
  split at h
  · exact Option.some.inj h ▸ .cons (by decide) (.refl _)
  · exact goesTo_of_afterDigits? h

theorem goesTo_of_afterFraction? {s t : List Char} (h : afterFraction? s = some t) :
    GoesTo s t := by
  unfold afterFraction? at h
  split at h
  · exact .cons (by decide) (goesTo_of_afterDigits? h)
  · exact Option.some.inj h ▸ .refl _

theorem goesTo_afterSign (s : List Char) : GoesTo s (afterSign s) := by
  unfold afterSign
  split
  · exact .cons (by decide) (.refl _)
  · exact .cons (by decide) (.refl _)
  · exact .refl _

theorem goesTo_of_afterExponent? {s t : List Char} (h : afterExponent? s = some t) :
    GoesTo s t := by
  unfold afterExponent? at h
  split at h
  · exact .cons (by decide) ((goesTo_afterSign _).trans (goesTo_of_afterDigits? h))
  · exact .cons (by decide) ((goesTo_afterSign _).trans (goesTo_of_afterDigits? h))
  · exact Option.some.inj h ▸ .refl _

theorem bare_of_isNumber {s : List Char} (h : isNumber s = true) :
    s ≠ [] ∧ ∀ c ∈ s, isBareChar c = true := by
  constructor
  · rintro rfl
    revert h
    decide
  have parts := beq_iff_eq.1 h
  obtain ⟨t, ht, exponent⟩ := Option.bind_eq_some_iff.1 parts
  obtain ⟨u, whole, fraction⟩ := Option.bind_eq_some_iff.1 ht
  have unsigned := (goesTo_of_afterWhole? whole).trans
    ((goesTo_of_afterFraction? fraction).trans (goesTo_of_afterExponent? exponent))
  have all : GoesTo s [] := by
    split at unsigned
    · exact .cons (by decide) unsigned
    · exact unsigned
  obtain ⟨w, same, hw⟩ := all
  rw [List.append_nil] at same
  exact same ▸ hw

theorem ofBare?_of_isNumber {text : String} (h : isNumber text.toList = true) :
    ofBare? text.toList = some (.number text) := by
  have words : ∀ w ∈ ["null", "true", "false"], isNumber w.toList = false := by decide
  have apart : ∀ w ∈ ["null", "true", "false"], text.toList ≠ w.toList := by
    intro w hw same
    rw [same, words w hw] at h
    exact Bool.noConfusion h
  rw [ofBare?, if_neg (apart _ (by simp)), if_neg (apart _ (by simp)), if_neg (apart _ (by simp)),
    if_pos h, String.ofList_toList]

def Reading.Awaits (r : Reading) (frames : List Frame) : Prop :=
  ∀ t, t ≠ .closeBracket → r.next? t = begin? frames t

theorem Reading.awaits_value (frames : List Frame) : (value frames).Awaits frames := fun _ _ => rfl

theorem Reading.awaits_item (frames : List Frame) :
    (item frames).Awaits (.array [] :: frames) := by
  intro t ht
  cases t <;> first | rfl | exact absurd rfl ht

/-- The text of a value is read as the value, however deep it is laid out. -/
def Reads (depth : Nat) (j : Json) : Prop :=
  ∀ (indent : Nat) (frames : List Frame) (r : Reading) (s : List Char),
    frames.length + depth ≤ maxDepth → r.Awaits frames → Stops s →
      readFrom .clear r (j.pretty indent ++ s) = readFrom .clear (.behind frames j) s

theorem reads_string (depth : Nat) (text : String) : Reads depth (.string text) := by
  intro indent frames r s _ awaits _
  rw [pretty, readFrom_quote, awaits _ (by simp), Reading.begin?, Option.bind_some,
    String.ofList_toList]

theorem reads_bare {j : Json} {w : List Char} (filled : w ≠ [])
    (bare : ∀ c ∈ w, isBareChar c = true) (printed : ∀ indent, j.pretty indent = w)
    (parsed : ofBare? w = some j) (depth : Nat) : Reads depth j := by
  intro indent frames r s _ awaits stops
  rw [printed, readFrom_bare filled bare r stops, awaits _ (by simp), Reading.begin?, parsed,
    Option.map_some, Option.bind_some]

theorem reads_word {j : Json} {w : String} (hw : w ∈ ["null", "true", "false"])
    (printed : ∀ indent, j.pretty indent = w.toList) (parsed : ofBare? w.toList = some j)
    (depth : Nat) : Reads depth j := by
  have words : ∀ w ∈ ["null", "true", "false"],
      w.toList ≠ [] ∧ w.toList.all isBareChar = true := by decide
  obtain ⟨filled, bare⟩ := words w hw
  exact reads_bare filled (List.all_eq_true.1 bare) printed parsed depth

theorem stops_newline (indent : Nat) (s : List Char) : Stops (newline indent ++ s) := rfl

theorem stops_prettyItems (indent indent' : Nat) (items : List Json) (s : List Char) :
    Stops (prettyItems indent items ++ (newline indent' ++ s)) := by
  cases items with
  | nil => exact stops_newline indent' s
  | cons x xs => rfl

theorem stops_prettyMembers (indent indent' : Nat) (members : List (String × Json))
    (s : List Char) : Stops (prettyMembers indent members ++ (newline indent' ++ s)) := by
  cases members with
  | nil => exact stops_newline indent' s
  | cons m ms => rfl

theorem addMember_of_not_mem {members : List (String × Json)} {key : String} (v : Json)
    (h : key ∉ members.map (·.1)) : addMember members key v = (key, v) :: members := by
  rw [addMember, List.filter_eq_self.2 fun m hm => ?_]
  exact bne_iff_ne.2 fun same => h (same ▸ List.mem_map_of_mem hm)

theorem not_mem_of_distinct {done members : List (String × Json)} {key : String} {v : Json}
    (distinct : ((done.reverse ++ (key, v) :: members).map (·.1)).Nodup) :
    key ∉ done.map (·.1) := by
  rw [List.map_append, List.map_cons, List.nodup_middle, List.nodup_cons] at distinct
  intro hk
  refine distinct.1 (List.mem_append_left _ ?_)
  rwa [List.map_reverse, List.mem_reverse]

section Nested
variable {n : Nat} {frames : List Frame} (room : frames.length + (n + 1) ≤ maxDepth)
include room

theorem readFrom_prettyItems {items : List Json} (h : ∀ x ∈ items, Reads n x)
    (done : List Json) (v : Json) (indent indent' : Nat) (s : List Char) :
    readFrom .clear (.behind (.array done :: frames) v)
        (prettyItems indent items ++ (newline indent' ++ ']' :: s)) =
      readFrom .clear (.behind frames (.array (done.reverse ++ v :: items))) s := by
  induction items generalizing done v with
  | nil =>
    rw [prettyItems, List.nil_append, readFrom_newline, readFrom_token (t := .closeBracket) rfl,
      Reading.next?, Option.bind_some, List.reverse_cons]
  | cons x xs ih =>
    have inner : (Frame.array (v :: done) :: frames).length + n ≤ maxDepth := by
      rw [List.length_cons]
      omega
    have item := h x List.mem_cons_self indent (.array (v :: done) :: frames) _
      (prettyItems indent xs ++ (newline indent' ++ ']' :: s)) inner (Reading.awaits_value _)
      (stops_prettyItems ..)
    simp only [prettyItems, List.cons_append, List.append_assoc]
    rw [readFrom_token (t := .comma) rfl, Reading.next?, Option.bind_some, readFrom_newline, item,
      ih (fun y hy => h y (List.mem_cons_of_mem x hy)), List.reverse_cons, List.append_assoc,
      List.singleton_append]

theorem readFrom_prettyMember {m : String × Json} (h : Reads n m.2)
    (done : List (String × Json)) (first : Bool) (indent : Nat) {s : List Char} (stops : Stops s) :
    readFrom .clear (.key frames done first) (prettyMember indent m ++ s) =
      readFrom .clear (.behind (.object done m.1 :: frames) m.2) s := by
  obtain ⟨key, v⟩ := m
  have inner : (Frame.object done key :: frames).length + n ≤ maxDepth := by
    rw [List.length_cons]
    omega
  have value := h indent (.object done key :: frames) _ s inner (Reading.awaits_value _) stops
  rw [prettyMember, List.append_assoc, List.append_assoc, readFrom_quote, Reading.next?,
    Option.bind_some, String.ofList_toList, List.cons_append, List.singleton_append,
    readFrom_token (t := .colon) rfl, Reading.next?, Option.bind_some,
    readFrom_silent (y := .clear) rfl, value]

theorem readFrom_prettyMembers {members : List (String × Json)} (h : ∀ m ∈ members, Reads n m.2)
    (done : List (String × Json)) (key : String) (v : Json)
    (distinct : ((done.reverse ++ (key, v) :: members).map (·.1)).Nodup) (indent indent' : Nat)
    (s : List Char) :
    readFrom .clear (.behind (.object done key :: frames) v)
        (prettyMembers indent members ++ (newline indent' ++ '\x7d' :: s)) =
      readFrom .clear (.behind frames (.object (done.reverse ++ (key, v) :: members))) s := by
  induction members generalizing done key v with
  | nil =>
    rw [prettyMembers, List.nil_append, readFrom_newline, readFrom_token (t := .closeBrace) rfl,
      Reading.next?, Option.bind_some, addMember_of_not_mem v (not_mem_of_distinct distinct),
      List.reverse_cons]
  | cons m ms ih =>
    have member := readFrom_prettyMember room (h m List.mem_cons_self) ((key, v) :: done) false
      indent (stops_prettyMembers indent indent' ms ('\x7d' :: s))
    have distinct' : ((((key, v) :: done).reverse ++ (m.1, m.2) :: ms).map (·.1)).Nodup := by
      rwa [List.reverse_cons, List.append_assoc, List.singleton_append]
    simp only [prettyMembers, List.cons_append, List.append_assoc]
    rw [readFrom_token (t := .comma) rfl, Reading.next?, Option.bind_some, readFrom_newline,
      addMember_of_not_mem v (not_mem_of_distinct distinct), member,
      ih (fun y hy => h y (List.mem_cons_of_mem m hy)) _ _ _ distinct', List.reverse_cons,
      List.append_assoc, List.singleton_append]

end Nested

theorem reads_array {n : Nat} {items : List Json} (h : ∀ x ∈ items, Reads n x) :
    Reads (n + 1) (.array items) := by
  intro indent frames r s room awaits stops
  have shallow : frames.length < maxDepth := by omega
  have opened : r.next? .openBracket = some (.item frames) := by
    rw [awaits _ (by simp), Reading.begin?, if_pos shallow]
  cases items with
  | nil =>
    rw [pretty, List.cons_append, readFrom_token (t := .openBracket) rfl, opened, Option.bind_some,
      List.cons_append, List.nil_append, readFrom_token (t := .closeBracket) rfl, Reading.next?,
      Option.bind_some]
  | cons x xs =>
    have inner : (Frame.array [] :: frames).length + n ≤ maxDepth := by
      rw [List.length_cons]
      omega
    have item := h x List.mem_cons_self (indent + 1) (.array [] :: frames) _
      (prettyItems (indent + 1) xs ++ (newline indent ++ ']' :: s)) inner (Reading.awaits_item _)
      (stops_prettyItems ..)
    simp only [pretty, List.cons_append, List.append_assoc, List.nil_append]
    rw [readFrom_token (t := .openBracket) rfl, opened, Option.bind_some, readFrom_newline, item,
      readFrom_prettyItems room fun y hy => h y (List.mem_cons_of_mem x hy)]
    rfl

theorem reads_object {n : Nat} {members : List (String × Json)}
    (h : ∀ m ∈ members, Reads n m.2) (distinct : (members.map (·.1)).Nodup) :
    Reads (n + 1) (.object members) := by
  intro indent frames r s room awaits stops
  have shallow : frames.length < maxDepth := by omega
  have opened : r.next? .openBrace = some (.key frames [] true) := by
    rw [awaits _ (by simp), Reading.begin?, if_pos shallow]
  cases members with
  | nil =>
    rw [pretty, List.cons_append, readFrom_token (t := .openBrace) rfl, opened, Option.bind_some,
      List.cons_append, List.nil_append, readFrom_token (t := .closeBrace) rfl, Reading.next?,
      Option.bind_some]
  | cons m ms =>
    have member := readFrom_prettyMember room (h m List.mem_cons_self) [] true
      (indent + 1) (stops_prettyMembers (indent + 1) indent ms ('\x7d' :: s))
    simp only [pretty, List.cons_append, List.append_assoc, List.nil_append]
    rw [readFrom_token (t := .openBrace) rfl, opened, Option.bind_some, readFrom_newline, member,
      readFrom_prettyMembers room (fun y hy => h y (List.mem_cons_of_mem m hy)) [] m.1 m.2 distinct]
    rfl

inductive Readable : Nat → Json → Prop
  | null {n} : Readable n .null
  | bool {n} (b : Bool) : Readable n (.bool b)
  | number {n} {text : String} (h : isNumber text.toList = true) : Readable n (.number text)
  | string {n} (s : String) : Readable n (.string s)
  | array {n} {items : List Json} (h : ∀ x ∈ items, Readable n x) : Readable (n + 1) (.array items)
  | object {n} {members : List (String × Json)} (h : ∀ m ∈ members, Readable n m.2)
      (distinct : (members.map (·.1)).Nodup) : Readable (n + 1) (.object members)

theorem Readable.reads {n : Nat} {j : Json} (h : Readable n j) : Reads n j := by
  induction h with
  | null => exact reads_word (w := "null") (by decide) (fun _ => rfl) rfl _
  | bool b =>
    cases b with
    | false => exact reads_word (w := "false") (by decide) (fun _ => rfl) rfl _
    | true => exact reads_word (w := "true") (by decide) (fun _ => rfl) rfl _
  | number h =>
    exact reads_bare (bare_of_isNumber h).1 (bare_of_isNumber h).2 (fun _ => rfl)
      (ofBare?_of_isNumber h) _
  | string s => exact reads_string _ s
  | array _ ih => exact reads_array ih
  | object _ distinct ih => exact reads_object ih distinct

/-- Reading takes back what was printed. -/
theorem read?_pretty {n : Nat} {j : Json} (h : Readable n j) (shallow : n ≤ maxDepth)
    (indent : Nat) : read? (j.pretty indent) = some j := by
  have room : ([] : List Frame).length + n ≤ maxDepth := by
    rw [List.length_nil]
    omega
  have all := h.reads indent [] _ [] room (Reading.awaits_value _) rfl
  rwa [List.append_nil] at all

end Snapshot.Json
