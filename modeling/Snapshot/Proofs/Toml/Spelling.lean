import Mathlib.Data.List.Basic
import Mathlib.Tactic.SplitIfs
import Snapshot.Toml.Table
import Snapshot.Toml.Token

/-!
# The spelling of TOML values

A basic string can be written in many ways: each of its characters as itself, as a letter behind a
backslash, or by its code. However it is written, its tokens are the same. A line that leaves
nothing open is cut into tokens by itself.
-/

namespace Snapshot.Toml

attribute [local simp] Lexeme.next

namespace Lexeme

def after? : Lexeme → List Char → Option (Lexeme × List Token)
  | x, [] => some (x, [])
  | x, c :: s => (x.next c).bind fun r => (r.1.after? s).map (Prod.map id (r.2 ++ ·))

theorem after?_cons {x y : Lexeme} {c : Char} {ts : List Token} (h : x.next c = some (y, ts))
    (s : List Char) : x.after? (c :: s) = (y.after? s).map (Prod.map id (ts ++ ·)) := by
  rw [after?, h, Option.bind_some]

theorem after?_silent {x y : Lexeme} {c : Char} (h : x.next c = some (y, [])) (s : List Char) :
    x.after? (c :: s) = y.after? s := by
  rw [after?_cons h]
  exact congrFun Option.map_id _

theorem after?_append (x : Lexeme) (s s' : List Char) : x.after? (s ++ s') =
    (x.after? s).bind fun r => (r.1.after? s').map (Prod.map id (r.2 ++ ·)) := by
  induction s generalizing x with
  | nil => exact (congrFun Option.map_id _).symm
  | cons c s ih =>
    rw [List.cons_append, after?, after?]
    cases x.next c with
    | none => rfl
    | some r =>
      rw [Option.bind_some, Option.bind_some, ih]
      cases r.1.after? s with
      | none => rfl
      | some q =>
        simp only [Option.bind_some, Option.map_some, Option.map_map, Prod.map_fst, Prod.map_snd,
          id]
        refine Option.map_congr fun p _ => Prod.ext rfl ?_
        exact (List.append_assoc ..).symm

theorem after?_append_of_eq_some {x y z : Lexeme} {s s' : List Char} {ts us : List Token}
    (first : x.after? s = some (y, ts)) (second : y.after? s' = some (z, us)) :
    x.after? (s ++ s') = some (z, ts ++ us) := by
  rw [after?_append, first, Option.bind_some, second]
  rfl

theorem tokensFrom?_append (x : Lexeme) (s s' : List Char) : tokensFrom? x (s ++ s') =
    (x.after? s).bind fun r => (tokensFrom? r.1 s').map (r.2 ++ ·) := by
  induction s generalizing x with
  | nil => exact (congrFun Option.map_id _).symm
  | cons c s ih =>
    rw [List.cons_append, tokensFrom?, after?]
    cases x.next c with
    | none => rfl
    | some r =>
      simp only [Option.bind_eq_bind, Option.bind_some, ih]
      cases r.1.after? s with
      | none => rfl
      | some q => cases found : tokensFrom? q.1 s' <;> simp [found]

theorem tokensFrom?_append_of_eq_some {x y : Lexeme} {s : List Char} {ts : List Token}
    (h : x.after? s = some (y, ts)) (s' : List Char) :
    tokensFrom? x (s ++ s') = (tokensFrom? y s').map (ts ++ ·) := by
  rw [tokensFrom?_append, h, Option.bind_some]

end Lexeme

theorem tokens?_eq_tokensFrom? {s : List Char} (h : s.head? ≠ some '\ufeff') :
    tokens? s = tokensFrom? .clear s := by
  unfold tokens?
  split
  · exact absurd rfl h
  · rfl

def codeFrom? (value : Nat) : List Char → Option Nat
  | [] => some value
  | d :: ds => (Text.hexValue? d).bind fun digit => codeFrom? (value * 16 + digit) ds

def isPlain (c : Char) : Bool := isTextChar c && c != '"' && c != '\\'

theorem isPlain_iff {c : Char} : isPlain c = true ↔ isTextChar c = true ∧ c ≠ '"' ∧ c ≠ '\\' := by
  simp [isPlain, and_assoc]

inductive Spelled : Char → List Char → Prop
  | plain {c} (itself : isPlain c = true) : Spelled c [c]
  | letter {c e} (stands : escapeValue? e = some c) : Spelled c ['\\', e]
  | short {c ds} (length : ds.length = 4) (code : codeFrom? 0 ds = some c.toNat) :
    Spelled c ('\\' :: 'u' :: ds)
  | long {c ds} (length : ds.length = 8) (code : codeFrom? 0 ds = some c.toNat) :
    Spelled c ('\\' :: 'U' :: ds)

inductive SpelledText : List Char → List Char → Prop
  | nil : SpelledText [] []
  | cons {c t s u} (first : Spelled c t) (rest : SpelledText s u) : SpelledText (c :: s) (t ++ u)

theorem exists_spelled (c : Char) : ∃ t, Spelled c t := by
  by_cases text : isTextChar c = true
  · by_cases quote : c = '"'
    · exact ⟨_, .letter (e := '"') (by rw [quote]; rfl)⟩
    · by_cases slash : c = '\\'
      · exact ⟨_, .letter (e := '\\') (by rw [slash]; rfl)⟩
      · exact ⟨[c], .plain (isPlain_iff.2 ⟨text, quote, slash⟩)⟩
  · have small : c.toNat < 0x80 := by
      simp only [isTextChar, Bool.or_eq_true, Bool.and_eq_true, decide_eq_true_eq, bne_iff_ne,
        not_or, not_and, ne_eq, not_not] at text
      omega
    have digits : ∀ n < 0x80,
        codeFrom? 0 ['0', '0', Nat.digitChar (n / 16), Nat.digitChar (n % 16)] = some n := by decide
    exact ⟨_, .short rfl (digits c.toNat small)⟩

theorem exists_spelledText (s : List Char) : ∃ t, SpelledText s t := by
  induction s with
  | nil => exact ⟨[], .nil⟩
  | cons c s ih =>
    obtain ⟨t, first⟩ := exists_spelled c
    obtain ⟨u, rest⟩ := ih
    exact ⟨t ++ u, .cons first rest⟩

theorem spelledText_self {s : List Char} (h : s.all isPlain = true) : SpelledText s s := by
  induction s with
  | nil => exact .nil
  | cons c s ih =>
    rw [List.all_cons, Bool.and_eq_true] at h
    exact .cons (.plain h.1) (ih h.2)

theorem after?_code {c : Char} (s : List Char) {ds : List Char} :
    ∀ {left value : Nat}, ds.length = left + 1 → codeFrom? value ds = some c.toNat →
      (Lexeme.code false s (left + 1) value).after? ds = some (.line .basic (c :: s), []) := by
  induction ds with
  | nil => nofun
  | cons d ds ih =>
    intro left value length code
    obtain ⟨digit, known, code⟩ := Option.bind_eq_some_iff.1 code
    cases left with
    | zero =>
      obtain rfl : ds = [] := List.eq_nil_of_length_eq_zero (Nat.succ.inj length)
      obtain same : value * 16 + digit = c.toNat := Option.some.inj code
      have valid : c.toNat.isValidChar := c.valid
      rw [Lexeme.after?_silent (y := .line .basic (c :: s))]
      · rfl
      · simp [known, same, valid, back]
    | succ left =>
      rw [Lexeme.after?_silent (y := .code false s (left + 1) (value * 16 + digit))]
      · exact ih (Nat.succ.inj length) code
      · simp [known]

theorem after?_spelled {c : Char} {t : List Char} (h : Spelled c t) (s : List Char) :
    (Lexeme.line .basic s).after? t = some (.line .basic (c :: s), []) := by
  cases h with
  | plain itself =>
    obtain ⟨text, no_quote, no_slash⟩ := isPlain_iff.1 itself
    rw [Lexeme.after?_silent (y := .line .basic (c :: s))]
    · rfl
    · simp [inLine, Quote.mark, text, no_quote, no_slash]
  | letter stands =>
    rw [Lexeme.after?_silent (y := .escape false s) rfl,
      Lexeme.after?_silent (y := .line .basic (c :: s))]
    · rfl
    · simp [stands, back]
  | short length code =>
    rw [Lexeme.after?_silent (y := .escape false s) rfl,
      Lexeme.after?_silent (y := .code false s 4 0) rfl]
    exact after?_code s length code
  | long length code =>
    rw [Lexeme.after?_silent (y := .escape false s) rfl,
      Lexeme.after?_silent (y := .code false s 8 0) rfl]
    exact after?_code s length code

theorem after?_spelledText {s t : List Char} (h : SpelledText s t) (u : List Char) :
    (Lexeme.line .basic u).after? t = some (.line .basic (s.reverse ++ u), []) := by
  induction h generalizing u with
  | nil => rfl
  | cons first rest ih =>
    rw [List.reverse_cons, List.append_assoc]
    exact Lexeme.after?_append_of_eq_some (after?_spelled first u) (ih _)

theorem Spelled.head {c : Char} {t : List Char} (h : Spelled c t) :
    ∃ d u, t = d :: u ∧ d ≠ '"' := by
  cases h with
  | plain itself => exact ⟨_, _, rfl, (isPlain_iff.1 itself).2.1⟩
  | letter | short | long => exact ⟨_, _, rfl, by decide⟩

def quoted (t : List Char) : List Char := '"' :: t ++ ['"']

theorem after?_singleton (c : Char) : Lexeme.clear.after? [c] = start c := by
  rw [Lexeme.after?, Lexeme.next]
  cases start c <;> simp [Lexeme.after?]

/-- The character behind a string: a quotation mark would go on with an empty one. -/
theorem after?_quoted {s t : List Char} (h : SpelledText s t) {c : Char} (stop : c ≠ '"') :
    Lexeme.clear.after? (quoted t ++ [c]) =
      (start c).map (Prod.map id (Token.line s :: ·)) := by
  rw [quoted, List.cons_append, List.cons_append,
    Lexeme.after?_silent (y := .opening .basic false) rfl]
  cases h with
  | nil =>
    have behind : (Lexeme.opening .basic true).next c = startAfter (.line []) c := by
      simp [Quote.mark, stop]
    rw [List.nil_append, List.singleton_append,
      Lexeme.after?_silent (y := .opening .basic true) rfl, Lexeme.after?, behind, startAfter]
    cases start c <;> simp [Lexeme.after?, Prod.map]
  | @cons e u s w first rest =>
    obtain ⟨d, v, rfl, no_quote⟩ := first.head
    have opened : (Lexeme.opening .basic false).next d = (Lexeme.line .basic []).next d := by
      simp [Quote.mark, no_quote]
    have read := after?_spelledText (.cons first rest) []
    have closed : (Lexeme.line .basic ((e :: s).reverse ++ [])).next '"' =
        some (.clear, [.line (e :: s)]) := by
      simp [inLine, Quote.mark]
    calc (Lexeme.opening .basic false).after? (d :: v ++ w ++ ['"'] ++ [c])
        = (Lexeme.line .basic []).after? ((d :: v ++ w) ++ ['"', c]) := by
          rw [List.append_assoc]
          exact congrArg (Option.bind · _) opened
      _ = (Lexeme.line .basic ((e :: s).reverse ++ [])).after? ['"', c] := by
          rw [Lexeme.after?_append, read]
          exact congrFun Option.map_id _
      _ = (start c).map (Prod.map id (Token.line (e :: s) :: ·)) := by
          rw [Lexeme.after?_cons closed, after?_singleton]
          rfl

def isBare (key : String) : Bool := !key.toList.isEmpty && key.toList.all isBareChar

theorem next_clear_of_bare {c : Char} (h : isBareChar c = true) :
    Lexeme.clear.next c = some (.bare [c], []) := by
  rw [Lexeme.next]
  unfold start
  split
  case h_15 => rw [if_pos h]
  all_goals exact absurd h (by decide)

theorem exists_of_isBare {key : String} (h : isBare key = true) :
    ∃ c w, key.toList = c :: w ∧ isBareChar c = true ∧ ∀ d ∈ w, isBareChar d = true := by
  rw [isBare, Bool.and_eq_true, List.all_eq_true] at h
  cases chars : key.toList with
  | nil => simp [chars] at h
  | cons c w =>
    rw [chars, List.forall_mem_cons] at h
    exact ⟨c, w, rfl, h.2.1, h.2.2⟩

theorem after?_bare (s : List Char) {w : List Char} (h : ∀ d ∈ w, isBareChar d = true) :
    (Lexeme.bare s).after? w = some (.bare (w.reverse ++ s), []) := by
  induction w generalizing s with
  | nil => rfl
  | cons d w ih =>
    obtain ⟨bare, rest⟩ := List.forall_mem_cons.1 h
    rw [Lexeme.after?_silent (y := .bare (d :: s)) (by simp [bare]), ih _ rest]
    simp

def pairLine (key : String) (value : List Char) : List Char :=
  key.toList ++ " = ".toList ++ value ++ ['\n']

theorem after?_key {key : String} (h : isBare key = true) :
    Lexeme.clear.after? (key.toList ++ " = ".toList) =
      some (.clear, [.bare key.toList, .blank, .equals, .blank]) := by
  obtain ⟨c, w, chars, first, rest⟩ := exists_of_isBare h
  have word : Lexeme.clear.after? key.toList = some (.bare key.toList.reverse, []) := by
    rw [chars, Lexeme.after?_silent (next_clear_of_bare first), after?_bare [c] rest,
      List.reverse_cons]
  refine Lexeme.after?_append_of_eq_some word ?_
  have stop : (Lexeme.bare key.toList.reverse).next ' ' =
      some (.clear, [.bare key.toList, .blank]) := by
    simp [isBareChar, startAfter, start]
  exact Lexeme.after?_cons stop _

theorem head?_pairLine {key : String} (h : isBare key = true) (value s : List Char) :
    (pairLine key value ++ s).head? ≠ some '\ufeff' := by
  obtain ⟨c, w, chars, first, -⟩ := exists_of_isBare h
  have other : c ≠ '\ufeff' := by
    rintro rfl
    exact absurd first (by decide)
  simpa [pairLine, chars] using other

def Value.ofStrings (ss : List String) : Value := .array (ss.map .string)

inductive Items : List String → List Char → Prop
  | none : Items [] [']']
  | last {s t} (text : SpelledText s.toList t) : Items [s] (quoted t ++ [']'])
  | more {s t ss u} (text : SpelledText s.toList t) (rest : Items ss u) :
    Items (s :: ss) (quoted t ++ [','] ++ ' ' :: u)

inductive Written : Value → List Char → Prop
  | string {s t} (text : SpelledText s.toList t) : Written (.string s) (quoted t)
  | boolean (b : Bool) : Written (.boolean b) (toString b).toList
  | strings {ss u} (items : Items ss u) : Written (.ofStrings ss) ('[' :: u)

theorem no_break_of_codeFrom? {n value : Nat} {ds : List Char} (h : codeFrom? value ds = some n) :
    '\n' ∉ ds := by
  induction ds generalizing value with
  | nil => simp
  | cons d ds ih =>
    obtain ⟨digit, known, h⟩ := Option.bind_eq_some_iff.1 h
    rw [List.mem_cons, not_or]
    refine ⟨?_, ih h⟩
    rintro rfl
    cases known

theorem Spelled.no_break {c : Char} {t : List Char} (h : Spelled c t) : '\n' ∉ t := by
  cases h with
  | plain itself =>
    rw [List.mem_singleton]
    rintro rfl
    cases itself
  | @letter e stands =>
    have other : e ≠ '\n' := by
      rintro rfl
      cases stands
    simp [other.symm]
  | short _ code | long _ code => simp [no_break_of_codeFrom? code]

theorem SpelledText.no_break {s t : List Char} (h : SpelledText s t) : '\n' ∉ t := by
  induction h with
  | nil => simp
  | cons first rest ih => simp [first.no_break, ih]

theorem Items.no_break {ss : List String} {u : List Char} (h : Items ss u) : '\n' ∉ u := by
  induction h with
  | none => simp
  | last text => simp [quoted, text.no_break]
  | more text rest ih => simp [quoted, text.no_break, ih]

theorem Written.no_break {value : Value} {v : List Char} (h : Written value v) : '\n' ∉ v := by
  cases h with
  | string text => simp [quoted, text.no_break]
  | boolean b => cases b <;> decide
  | strings items => simp [items.no_break]

theorem exists_items (ss : List String) : ∃ u, Items ss u := by
  induction ss with
  | nil => exact ⟨_, .none⟩
  | cons s ss ih =>
    obtain ⟨t, text⟩ := exists_spelledText s.toList
    obtain ⟨u, rest⟩ := ih
    exact ⟨_, .more text rest⟩

/-- A text that stays within its line: it has no line end, and no string of several lines that it
opens goes on behind it. -/
structure OneLine (v : List Char) : Prop where
  no_break : '\n' ∉ v
  closed : ∀ x ts, Lexeme.clear.after? (v ++ ['\n']) = some (x, ts) → x = .clear

theorem newline_not_mem_start {x : Lexeme} {c : Char} {ts : List Token} (other : c ≠ '\n')
    (h : start c = some (x, ts)) : Token.newline ∉ ts := by
  unfold start at h
  split at h
  case h_3 => exact absurd rfl other
  case h_15 =>
    split at h
    · cases h
      simp
    · cases h
  all_goals
    cases h
    simp

theorem newline_not_mem_startAfter {x : Lexeme} {t : Token} {c : Char} {ts : List Token}
    (other : c ≠ '\n') (token : t ≠ .newline) (h : startAfter t c = some (x, ts)) :
    Token.newline ∉ ts := by
  obtain ⟨⟨y, us⟩, found, same⟩ := Option.map_eq_some_iff.1 h
  cases same
  simpa [token.symm] using newline_not_mem_start other found

theorem newline_not_mem_inLine {x : Lexeme} {q : Quote} {s : List Char} {c : Char} {ts : List Token}
    (h : inLine q s c = some (x, ts)) : Token.newline ∉ ts := by
  unfold inLine at h
  split_ifs at h <;> cases h <;> simp

theorem newline_not_mem_inBlock {x : Lexeme} {q : Quote} {s : List Char} {fresh : Bool} {c : Char}
    {ts : List Token} (h : inBlock q s fresh c = some (x, ts)) : Token.newline ∉ ts := by
  unfold inBlock at h
  split_ifs at h <;> cases h <;> simp

theorem newline_not_mem_next {x y : Lexeme} {c : Char} {ts : List Token} (other : c ≠ '\n')
    (h : x.next c = some (y, ts)) : Token.newline ∉ ts := by
  cases x with
  | clear => exact newline_not_mem_start other h
  | bare s =>
    rw [Lexeme.next] at h
    split at h
    · cases h
      simp
    · exact newline_not_mem_startAfter other (by simp) h
  | comment =>
    simp only [Lexeme.next, beq_iff_eq, other, if_false] at h
    split_ifs at h <;> cases h <;> simp
  | carriage | gapCarriage s =>
    simp [other] at h
  | opening q second =>
    cases second with
    | false =>
      rw [Lexeme.next] at h
      split at h
      · cases h
        simp
      · exact newline_not_mem_inLine h
    | true =>
      rw [Lexeme.next] at h
      split at h
      · cases h
        simp
      · exact newline_not_mem_startAfter other (by simp) h
  | line q s => exact newline_not_mem_inLine h
  | block q s marks fresh =>
    cases marks with
    | zero => exact newline_not_mem_inBlock h
    | succ marks =>
      simp only [Lexeme.next] at h
      split_ifs at h
      · cases h
        simp
      · cases h
        simp
      · exact newline_not_mem_startAfter other (by simp) h
      · exact newline_not_mem_inBlock h
  | blockCarriage q s fresh => simp [other] at h
  | escape wide s =>
    rw [Lexeme.next] at h
    split at h
    · cases h
      simp
    · split_ifs at h <;> cases h <;> simp
  | code wide s left value =>
    simp only [Lexeme.next, Option.bind_eq_bind, Option.bind_eq_some_iff] at h
    obtain ⟨digit, -, h⟩ := h
    split_ifs at h <;> cases h <;> simp
  | gap s ended =>
    rw [Lexeme.next] at h
    split_ifs at h
    iterate 3
      · cases h
        simp
    · exact newline_not_mem_inBlock h

theorem newline_not_mem_after? {x y : Lexeme} {v : List Char} {ts : List Token}
    (no_break : '\n' ∉ v) (h : x.after? v = some (y, ts)) : Token.newline ∉ ts := by
  induction v generalizing x ts with
  | nil =>
    cases h
    simp
  | cons c v ih =>
    rw [List.mem_cons, not_or] at no_break
    obtain ⟨other, no_break⟩ := no_break
    obtain ⟨⟨z, us⟩, first, rest⟩ := Option.bind_eq_some_iff.1 h
    obtain ⟨⟨w, vs⟩, behind, same⟩ := Option.map_eq_some_iff.1 rest
    cases same
    rw [List.mem_append, not_or]
    exact ⟨newline_not_mem_next (Ne.symm other) first, ih no_break behind⟩

theorem exists_of_next_newline {x : Lexeme} {ts : List Token}
    (h : x.next '\n' = some (.clear, ts)) :
    ∃ us, ts = us ++ [Token.newline] ∧ Token.newline ∉ us := by
  cases x with
  | clear | comment | carriage =>
    cases h
    exact ⟨[], rfl, by simp⟩
  | bare s =>
    cases h
    exact ⟨[.bare s.reverse], rfl, by simp⟩
  | opening q second =>
    cases q <;> cases second <;> cases h
    all_goals exact ⟨[.line []], rfl, by simp⟩
  | line q s => cases q <;> cases h
  | block q s marks fresh =>
    match marks with
    | 0 | 1 | 2 => cases q <;> cases h
    | marks + 3 =>
      refine ⟨[.block (List.replicate marks q.mark ++ s).reverse], ?_, by simp⟩
      cases q <;> cases h <;> rfl
  | blockCarriage q s fresh => cases q <;> cases h
  | escape wide s => cases wide <;> cases h
  | code wide s left value => cases h
  | gap s ended => cases h
  | gapCarriage s => cases h

theorem OneLine.exists_of_after? {v : List Char} (line : OneLine v) {x : Lexeme} {ts : List Token}
    (h : Lexeme.clear.after? (v ++ ['\n']) = some (x, ts)) :
    x = .clear ∧ ∃ us, ts = us ++ [Token.newline] ∧ Token.newline ∉ us := by
  obtain rfl := line.closed x ts h
  rw [Lexeme.after?_append] at h
  obtain ⟨⟨y, us⟩, inside, behind⟩ := Option.bind_eq_some_iff.1 h
  obtain ⟨⟨z, ws⟩, last, same⟩ := Option.map_eq_some_iff.1 behind
  cases same
  have ended : y.next '\n' = some (.clear, ws) := by
    obtain ⟨⟨z, us'⟩, ended, rest⟩ := Option.bind_eq_some_iff.1 last
    cases rest
    simpa using ended
  obtain ⟨front, rfl, other⟩ := exists_of_next_newline ended
  refine ⟨rfl, us ++ front, (List.append_assoc ..).symm, ?_⟩
  rw [List.mem_append, not_or]
  exact ⟨newline_not_mem_after? line.no_break inside, other⟩

end Snapshot.Toml
