import Snapshot.Proofs.Comment.Normal
import Snapshot.Proofs.Declaration.Inert

/-!
# Sources written item by item

A source may be written from a list of items, one on a line: comments and plain declarations. Each
kind is met in the declarations that are written for it, and in nothing else, whatever they are
called.
-/

namespace Snapshot

structure Name where
  chars : List Char
  filled : chars ≠ []
  named : chars.all Kind.nameChar.has = true

/-- What a comment says: words with one space between them, no star at either end, and nothing that
closes the comment or begins a declaration. -/
structure Remark where
  words : List (List Char)
  filled : DocComment.AllWords words
  first : (DocComment.joined words).head? ≠ some '*'
  last : (DocComment.joined words).getLast? ≠ some '*'
  plain : ∀ w ∈ ["*/", "function", "const", "class", "interface"],
    ¬ w.toList <:+: DocComment.joined words

def Remark.text (d : Remark) : List Char := DocComment.joined d.words

inductive Form
  | function
  | classDef
  | interface
  deriving DecidableEq, Repr

namespace Form

def word : Form → String
  | function => "function"
  | classDef => "class"
  | interface => "interface"

def tail : Form → String
  | function => "() \x7b\x7d\n"
  | classDef | interface => " \x7b\x7d\n"

end Form

inductive Item
  | remark (d : Remark)
  | declared (f : Form) (n : Name)

namespace Item

def render : Item → List Char
  | remark d => "/** ".toList ++ d.text ++ " */\n".toList
  | declared f n =>
    "export ".toList ++ f.word.toList ++ " ".toList ++ n.chars ++ f.tail.toList

theorem render_remark (d : Remark) :
    (remark d).render = "/** ".toList ++ d.text ++ " */\n".toList := rfl

theorem render_declared (f : Form) (n : Name) : (declared f n).render =
    "export ".toList ++ f.word.toList ++ " ".toList ++ n.chars ++ f.tail.toList := rfl

def remark? : Item → Option Remark
  | remark d => some d
  | declared _ _ => none

end Item

def render (items : List Item) : List Char := items.flatMap Item.render

theorem render_cons (item : Item) (items : List Item) :
    render (item :: items) = item.render ++ render items := List.flatMap_cons

theorem render_concat (items : List Item) (item : Item) :
    render (items ++ [item]) = render items ++ item.render := by
  rw [render, List.flatMap_append, List.flatMap_singleton]
  rfl

namespace Kind
open Text

def form? : Kind → Option Form
  | function | component | hook | decorator => some .function
  | classDef => some .classDef
  | interface => some .interface
  | importClause => none

def reads : Kind → Name → Bool
  | hook, n => startsLikeHook n.chars
  | decorator, n => n.chars.head?.any capital.has && endsLikeDecorator n.chars
  | _, _ => true

theorem nameChar_name (n : Name) : ∀ c ∈ n.chars, nameChar.has c = true :=
  List.all_eq_true.1 n.named

theorem head?_name (n : Name) (t : List Char) : (n.chars ++ t).head?.any nameChar.has = true := by
  obtain ⟨c, s, hs⟩ := List.exists_cons_of_ne_nil n.filled
  rw [hs]
  exact nameChar_name n c (by rw [hs]; exact List.mem_cons_self)

theorem blank_name (n : Name) (t : List Char) : (n.chars ++ t).head?.any isBlank = false := by
  obtain ⟨c, s, hs⟩ := List.exists_cons_of_ne_nil n.filled
  rw [hs]
  exact isBlank_eq_false_of_nameChar (nameChar_name n c (by rw [hs]; exact List.mem_cons_self))

theorem head?_tail (f : Form) (rest : List Char) :
    (f.tail.toList ++ rest).head?.any nameChar.has = false := by
  cases f <;> rfl

theorem takeWhile_name (n : Name) (f : Form) (rest : List Char) :
    (n.chars ++ (f.tail.toList ++ rest)).takeWhile nameChar.has = n.chars :=
  takeWhile_run (nameChar_name n) (head?_tail f rest)

theorem dropWhile_name (n : Name) (f : Form) (rest : List Char) :
    (n.chars ++ (f.tail.toList ++ rest)).dropWhile nameChar.has = f.tail.toList ++ rest := by
  rw [List.dropWhile_append_of_pos (nameChar_name n), dropWhile_eq_self (head?_tail f rest)]

theorem afterName?_name (n : Name) (f : Form) (rest : List Char) :
    afterName? (n.chars ++ (f.tail.toList ++ rest)) = some (f.tail.toList ++ rest) := by
  rw [afterName?, if_pos (head?_name n _), dropWhile_name]

theorem startsLikeHook_append (s t : List Char) :
    startsLikeHook (s ++ '(' :: t) = startsLikeHook s := by
  rw [Bool.eq_iff_iff, startsLikeHook_iff, startsLikeHook_iff]
  constructor
  · rintro ⟨c, rest, same, hc⟩
    rcases s with _ | ⟨c₁, _ | ⟨c₂, _ | ⟨c₃, _ | ⟨c₄, s⟩⟩⟩⟩
    · simp at same
    · simp at same
    · simp at same
    · obtain ⟨-, -, -, rfl, -⟩ : c₁ = 'u' ∧ c₂ = 's' ∧ c₃ = 'e' ∧ '(' = c ∧ t = rest := by
        simpa using same
      have paren : capital.has '(' = false := by decide
      rw [paren] at hc
      exact Bool.noConfusion hc
    · obtain ⟨rfl, rfl, rfl, rfl, -⟩ :
          c₁ = 'u' ∧ c₂ = 's' ∧ c₃ = 'e' ∧ c₄ = c ∧ s ++ '(' :: t = rest := by simpa using same
      exact ⟨c₄, s, rfl, hc⟩
  · rintro ⟨c, rest, rfl, hc⟩
    exact ⟨c, rest ++ '(' :: t, rfl, hc⟩

def remainder : Kind → String
  | function | classDef | interface => " \x7b\x7d\n"
  | component => "\x7d\n"
  | hook | decorator | importClause => "() \x7b\x7d\n"

theorem isWord_paren : isWord '(' = false := by decide +kernel

theorem afterNamed?_name {k : Kind} {f : Form} (hf : k.form? = some f) (n : Name)
    (rest : List Char) : k.afterNamed? (n.chars ++ (f.tail.toList ++ rest)) =
      if k.reads n then some (k.remainder.toList ++ rest) else none := by
  have name := afterName?_name n f rest
  cases k with
  | function =>
    obtain rfl := Option.some.inj hf
    rw [afterNamed?, name]
    rfl
  | component =>
    obtain rfl := Option.some.inj hf
    rw [afterNamed?, name]
    rfl
  | hook =>
    obtain rfl := Option.some.inj hf
    have hook := startsLikeHook_append n.chars (") \x7b\x7d\n".toList ++ rest)
    rw [afterNamed?, name]
    exact congrArg (fun b => if b = true then _ else none) hook
  | decorator =>
    obtain rfl := Option.some.inj hf
    have first : (n.chars ++ (Form.function.tail.toList ++ rest)).head? = n.chars.head? := by
      rw [List.head?_append_of_ne_nil _ n.filled]
    have behind : (Form.function.tail.toList ++ rest).head? = some '(' := rfl
    rw [afterNamed?, name, takeWhile_name, dropWhile_name, first, behind, Option.any_some,
      isWord_paren, Bool.not_false, Bool.and_true]
    rfl
  | classDef | interface =>
    obtain rfl := Option.some.inj hf
    exact name
  | importClause => simp [form?] at hf

theorem toList_space : " ".toList = [' '] := rfl

theorem declared_append (f : Form) (n : Name) (rest : List Char) :
    (Item.declared f n).render ++ rest =
      "export ".toList ++ (f.word.toList ++ ' ' :: (n.chars ++ (f.tail.toList ++ rest))) := by
  simp only [Item.render_declared, List.append_assoc, toList_space,
    List.cons_append, List.nil_append]

section Line
variable {k : Kind} {f : Form} {x : List Char} (h : x.head?.any isBlank = false)
include h

theorem named?_line (hf : k.form? = some f) :
    k.named? ("export ".toList ++ (f.word.toList ++ ' ' :: x)) = some x := by
  have hx := afterBlanks?_space h
  cases k with
  | importClause => simp [form?] at hf
  | _ => obtain rfl := Option.some.inj hf; exact hx

omit h in
theorem named?_other_line (hf : k.form? ≠ some f) :
    k.named? ("export ".toList ++ (f.word.toList ++ ' ' :: x)) = none := by
  cases f <;> cases k <;> first | rfl | exact absurd rfl hf

/-- Without the first word a line is either of the form of the kind still, or of none. -/
theorem named?_word {y : List Char} (hy : k.named? (f.word.toList ++ ' ' :: x) = some y) :
    k.form? = some f ∧ y = x := by
  have hx := afterBlanks?_space h
  cases f <;> cases k <;> first | exact ⟨rfl, Option.some.inj (hy.symm.trans hx)⟩ | cases hy

end Line

theorem shape?_eq_none {k : Kind} {s : List Char}
    (h : ∀ named, k.named? s = some named → k.afterNamed? named = none) : k.shape? s = none :=
  Option.bind_eq_none_iff.2 fun named hn => Option.map_eq_none_iff.2 (h named hn)

theorem dark_tail (f : Form) : f.tail.toList.any nameChar.has = false := by
  cases f <;> decide

theorem dark_remainder (k : Kind) : k.remainder.toList.any nameChar.has = false := by
  cases k <;> decide

theorem last_name (f : Form) (rest : List Char) :
    (f.tail.toList ++ rest).head?.any isBlank = true →
      (trimStart (f.tail.toList ++ rest)).head?.any nameChar.has = false := by
  cases f <;> intro _ <;> rfl

theorem inert_declared {k : Kind} {f : Form} {n : Name}
    (h : ¬ (k.form? = some f ∧ k.reads n = true)) (rest : List Char) :
    k.Inert (Item.declared f n).render rest := by
  have blank := blank_name n (f.tail.toList ++ rest)
  -- A declaration could begin only with the first word or the second.
  have unread : k.form? = some f → k.afterNamed? (n.chars ++ (f.tail.toList ++ rest)) = none := by
    intro hf
    rw [afterNamed?_name hf, if_neg fun reads => h ⟨hf, reads⟩]
  have from_word : k.shape? (f.word.toList ++ ' ' :: (n.chars ++ (f.tail.toList ++ rest))) = none :=
    shape?_eq_none fun named hn => by
      obtain ⟨hf, rfl⟩ := named?_word blank hn
      exact unread hf
  have from_start : k.shape?
      ("export ".toList ++ (f.word.toList ++ ' ' :: (n.chars ++ (f.tail.toList ++ rest)))) = none :=
    shape?_eq_none fun named hn => by
      by_cases hf : k.form? = some f
      · obtain rfl := Option.some.inj ((named?_line blank hf).symm.trans hn)
        exact unread hf
      · rw [named?_other_line hf] at hn
        exact absurd hn (Option.some_ne_none _).symm
  have known : f.word ∈ keywords ++ qualifiers := by cases f <;> decide
  have space : [' '].any nameChar.has = false := by decide
  have parts : (Item.declared f n).render = "export".toList ++ ([' '] ++ (f.word.toList ++
      ([' '] ++ (n.chars ++ f.tail.toList)))) := by
    have first : "export ".toList = "export".toList ++ [' '] := rfl
    simp only [Item.render_declared, first, List.append_assoc, toList_space]
  rw [parts]
  refine (inert_of_word (by decide) rfl ?_).append ((inert_of_no_name space _).append
    ((inert_of_word known rfl ?_).append ((inert_of_no_name space _).append
      ((inert_of_last (nameChar_name n) (head?_tail f rest) (last_name f rest)).append
        (inert_of_no_name (dark_tail f) rest)))))
  · simpa using from_start
  · simpa using from_word

theorem scan_declared {k : Kind} {f : Form} {n : Name} (hf : k.form? = some f)
    (reads : k.reads n = true) (start : Nat) (rest : List Char) :
    k.scan start ((Item.declared f n).render ++ rest) = (String.ofList n.chars, start) ::
      k.scan (start + byteSize (Item.declared f n).render) rest := by
  have shape : k.shape? ((Item.declared f n).render ++ rest) =
      some (n.chars ++ (f.tail.toList ++ rest), k.remainder.toList ++ rest) := by
    refine shape?_eq_some_iff.2 ⟨?_, ?_⟩
    · rw [declared_append, named?_line (blank_name n _) hf]
    · rw [afterNamed?_name hf, if_pos reads]
  -- Behind the declaration the scan goes on in the same line, where there are no names.
  have suffix : k.remainder.toList <:+ f.tail.toList := by
    cases k with
    | importClause => simp [form?] at hf
    | _ => obtain rfl := Option.some.inj hf; decide
  have le : byteSize k.remainder.toList ≤ byteSize (Item.declared f n).render :=
    byteSize_le (suffix.trans (Item.render_declared f n ▸ List.suffix_append _ _))
  have name : nameOf (n.chars ++ (f.tail.toList ++ rest)) = String.ofList n.chars :=
    congrArg String.ofList (takeWhile_name n f rest)
  have sizes : start + (byteSize ((Item.declared f n).render ++ rest) -
      byteSize (k.remainder.toList ++ rest)) + byteSize k.remainder.toList =
        start + byteSize (Item.declared f n).render := by
    rw [byteSize_append, byteSize_append]
    omega
  rw [scan_of_shape? shape, name, scan_of_inert (inert_of_no_name k.dark_remainder rest), sizes]

theorem infix_of_spaced {w : String} {d : List Char} (no_space : ' ' ∉ w.toList)
    (h : w.toList <:+: ' ' :: (d ++ [' '])) : w.toList <:+: d := by
  rcases List.infix_cons_iff.1 h with first | h
  · rcases List.prefix_cons_iff.1 first with empty | ⟨t, parts, -⟩
    · exact empty ▸ List.nil_infix
    · exact absurd (parts ▸ List.mem_cons_self) no_space
  rcases List.infix_concat_iff.1 h with last | h
  · rcases List.suffix_concat_iff.1 last with empty | ⟨t, parts, -⟩
    · exact empty ▸ List.nil_infix
    · exact absurd (parts ▸ List.mem_concat_self) no_space
  · exact h

theorem inert_remark {k : Kind} (d : Remark) (rest : List Char) :
    k.Inert (Item.remark d).render rest := by
  have clear : ∀ w ∈ keywords, ¬ w.toList <:+: ' ' :: (d.text ++ [' ']) := by
    intro w hw inside
    have plain : ∀ w ∈ keywords, ' ' ∉ w.toList := by decide
    exact d.plain w (List.mem_cons_of_mem _ hw) (infix_of_spaced (plain w hw) inside)
  have first : "/**".toList.any nameChar.has = false := by decide
  have last : "*/\n".toList.any nameChar.has = false := by decide
  have parts : (Item.remark d).render =
      "/**".toList ++ (' ' :: (d.text ++ [' ']) ++ "*/\n".toList) := by
    have opening : "/** ".toList = "/**".toList ++ [' '] := rfl
    have closing : " */\n".toList = [' '] ++ "*/\n".toList := rfl
    simp only [Item.render_remark, opening, closing, List.append_assoc, List.cons_append,
      List.nil_append]
  rw [parts]
  refine (inert_of_no_name first _).append (Inert.append ?_ (inert_of_no_name last _))
  exact inert_of_no_keyword clear _

def met? (k : Kind) : Item → Option Name
  | .remark _ => none
  | .declared f n => if k.form? = some f ∧ k.reads n = true then some n else none

theorem scan_item (k : Kind) (item : Item) (start : Nat) (rest : List Char) :
    k.scan start (item.render ++ rest) =
      ((k.met? item).map fun n => (String.ofList n.chars, start)).toList ++
        k.scan (start + byteSize item.render) rest := by
  cases item with
  | remark d => exact scan_of_inert (inert_remark d rest) start
  | declared f n =>
    by_cases h : k.form? = some f ∧ k.reads n = true
    · rw [met?, if_pos h, scan_declared h.1 h.2]
      rfl
    · rw [met?, if_neg h, scan_of_inert (inert_declared h rest)]
      rfl

end Kind

end Snapshot
