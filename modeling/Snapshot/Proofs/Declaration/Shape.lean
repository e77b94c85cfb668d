import Snapshot.Extraction
import Snapshot.Proofs.Text.Reading

/-!
# Shapes of declarations

What a declaration of each kind looks like, told by reading from the left without ever going back.
`Kind.shape?` says whether a text begins with a declaration, `Kind.scan` goes through a whole text:
it goes on behind each declaration, and where there is none at the next character.
-/

namespace Snapshot.Kind
open Text

def afterName? (s : List Char) : Option (List Char) :=
  if s.head?.any nameChar.has then some (s.dropWhile nameChar.has) else none

def afterParameters? (s : List Char) : Option (List Char) :=
  (after? "(" s).bind fun s => after? ")" (s.dropWhile (· != ')'))

def afterArrow? (s : List Char) : Option (List Char) :=
  (afterName? s).bind fun s => after? "=>" (trimStart s)

def afterSignature? (s : List Char) : Option (List Char) :=
  match after? "=" (trimStart s) with
  | none => afterParameters? (trimStart s)
  | some s =>
    if (trimStart s).head? = some '(' then afterParameters? (trimStart s)
    else afterArrow? (trimStart s)

def afterBrace? (s : List Char) : Option (List Char) :=
  let s := trimStart s
  after? "\x7b" (trimStart ((after? "=>" s).getD s))

def afterKeyword? (words : List String) (s : List Char) : Option (List Char) :=
  (words.findSome? (after? · s)).bind afterBlanks?

/-- Whether a name ends as that of a decorator does, and does not begin with this ending. -/
def endsLikeDecorator (name : List Char) : Bool :=
  ["Module", "Decorator"].any fun ending =>
    ending.toList.isSuffixOf name && decide (ending.toList.length < name.length)

def named? : Kind → List Char → Option (List Char)
  | function, s =>
    afterKeyword? ["function", "const"] (skipQualifier "async" (skipQualifier "export" s))
  | component, s | hook, s => afterKeyword? ["function", "const"] (skipQualifier "export" s)
  | classDef, s => afterKeyword? ["class"] (skipQualifier "export" s)
  | interface, s => afterKeyword? ["interface"] (skipQualifier "export" s)
  | decorator, s => (afterKeyword? ["export"] s).bind (afterKeyword? ["function"])
  | importClause, _ => none

def afterNamed? : Kind → List Char → Option (List Char)
  | function, s => (afterName? s).bind afterSignature?
  | component, s => ((afterName? s).bind afterSignature?).bind afterBrace?
  | hook, s => if startsLikeHook s then afterName? s else none
  | classDef, s | interface, s => afterName? s
  | decorator, s =>
    if s.head?.any capital.has && endsLikeDecorator (s.takeWhile nameChar.has) &&
        !(s.dropWhile nameChar.has).head?.any isWord then afterName? s
    else none
  | importClause, _ => none

/-- If the text begins with a declaration, the text from its name on and the text behind it. -/
def shape? (k : Kind) (s : List Char) : Option (List Char × List Char) :=
  (k.named? s).bind fun named => (k.afterNamed? named).map fun rest => (named, rest)

def nameOf (named : List Char) : String := String.ofList (named.takeWhile nameChar.has)

theorem eq_of_afterName? {s rest : List Char} (h : afterName? s = some rest) :
    rest = s.dropWhile nameChar.has := by
  unfold afterName? at h
  split at h
  · exact (Option.some.inj h).symm
  · simp at h

theorem suffix_of_afterName? {s rest : List Char} (h : afterName? s = some rest) :
    rest <:+ s ∧ rest.length < s.length := by
  obtain rfl := eq_of_afterName? h
  cases s with
  | nil => simp [afterName?] at h
  | cons c s =>
    have hc : nameChar.has c = true := by
      cases hc : nameChar.has c with
      | true => rfl
      | false => simp [afterName?, hc] at h
    rw [List.dropWhile_cons_of_pos hc, List.length_cons]
    have inner : s.dropWhile nameChar.has <:+ s := List.dropWhile_suffix _
    exact ⟨inner.trans (List.suffix_cons c s), Nat.lt_succ_of_le inner.length_le⟩

theorem suffix_of_afterParameters? {s rest : List Char} (h : afterParameters? s = some rest) :
    rest <:+ s := by
  obtain ⟨mid, h₁, h₂⟩ := Option.bind_eq_some_iff.1 h
  exact (suffix_of_after? h₂).trans ((List.dropWhile_suffix _).trans (suffix_of_after? h₁))

theorem suffix_of_afterArrow? {s rest : List Char} (h : afterArrow? s = some rest) :
    rest <:+ s := by
  obtain ⟨mid, h₁, h₂⟩ := Option.bind_eq_some_iff.1 h
  exact (suffix_of_after? h₂).trans ((trimStart_suffix mid).trans (suffix_of_afterName? h₁).1)

theorem suffix_of_afterSignature? {s rest : List Char} (h : afterSignature? s = some rest) :
    rest <:+ s := by
  unfold afterSignature? at h
  split at h
  · exact (suffix_of_afterParameters? h).trans (trimStart_suffix s)
  · rename_i r hr
    have hr := (trimStart_suffix r).trans ((suffix_of_after? hr).trans (trimStart_suffix s))
    split at h
    · exact (suffix_of_afterParameters? h).trans hr
    · exact (suffix_of_afterArrow? h).trans hr

theorem suffix_of_afterBrace? {s rest : List Char} (h : afterBrace? s = some rest) :
    rest <:+ s := by
  refine (suffix_of_after? h).trans ((trimStart_suffix _).trans ?_)
  cases arrow : after? "=>" (trimStart s) with
  | none => exact trimStart_suffix s
  | some r => exact (suffix_of_after? arrow).trans (trimStart_suffix s)

theorem exists_of_afterKeyword? {words : List String} {s rest : List Char}
    (h : afterKeyword? words s = some rest) :
    ∃ w ∈ words, ∃ r, s = w.toList ++ r ∧ r.head?.any isBlank = true ∧ trimStart r = rest := by
  obtain ⟨r, found, behind⟩ := Option.bind_eq_some_iff.1 h
  obtain ⟨w, hw, found⟩ := List.exists_of_findSome?_eq_some found
  exact ⟨w, hw, afterWord?_eq_some_iff.1 (Option.bind_eq_some_iff.2 ⟨r, found, behind⟩)⟩

theorem suffix_of_afterKeyword? {words : List String} {s rest : List Char}
    (h : afterKeyword? words s = some rest) : rest <:+ s := by
  obtain ⟨w, -, r, rfl, -, rfl⟩ := exists_of_afterKeyword? h
  exact (trimStart_suffix r).trans (List.suffix_append _ r)

theorem suffix_of_named? {k : Kind} {s named : List Char} (h : k.named? s = some named) :
    named <:+ s := by
  cases k with
  | function =>
    exact (suffix_of_afterKeyword? h).trans
      ((skipQualifier_suffix _ _).trans (skipQualifier_suffix _ _))
  | component | hook | classDef | interface =>
    exact (suffix_of_afterKeyword? h).trans (skipQualifier_suffix _ _)
  | decorator =>
    obtain ⟨mid, h₁, h₂⟩ := Option.bind_eq_some_iff.1 h
    exact (suffix_of_afterKeyword? h₂).trans (suffix_of_afterKeyword? h₁)
  | importClause => simp [named?] at h

theorem suffix_of_afterNamed? {k : Kind} {named rest : List Char}
    (h : k.afterNamed? named = some rest) :
    rest <:+ named.dropWhile nameChar.has ∧ rest.length < named.length := by
  have behind : ∀ {r}, afterName? named = some r → rest <:+ r →
      rest <:+ named.dropWhile nameChar.has ∧ rest.length < named.length := by
    intro r hr hs
    exact ⟨eq_of_afterName? hr ▸ hs, hs.length_le.trans_lt (suffix_of_afterName? hr).2⟩
  cases k with
  | function =>
    obtain ⟨r, h₁, h₂⟩ := Option.bind_eq_some_iff.1 h
    exact behind h₁ (suffix_of_afterSignature? h₂)
  | component =>
    obtain ⟨r', h', h₃⟩ := Option.bind_eq_some_iff.1 h
    obtain ⟨r, h₁, h₂⟩ := Option.bind_eq_some_iff.1 h'
    exact behind h₁ ((suffix_of_afterBrace? h₃).trans (suffix_of_afterSignature? h₂))
  | hook | decorator =>
    simp only [afterNamed?] at h
    split at h
    · exact behind h List.suffix_rfl
    · simp at h
  | classDef | interface => exact behind h List.suffix_rfl
  | importClause => simp [afterNamed?] at h

theorem shape?_eq_some_iff {k : Kind} {s named rest : List Char} :
    k.shape? s = some (named, rest) ↔
      k.named? s = some named ∧ k.afterNamed? named = some rest := by
  constructor
  · intro h
    obtain ⟨n, hn, h⟩ := Option.bind_eq_some_iff.1 h
    obtain ⟨r, hr, h⟩ := Option.map_eq_some_iff.1 h
    obtain ⟨rfl, rfl⟩ := Prod.mk.inj h
    exact ⟨hn, hr⟩
  · rintro ⟨hn, hr⟩
    simp [shape?, hn, hr]

theorem suffix_of_shape? {k : Kind} {s named rest : List Char}
    (h : k.shape? s = some (named, rest)) : rest <:+ s ∧ rest.length < s.length := by
  obtain ⟨hn, hr⟩ := shape?_eq_some_iff.1 h
  obtain ⟨suffix, shorter⟩ := suffix_of_afterNamed? hr
  have hn := suffix_of_named? hn
  exact ⟨suffix.trans ((List.dropWhile_suffix _).trans hn), shorter.trans_le hn.length_le⟩

/-- The names of the declarations in a text, each with the byte offset at which its declaration
begins; `start` is the offset of the text itself. -/
def scan (k : Kind) (start : Nat) (s : List Char) : List (String × Nat) :=
  match s with
  | [] => []
  | c :: s =>
    match _shape : k.shape? (c :: s) with
    | some (named, rest) =>
      (nameOf named, start) :: k.scan (start + (byteSize (c :: s) - byteSize rest)) rest
    | none => k.scan (start + c.utf8Size) s
termination_by s.length
decreasing_by
  · exact (suffix_of_shape? _shape).2
  · simp

end Snapshot.Kind
