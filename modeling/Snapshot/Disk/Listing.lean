/-!
# Directory listings

A directory is the list of its entries in the order of their names: files, symbolic links, sinks and
further directories. A sink is a device that takes all that is written to it and keeps nothing.
Names are compared by code points, which is the order of their UTF-8 bytes. The statements say that
each change keeps a listing well formed.
-/

namespace Snapshot

def ValidName (name : String) : Prop :=
  name ≠ "" ∧ name ≠ "." ∧ name ≠ ".." ∧ '/' ∉ name.toList

instance (name : String) : Decidable (ValidName name) := inferInstanceAs (Decidable (_ ∧ _))

inductive Listing
  | nil
  | file (name : String) (content : ByteArray) (rest : Listing)
  | link (name target : String) (rest : Listing)
  | sink (name : String) (rest : Listing)
  | dir (name : String) (entries rest : Listing)
  deriving Inhabited

inductive Node
  | file (content : ByteArray)
  | link (target : String)
  | sink
  | dir (entries : Listing)
  deriving Inhabited

namespace Listing

def cons (name : String) (node : Node) (rest : Listing) : Listing :=
  match node with
  | .file content => file name content rest
  | .link target => link name target rest
  | .sink => sink name rest
  | .dir entries => dir name entries rest

def names : Listing → List String
  | nil => []
  | file name _ rest | link name _ rest | sink name rest | dir name _ rest => name :: rest.names

def find? (name : String) : Listing → Option Node
  | nil => none
  | file n content rest => if n = name then some (.file content) else rest.find? name
  | link n target rest => if n = name then some (.link target) else rest.find? name
  | sink n rest => if n = name then some .sink else rest.find? name
  | dir n entries rest => if n = name then some (.dir entries) else rest.find? name

/-- Puts an entry in its place; an entry of that name gives way. -/
def put (name : String) (node : Node) : Listing → Listing
  | nil => cons name node nil
  | file n content rest =>
    if n < name then file n content (rest.put name node)
    else cons name node (if n = name then rest else file n content rest)
  | link n target rest =>
    if n < name then link n target (rest.put name node)
    else cons name node (if n = name then rest else link n target rest)
  | sink n rest =>
    if n < name then sink n (rest.put name node)
    else cons name node (if n = name then rest else sink n rest)
  | dir n entries rest =>
    if n < name then dir n entries (rest.put name node)
    else cons name node (if n = name then rest else dir n entries rest)

def erase (name : String) : Listing → Listing
  | nil => nil
  | file n content rest => if n = name then rest else file n content (rest.erase name)
  | link n target rest => if n = name then rest else link n target (rest.erase name)
  | sink n rest => if n = name then rest else sink n (rest.erase name)
  | dir n entries rest => if n = name then rest else dir n entries (rest.erase name)

def node? : Listing → List String → Option Node
  | es, [] => some (.dir es)
  | es, name :: path =>
    match es.find? name with
    | some (.dir entries) => entries.node? path
    | some node => if path.isEmpty then some node else none
    | none => none

def changeAt (change : Listing → Listing) : List String → Listing → Listing
  | [], es => change es
  | name :: path, es =>
    match es.find? name with
    | some (.dir entries) => es.put name (.dir (entries.changeAt change path))
    | _ => es

/-- Names are valid and in strictly increasing order, here and in every directory below. -/
def WellFormed : Listing → Prop
  | nil => True
  | file name _ rest | link name _ rest | sink name rest =>
    ValidName name ∧ (∀ n ∈ rest.names, name < n) ∧ rest.WellFormed
  | dir name entries rest =>
    ValidName name ∧ (∀ n ∈ rest.names, name < n) ∧ entries.WellFormed ∧ rest.WellFormed

end Listing

def Node.WellFormed : Node → Prop
  | file _ | link _ | sink => True
  | dir entries => entries.WellFormed

namespace Listing

theorem names_cons (name : String) (node : Node) (rest : Listing) :
    (cons name node rest).names = name :: rest.names := by
  cases node <;> rfl

theorem wellFormed_cons (name : String) (node : Node) (rest : Listing) :
    (cons name node rest).WellFormed ↔
      ValidName name ∧ (∀ n ∈ rest.names, name < n) ∧ node.WellFormed ∧ rest.WellFormed := by
  cases node <;> simp [cons, WellFormed, Node.WellFormed]

theorem mem_names_put {name : String} {node : Node} {es : Listing} {n : String}
    (h : n ∈ (es.put name node).names) : n = name ∨ n ∈ es.names := by
  induction es with
  | nil => simpa [put, names_cons, names] using h
  | file m _ _ ih | link m _ _ ih | sink m _ ih | dir m _ _ _ ih =>
    simp only [put] at h
    split at h
    · rcases List.mem_cons.1 h with rfl | h
      · exact .inr (List.mem_cons_self ..)
      · exact (ih h).imp_right (List.mem_cons_of_mem _)
    · rw [names_cons] at h
      rcases List.mem_cons.1 h with rfl | h
      · exact .inl rfl
      · split at h
        · exact .inr (List.mem_cons_of_mem _ h)
        · exact .inr h

theorem mem_names_of_mem_erase {name n : String} {es : Listing} (h : n ∈ (es.erase name).names) :
    n ∈ es.names := by
  induction es with
  | nil => exact h
  | file m _ _ ih | link m _ _ ih | sink m _ ih | dir m _ _ _ ih =>
    simp only [erase] at h
    split at h
    · exact List.mem_cons_of_mem _ h
    · rcases List.mem_cons.1 h with rfl | h
      · exact List.mem_cons_self ..
      · exact List.mem_cons_of_mem _ (ih h)

theorem lt_of_lt_names {name m : String} {ns : List String} (hm : ¬ m < name) (ne : m ≠ name)
    (above : ∀ n ∈ ns, m < n) : ∀ n ∈ m :: ns, name < n := by
  have h : name < m := ((Std.lt_trichotomy m name).resolve_left hm).resolve_left ne
  intro n hn
  rcases List.mem_cons.1 hn with rfl | hn
  · exact h
  · exact String.lt_trans h (above n hn)

theorem WellFormed.put {name : String} {node : Node} {es : Listing} (valid : ValidName name)
    (hnode : node.WellFormed) (h : es.WellFormed) : (es.put name node).WellFormed := by
  induction es with
  | nil => simpa [Listing.put, wellFormed_cons, names, WellFormed] using ⟨valid, hnode⟩
  | file m _ _ ih | link m _ _ ih | sink m _ ih =>
    simp only [Listing.put]
    split
    · rename_i lt
      refine ⟨h.1, fun n hn => ?_, ih h.2.2⟩
      rcases mem_names_put hn with rfl | hn
      · exact lt
      · exact h.2.1 n hn
    · rename_i nlt
      rw [wellFormed_cons]
      split
      · rename_i eq
        subst eq
        exact ⟨valid, h.2.1, hnode, h.2.2⟩
      · rename_i ne
        exact ⟨valid, lt_of_lt_names nlt ne h.2.1, hnode, h⟩
  | dir m _ _ _ ih =>
    simp only [Listing.put]
    split
    · rename_i lt
      refine ⟨h.1, fun n hn => ?_, h.2.2.1, ih h.2.2.2⟩
      rcases mem_names_put hn with rfl | hn
      · exact lt
      · exact h.2.1 n hn
    · rename_i nlt
      rw [wellFormed_cons]
      split
      · rename_i eq
        subst eq
        exact ⟨valid, h.2.1, hnode, h.2.2.2⟩
      · rename_i ne
        exact ⟨valid, lt_of_lt_names nlt ne h.2.1, hnode, h⟩

theorem WellFormed.erase {name : String} {es : Listing} (h : es.WellFormed) :
    (es.erase name).WellFormed := by
  induction es with
  | nil => exact h
  | file m _ _ ih | link m _ _ ih | sink m _ ih =>
    simp only [Listing.erase]
    split
    · exact h.2.2
    · exact ⟨h.1, fun n hn => h.2.1 n (mem_names_of_mem_erase hn), ih h.2.2⟩
  | dir m _ _ _ ih =>
    simp only [Listing.erase]
    split
    · exact h.2.2.2
    · exact ⟨h.1, fun n hn => h.2.1 n (mem_names_of_mem_erase hn), h.2.2.1, ih h.2.2.2⟩

theorem WellFormed.find? {name : String} {node : Node} {es : Listing} (h : es.WellFormed)
    (found : es.find? name = some node) : ValidName name ∧ node.WellFormed := by
  induction es with
  | nil => simp [Listing.find?] at found
  | file m _ _ ih | link m _ _ ih | sink m _ ih =>
    simp only [Listing.find?] at found
    split at found
    · rename_i eq
      subst eq
      cases found
      exact ⟨h.1, trivial⟩
    · exact ih h.2.2 found
  | dir m _ _ _ ih =>
    simp only [Listing.find?] at found
    split at found
    · rename_i eq
      subst eq
      cases found
      exact ⟨h.1, h.2.2.1⟩
    · exact ih h.2.2.2 found

theorem WellFormed.changeAt {change : Listing → Listing}
    (hchange : ∀ es : Listing, es.WellFormed → (change es).WellFormed) :
    ∀ (path : List String) {es : Listing}, es.WellFormed → (es.changeAt change path).WellFormed
  | [], es, h => hchange es h
  | name :: path, es, h => by
    simp only [Listing.changeAt]
    split
    · rename_i entries found
      obtain ⟨valid, hentries⟩ := h.find? found
      exact h.put valid (WellFormed.changeAt hchange path hentries)
    · exact h

end Listing

end Snapshot
