import Mathlib.Data.List.Sort
import Snapshot.Disk.Walk
import Snapshot.Proofs.Text.ByteOrder

/-!
# The entries below a directory

A walk comes to the entries that are no directories and that are not below a refused directory. It
comes to them in the order of their names: an entry is told by the names on the way to it, and two
of them are compared at the first name that differs, byte by byte. It comes to no fault exactly if
every directory that it enters can be listed.
-/

namespace Snapshot

def Path.joins (dir : String) (names : List String) : String := names.foldl Path.join dir

def Path.bytes (names : List String) : List (List UInt8) := names.map Text.utf8

def Node.isDir : Node → Bool
  | dir _ => true
  | file _ | link _ | sink => false

def Entered (enter : List String → Bool) (names : List String) : Prop :=
  ∀ p, p <+: names → p ≠ [] → p ≠ names → enter p = true

theorem entered_singleton (enter : List String → Bool) (name : String) : Entered enter [name] := by
  intro p hp ne whole
  cases p with
  | nil => exact absurd rfl ne
  | cons m p =>
    obtain ⟨rfl, inner⟩ := List.cons_prefix_cons.1 hp
    rw [List.prefix_nil.1 inner] at whole
    exact absurd rfl whole

theorem entered_and_enter {enter : List String → Bool} {names : List String} (ne : names ≠ []) :
    Entered enter names ∧ enter names = true ↔ ∀ p, p <+: names → p ≠ [] → enter p = true := by
  constructor
  · rintro ⟨before, last⟩ p hp filled
    by_cases whole : p = names
    · exact whole ▸ last
    · exact before p hp filled whole
  · intro all
    exact ⟨fun p hp filled _ => all p hp filled, all names (List.prefix_refl names) ne⟩

theorem entered_cons {enter : List String → Bool} {name : String} {names : List String}
    (ne : names ≠ []) :
    Entered enter (name :: names) ↔
      enter [name] = true ∧ Entered (fun p => enter (name :: p)) names := by
  constructor
  · intro h
    refine ⟨h [name] ⟨names, rfl⟩ (List.cons_ne_nil _ _) fun same => ?_, fun p hp _ whole => ?_⟩
    · exact ne (List.cons.inj same).2.symm
    · apply h (name :: p) ((List.prefix_cons_inj name).2 hp) (List.cons_ne_nil _ _)
      intro same
      exact whole (List.cons.inj same).2
  · rintro ⟨first, further⟩ p hp hne whole
    cases p with
    | nil => exact absurd rfl hne
    | cons m p =>
      obtain ⟨rfl, inner⟩ := List.cons_prefix_cons.1 hp
      by_cases hp' : p = []
      · rw [hp']
        exact first
      · exact further p inner hp' fun same => whole (by rw [same])

namespace Listing

/-- The entries that a walk comes to, each told by the names on the way to it. -/
def entriesBelow (enter : List String → Bool) : Listing → List (List String)
  | nil => []
  | file name _ rest | link name _ rest | sink name rest => [name] :: rest.entriesBelow enter
  | dir name entries rest =>
    (if enter [name] then (entries.entriesBelow fun names => enter (name :: names)).map (name :: ·)
      else []) ++ rest.entriesBelow enter

theorem node?_eq_none {name : String} {es : Listing} (h : name ∉ es.names) (path : List String) :
    es.node? (name :: path) = none := by
  have absent : es.find? name = none := by
    induction es with
    | nil => rfl
    | file m _ _ ih | link m _ _ ih | sink m _ ih | dir m _ _ _ ih =>
      have ne : m ≠ name := fun same => h (same ▸ List.mem_cons_self)
      rw [find?, if_neg ne]
      exact ih fun hm => h (List.mem_cons_of_mem _ hm)
  rw [node?, absent]

theorem node?_file (m : String) (content : ByteArray) (rest : Listing) (name : String)
    (path : List String) :
    (file m content rest).node? (name :: path) =
      if m = name then (if path.isEmpty then some (.file content) else none)
      else rest.node? (name :: path) := by
  by_cases h : m = name <;> simp [node?, find?, h]

theorem node?_link (m target : String) (rest : Listing) (name : String) (path : List String) :
    (link m target rest).node? (name :: path) =
      if m = name then (if path.isEmpty then some (.link target) else none)
      else rest.node? (name :: path) := by
  by_cases h : m = name <;> simp [node?, find?, h]

theorem node?_sink (m : String) (rest : Listing) (name : String) (path : List String) :
    (sink m rest).node? (name :: path) =
      if m = name then (if path.isEmpty then some .sink else none)
      else rest.node? (name :: path) := by
  by_cases h : m = name <;> simp [node?, find?, h]

theorem node?_dir (m : String) (entries rest : Listing) (name : String) (path : List String) :
    (dir m entries rest).node? (name :: path) =
      if m = name then entries.node? path else rest.node? (name :: path) := by
  by_cases h : m = name <;> simp [node?, find?, h]

theorem cons_of_mem_entriesBelow {enter : List String → Bool} {names : List String} {es : Listing}
    (h : names ∈ es.entriesBelow enter) : ∃ name path, names = name :: path ∧ name ∈ es.names := by
  induction es with
  | nil => simp [entriesBelow] at h
  | file m _ _ ih | link m _ _ ih | sink m _ ih =>
    rcases List.mem_cons.1 h with rfl | h
    · exact ⟨m, [], rfl, List.mem_cons_self⟩
    · obtain ⟨name, path, rfl, hn⟩ := ih h
      exact ⟨name, path, rfl, List.mem_cons_of_mem _ hn⟩
  | dir m entries _ _ ih =>
    rcases List.mem_append.1 h with h | h
    · split at h
      · obtain ⟨path, -, rfl⟩ := List.mem_map.1 h
        exact ⟨m, path, rfl, List.mem_cons_self⟩
      · simp at h
    · obtain ⟨name, path, rfl, hn⟩ := ih h
      exact ⟨name, path, rfl, List.mem_cons_of_mem _ hn⟩

theorem not_mem_of_lt {m : String} {rest : Listing} (h : ∀ n ∈ rest.names, m < n) :
    m ∉ rest.names := fun hm => String.lt_irrefl m (h m hm)

theorem ne_of_node? {m name : String} {rest : Listing} {path : List String} {node : Node}
    (above : ∀ n ∈ rest.names, m < n) (h : rest.node? (name :: path) = some node) : m ≠ name := by
  rintro rfl
  rw [node?_eq_none (not_mem_of_lt above)] at h
  cases h

theorem mem_entriesBelow {enter : List String → Bool} {names : List String} {es : Listing}
    (h : es.WellFormed) :
    names ∈ es.entriesBelow enter ↔
      (∃ node, es.node? names = some node ∧ node.isDir = false) ∧ Entered enter names := by
  induction es generalizing enter names with
  | nil => cases names <;> simp [entriesBelow, node?, find?, Node.isDir]
  | file m _ rest ih | link m _ rest ih | sink m rest ih =>
    obtain ⟨-, above, hrest⟩ := h
    rw [entriesBelow, List.mem_cons, ih hrest]
    cases names with
    | nil => simp [node?, Node.isDir]
    | cons name path =>
      simp only [node?_file, node?_link, node?_sink]
      by_cases same : m = name
      · subst same
        rw [node?_eq_none (not_mem_of_lt above)]
        cases path with
        | nil => simp [Node.isDir, entered_singleton]
        | cons p ps => simp
      · simp [same, Ne.symm same]
  | dir m entries rest ihe ih =>
    obtain ⟨-, above, hentries, hrest⟩ := h
    rw [entriesBelow, List.mem_append, ih hrest]
    cases names with
    | nil =>
      have no_empty : [] ∉ (if enter [m] then (entries.entriesBelow fun names =>
          enter (m :: names)).map (m :: ·) else []) := by
        split <;> simp
      simp [no_empty, node?, Node.isDir]
    | cons name path =>
      have inside : (name :: path ∈ if enter [m] then (entries.entriesBelow fun names =>
          enter (m :: names)).map (m :: ·) else []) ↔ m = name ∧ enter [m] = true ∧
            path ∈ entries.entriesBelow fun names => enter (m :: names) := by
        split
        · rename_i into
          simp only [List.mem_map, List.cons.injEq, into, true_and]
          constructor
          · rintro ⟨_, hq, same, rfl⟩
            exact ⟨same, hq⟩
          · rintro ⟨same, hq⟩
            exact ⟨path, hq, same, rfl⟩
        · rename_i out
          simp [out]
      rw [inside, node?_dir]
      by_cases same : m = name
      · subst same
        rw [node?_eq_none (not_mem_of_lt above), if_pos rfl, ihe hentries]
        by_cases hpath : path = []
        · simp [hpath, node?, Node.isDir]
        · rw [entered_cons hpath]
          simp only [true_and, reduceCtorEq, false_and, exists_false, or_false]
          exact and_left_comm
      · simp [same]

theorem pairwise_entriesBelow {enter : List String → Bool} {es : Listing} (h : es.WellFormed) :
    (es.entriesBelow enter).Pairwise fun a b => Path.bytes a < Path.bytes b := by
  induction es generalizing enter with
  | nil => exact List.Pairwise.nil
  | file m _ rest ih | link m _ rest ih | sink m rest ih =>
    obtain ⟨-, above, hrest⟩ := h
    refine List.pairwise_cons.2 ⟨fun names hnames => ?_, ih hrest⟩
    obtain ⟨name, path, rfl, hname⟩ := cons_of_mem_entriesBelow hnames
    exact List.cons_lt_cons_iff.2 (.inl (Text.utf8_lt (above name hname)))
  | dir m entries rest ihe ih =>
    obtain ⟨-, above, hentries, hrest⟩ := h
    refine List.pairwise_append.2 ⟨?_, ih hrest, fun a ha b hb => ?_⟩
    · split
      · refine List.pairwise_map.2 ((ihe hentries).imp fun lt => ?_)
        exact List.cons_lt_cons_iff.2 (.inr ⟨rfl, lt⟩)
      · exact List.Pairwise.nil
    · obtain ⟨name, path, rfl, hname⟩ := cons_of_mem_entriesBelow hb
      split at ha
      · obtain ⟨inner, -, rfl⟩ := List.mem_map.1 ha
        exact List.cons_lt_cons_iff.2 (.inl (Text.utf8_lt (above name hname)))
      · simp at ha

def Listable (l : Limits) (enter : List String → Bool) (place : List String) (path : String)
    (es : Listing) : Prop :=
  ∀ names inner, es.node? names = some (.dir inner) → names ≠ [] → Entered enter names →
    enter names = true → l.listing (place ++ names) (Path.joins path names) = none

section Listable
variable {l : Limits} {enter : List String → Bool} {place : List String} {path : String}

theorem Listable.of_rest {es rest : Listing} (h : es.Listable l enter place path)
    (same : ∀ name names, name ∈ rest.names →
      es.node? (name :: names) = rest.node? (name :: names)) :
    rest.Listable l enter place path := by
  intro names inner hdir ne
  cases names with
  | nil => exact absurd rfl ne
  | cons name names =>
    have known : name ∈ rest.names := by
      by_contra absent
      rw [node?_eq_none absent] at hdir
      cases hdir
    exact h _ inner ((same name names known).trans hdir) ne

theorem listable_dir {m : String} {entries rest : Listing} (absent : m ∉ rest.names) :
    (dir m entries rest).Listable l enter place path ↔
      (enter [m] = true → l.listing (place ++ [m]) (Path.join path m) = none ∧
        entries.Listable l (fun names => enter (m :: names)) (place ++ [m]) (Path.join path m)) ∧
      rest.Listable l enter place path := by
  constructor
  · refine fun h => ⟨fun into => ⟨?_, fun names inner hdir ne entered last => ?_⟩, ?_⟩
    · exact h [m] entries (by simp [node?, find?]) (List.cons_ne_nil _ _)
        (entered_singleton enter m) into
    · have there : (dir m entries rest).node? (m :: names) = some (.dir inner) := by
        rw [node?_dir, if_pos rfl, hdir]
      have fault := h (m :: names) inner there (List.cons_ne_nil _ _)
        ((entered_cons ne).2 ⟨into, entered⟩) last
      rwa [List.append_assoc, List.singleton_append]
    · refine h.of_rest fun name names known => ?_
      have ne : m ≠ name := fun same => absent (same ▸ known)
      rw [node?_dir, if_neg ne]
  · rintro ⟨inside, behind⟩ names inner hdir ne entered last
    cases names with
    | nil => exact absurd rfl ne
    | cons name names =>
      rw [node?_dir] at hdir
      by_cases same : m = name
      · subst same
        rw [if_pos rfl] at hdir
        by_cases hn : names = []
        · rw [hn] at last ⊢
          exact (inside last).1
        · obtain ⟨into, entered⟩ := (entered_cons hn).1 entered
          have fault := (inside into).2 names inner hdir hn entered last
          rwa [List.append_assoc, List.singleton_append] at fault
      · rw [if_neg same] at hdir
        exact behind _ inner hdir ne entered last

end Listable

section Walk
variable {l : Limits} (enter : String → Bool) {place : List String} {path : String}
  {es : Listing} (h : es.WellFormed)
include h

theorem walk_of_listable
    (listable : es.Listable l (fun names => enter (Path.joins path names)) place path) :
    es.walk l enter place path =
      (es.entriesBelow fun names => enter (Path.joins path names)).map
        fun names => .ok (Path.joins path names) := by
  induction es generalizing place path with
  | nil => rfl
  | file m _ rest ih | link m _ rest ih | sink m rest ih =>
    obtain ⟨-, above, hrest⟩ := h
    have behind : rest.Listable l _ place path := listable.of_rest fun name names known => by
      simp [node?_file, node?_link, node?_sink, (String.ne_of_lt (above name known))]
    rw [walk, entriesBelow, List.map_cons, ih hrest behind]
    rfl
  | dir m entries rest ihe ih =>
    obtain ⟨-, above, hentries, hrest⟩ := h
    obtain ⟨inside, behind⟩ := (listable_dir (not_mem_of_lt above)).1 listable
    rw [walk, entriesBelow, List.map_append, ih hrest behind]
    refine congrArg (· ++ _) ?_
    by_cases into : enter (Path.join path m) = true
    · obtain ⟨listed, further⟩ := inside into
      have into' : enter (Path.joins path [m]) = true := into
      rw [if_pos into, if_pos into', Limits.list, listed, ihe hentries further, List.map_map]
      rfl
    · have into' : ¬ enter (Path.joins path [m]) = true := into
      rw [if_neg into, if_neg into']
      rfl

theorem listable_of_walk (faultless : ∀ e, .error e ∉ es.walk l enter place path) :
    es.Listable l (fun names => enter (Path.joins path names)) place path := by
  induction es generalizing place path with
  | nil =>
    rintro (_ | ⟨name, names⟩) inner hdir ne
    · exact absurd rfl ne
    · cases hdir
  | file m _ rest ih | link m _ rest ih | sink m rest ih =>
    have behind := ih h.2.2 fun e he => faultless e (List.mem_cons_of_mem _ he)
    rintro (_ | ⟨name, names⟩) inner hdir ne
    · exact absurd rfl ne
    · refine behind _ inner ?_ ne
      simp only [node?_file, node?_link, node?_sink] at hdir
      split_ifs at hdir
      · simp at hdir
      · exact hdir
  | dir m entries rest ihe ih =>
    obtain ⟨-, above, hentries, hrest⟩ := h
    have behind := ih hrest fun e he => faultless e (List.mem_append_right _ he)
    refine (listable_dir (not_mem_of_lt above)).2 ⟨fun into => ?_, behind⟩
    have into : enter (Path.join path m) = true := into
    have inside := fun e he => faultless e (List.mem_append_left _ he)
    rw [if_pos into, Limits.list] at inside
    cases listed : l.listing (place ++ [m]) (Path.join path m) with
    | some fault =>
      rw [listed] at inside
      exact absurd (List.mem_singleton_self _) (inside _)
    | none =>
      rw [listed] at inside
      exact ⟨rfl, ihe hentries inside⟩

/-- A fault of a walk is that of a directory which it enters and cannot list. -/
theorem exists_dir_of_fault {e : WalkFault} (fault : .error e ∈ es.walk l enter place path) :
    ∃ names inner, es.node? names = some (.dir inner) ∧ names ≠ [] ∧
      Entered (fun names => enter (Path.joins path names)) names ∧
      enter (Path.joins path names) = true ∧ e.path = Path.joins path names ∧
      l.listing (place ++ names) e.path = some e.fault := by
  induction es generalizing place path with
  | nil => cases fault
  | file m _ rest ih | link m _ rest ih | sink m rest ih =>
    obtain ⟨-, above, hrest⟩ := h
    have behind := (List.mem_cons.1 fault).resolve_left fun same => nomatch same
    obtain ⟨names, inner, hdir, ne, told⟩ := ih hrest behind
    refine ⟨names, inner, ?_, ne, told⟩
    obtain ⟨name, names, rfl⟩ := List.exists_cons_of_ne_nil ne
    have other := ne_of_node? above hdir
    simpa only [node?_file, node?_link, node?_sink, if_neg other] using hdir
  | dir m entries rest ihe ih =>
    obtain ⟨-, above, hentries, hrest⟩ := h
    rcases List.mem_append.1 fault with inside | behind
    · by_cases into : enter (Path.join path m) = true
      · rw [if_pos into, Limits.list] at inside
        cases listed : l.listing (place ++ [m]) (Path.join path m) with
        | some fault =>
          rw [listed] at inside
          obtain rfl := Except.error.inj (List.mem_singleton.1 inside)
          exact ⟨[m], entries, by simp [node?, find?], List.cons_ne_nil _ _,
            entered_singleton _ m, into, rfl, listed⟩
        | none =>
          rw [listed] at inside
          obtain ⟨names, inner, hdir, ne, entered, last, same, fault⟩ := ihe hentries inside
          refine ⟨m :: names, inner, ?_, List.cons_ne_nil _ _, (entered_cons ne).2 ⟨into, entered⟩,
            last, same, ?_⟩
          · rw [node?_dir, if_pos rfl, hdir]
          · rwa [List.append_assoc, List.singleton_append] at fault
      · rw [if_neg into] at inside
        cases inside
    · obtain ⟨names, inner, hdir, ne, told⟩ := ih hrest behind
      refine ⟨names, inner, ?_, ne, told⟩
      obtain ⟨name, names, rfl⟩ := List.exists_cons_of_ne_nil ne
      rw [node?_dir, if_neg (ne_of_node? above hdir), hdir]

end Walk

/-- Two walks select the same entries, in the same order, if both listings hold those selected.
Other entries may stand between them. -/
theorem filter_entriesBelow_eq {enter : List String → Bool} {select : List String → Bool}
    {es es' : Listing} (h : es.WellFormed) (h' : es'.WellFormed)
    (same : ∀ names, select names = true →
      ((∃ node, es'.node? names = some node ∧ node.isDir = false) ↔
        ∃ node, es.node? names = some node ∧ node.isDir = false)) :
    (es'.entriesBelow enter).filter select = (es.entriesBelow enter).filter select := by
  have : Std.Irrefl fun a b => Path.bytes a < Path.bytes b :=
    ⟨fun a => List.lt_irrefl (Path.bytes a)⟩
  have : Std.Antisymm fun a b => Path.bytes a < Path.bytes b :=
    ⟨fun a b lt gt => absurd gt (List.lt_asymm lt)⟩
  refine ((pairwise_entriesBelow h').filter _).eq_of_mem_iff
    ((pairwise_entriesBelow h).filter _) fun names => ?_
  rw [List.mem_filter, List.mem_filter, mem_entriesBelow h', mem_entriesBelow h]
  exact and_congr_left fun selected => and_congr_left' (same names selected)

end Listing

end Snapshot
