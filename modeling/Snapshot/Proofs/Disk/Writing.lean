import Snapshot.Proofs.Disk.Places

/-!
# Writing files

A file that is written changes what stands at one place. All paths lead to the same places as
before, and what stands at any other place stays.
-/

namespace Snapshot

def Node.shell : Node → Node
  | file content => .file content
  | link target => .link target
  | sink => .sink
  | dir _ => .dir .nil

theorem Node.shell_eq_file {node : Node} {content : ByteArray} :
    node.shell = .file content ↔ node = .file content := by
  cases node <;> simp [shell]

theorem Node.shell_eq_link {node : Node} {target : String} :
    node.shell = .link target ↔ node = .link target := by
  cases node <;> simp [shell]

theorem Node.shell_eq_sink {node : Node} : node.shell = .sink ↔ node = .sink := by
  cases node <;> simp [shell]

theorem Node.shell_eq_dir {node : Node} : node.shell = .dir .nil ↔ ∃ es, node = .dir es := by
  cases node <;> simp [shell]

theorem Node.isDir_shell (node : Node) : node.shell.isDir = node.isDir := by
  cases node <;> rfl

theorem Node.content?_shell (node : Node) : node.shell.content? = node.content? := by
  cases node <;> rfl

theorem Node.no_link_of_shell {node node' : Node} (same : node'.shell = node.shell)
    (no_link : ∀ target, node ≠ .link target) (target : String) : node' ≠ .link target := by
  rintro rfl
  exact no_link target (shell_eq_link.1 same.symm)

inductive Node.Alike : Node → Node → Prop
  | file (content content' : ByteArray) : Alike (.file content) (.file content')
  | link (target : String) : Alike (.link target) (.link target)
  | sink : Alike .sink .sink
  | dir (es es' : Listing) : Alike (.dir es) (.dir es')

theorem Node.alike_of_shell {node node' : Node} (same : node'.shell = node.shell) :
    node.Alike node' := by
  cases node with
  | file content =>
    obtain rfl := shell_eq_file.1 same
    exact .file content content
  | link target =>
    obtain rfl := shell_eq_link.1 same
    exact .link target
  | sink =>
    obtain rfl := shell_eq_sink.1 same
    exact .sink
  | dir es =>
    obtain ⟨es', rfl⟩ := shell_eq_dir.1 same
    exact .dir es es'

namespace Listing

theorem find?_cons (n : String) (node : Node) (rest : Listing) (m : String) :
    (cons n node rest).find? m = if n = m then some node else rest.find? m := by
  cases node <;> rfl

theorem find?_put_self (name : String) (node : Node) (es : Listing) :
    (es.put name node).find? name = some node := by
  induction es with
  | nil => rw [put, find?_cons, if_pos rfl]
  | file n _ rest ih | link n _ rest ih | sink n rest ih | dir n _ rest _ ih =>
    rw [put]
    split
    · rename_i lt
      have ne : n ≠ name := fun same => String.lt_irrefl name (same ▸ lt)
      rw [find?, if_neg ne, ih]
    · rw [find?_cons, if_pos rfl]

theorem find?_put_of_ne {name m : String} (ne : m ≠ name) (node : Node) (es : Listing) :
    (es.put name node).find? m = es.find? m := by
  induction es with
  | nil => rw [put, find?_cons, if_neg ne.symm]
  | file n _ rest ih | link n _ rest ih | sink n rest ih | dir n _ rest _ ih =>
    rw [put]
    split
    · rw [find?, find?, ih]
    · rw [find?_cons, if_neg ne.symm]
      split
      · rename_i same
        rw [find?, if_neg (same ▸ ne.symm)]
      · rfl

theorem mem_names_of_find? {name : String} {node : Node} {es : Listing}
    (h : es.find? name = some node) : name ∈ es.names := by
  by_contra absent
  have there := (node?_singleton es name).trans h
  simp [node?_eq_none absent] at there

theorem put_eq_self {name : String} {node : Node} {es : Listing} (h : es.WellFormed)
    (found : es.find? name = some node) : es.put name node = es := by
  induction es with
  | nil => cases found
  | file n _ rest ih | link n _ rest ih | sink n rest ih =>
    obtain ⟨-, above, hrest⟩ := h
    rw [find?] at found
    by_cases same : n = name
    · subst same
      rw [if_pos rfl] at found
      obtain rfl := Option.some.inj found
      rw [put, if_neg (String.lt_irrefl n), if_pos rfl]
      rfl
    · rw [if_neg same] at found
      rw [put, if_pos (above name (mem_names_of_find? found)), ih hrest found]
  | dir n _ rest _ ih =>
    obtain ⟨-, above, -, hrest⟩ := h
    rw [find?] at found
    by_cases same : n = name
    · subst same
      rw [if_pos rfl] at found
      obtain rfl := Option.some.inj found
      rw [put, if_neg (String.lt_irrefl n), if_pos rfl]
      rfl
    · rw [if_neg same] at found
      rw [put, if_pos (above name (mem_names_of_find? found)), ih hrest found]

theorem changeAt_put_eq_self {name : String} {node : Node} {dir : List String} {es inner : Listing}
    (h : es.WellFormed) (hdir : es.node? dir = some (.dir inner))
    (found : inner.find? name = some node) : es.changeAt (·.put name node) dir = es := by
  induction dir generalizing es with
  | nil =>
    obtain rfl : es = inner := by simpa [node?] using hdir
    exact put_eq_self h found
  | cons m dir ih =>
    obtain ⟨entries, hm, inside⟩ := exists_dir_of_node?_cons hdir
    rw [changeAt, hm]
    simp only [ih (h.find? hm).2 inside]
    exact put_eq_self h hm

def shell? (es : Listing) (p : List String) : Option Node := (es.node? p).map Node.shell

theorem node?_changeAt (change : Listing → Listing) {dir : List String} {es inner : Listing}
    (hdir : es.node? dir = some (.dir inner)) :
    (es.changeAt change dir).node? dir = some (.dir (change inner)) := by
  induction dir generalizing es with
  | nil =>
    obtain rfl : es = inner := by simpa [node?] using hdir
    rfl
  | cons m dir ih =>
    obtain ⟨entries, hm, inside⟩ := exists_dir_of_node?_cons hdir
    rw [changeAt, hm, node?, find?_put_self]
    exact ih inside

theorem shell?_cons (es : Listing) (m : String) (path : List String) :
    es.shell? (m :: path) = (es.find? m).bind fun node => match node with
      | .dir entries => entries.shell? path
      | node => if path.isEmpty then some node else none := by
  rw [shell?, node?]
  cases es.find? m with
  | none => rfl
  | some node =>
    cases node with
    | dir entries => rfl
    | file _ | link _ | sink => cases path <;> rfl

theorem shell?_eq_none {es : Listing} {p : List String} :
    es.shell? p = none ↔ es.node? p = none := by
  simp [shell?]

theorem shell?_eq_file {es : Listing} {p : List String} {content : ByteArray} :
    es.shell? p = some (.file content) ↔ es.node? p = some (.file content) := by
  simp [shell?, Node.shell_eq_file]

theorem shell?_eq_link {es : Listing} {p : List String} {target : String} :
    es.shell? p = some (.link target) ↔ es.node? p = some (.link target) := by
  simp [shell?, Node.shell_eq_link]

theorem shell?_eq_sink {es : Listing} {p : List String} :
    es.shell? p = some .sink ↔ es.node? p = some .sink := by
  simp [shell?, Node.shell_eq_sink]

theorem shell?_eq_dir {es : Listing} {p : List String} :
    es.shell? p = some (.dir .nil) ↔ ∃ inner, es.node? p = some (.dir inner) := by
  simp [shell?, Node.shell_eq_dir, ← exists_and_left, exists_comm]

theorem exists_entry_iff {es : Listing} {names : List String} :
    (∃ node, es.node? names = some node ∧ node.isDir = false) ↔
      ∃ shell, es.shell? names = some shell ∧ shell.isDir = false := by
  simp [shell?, Node.isDir_shell]

/-- A change of one entry of a directory is not seen anywhere else, if no directory comes or
goes. -/
theorem shell?_changeAt_of_ne {change : Listing → Listing} {name : String} {dir : List String}
    {es inner : Listing} (hdir : es.node? dir = some (.dir inner))
    (others : ∀ m, m ≠ name → (change inner).find? m = inner.find? m)
    (no_dir : ∀ entries, inner.find? name ≠ some (.dir entries))
    (no_dir' : ∀ entries, (change inner).find? name ≠ some (.dir entries)) {p : List String}
    (hp : p ≠ dir ++ [name]) : (es.changeAt change dir).shell? p = es.shell? p := by
  induction dir generalizing es p with
  | nil =>
    obtain rfl : es = inner := by simpa [node?] using hdir
    cases p with
    | nil => rfl
    | cons m path =>
      rw [changeAt, shell?_cons, shell?_cons]
      by_cases same : m = name
      · subst same
        have further : path.isEmpty = false := by
          apply Bool.eq_false_iff.2
          intro empty
          exact hp (by rw [List.isEmpty_iff.1 empty]; rfl)
        have nothing : ∀ found : Option Node, (∀ entries, found ≠ some (.dir entries)) →
            (found.bind fun node => match node with
              | .dir entries => entries.shell? path
              | node => if path.isEmpty then some node else none) = none := by
          intro found no_dir
          rcases found with _ | _ | _ | _ | entries
          · rfl
          · simp [further]
          · simp [further]
          · simp [further]
          · exact absurd rfl (no_dir entries)
        rw [nothing _ no_dir, nothing _ no_dir']
      · rw [others m same]
  | cons a dir ih =>
    obtain ⟨entries, ha, inside⟩ := exists_dir_of_node?_cons hdir
    rw [changeAt, ha]
    cases p with
    | nil => rfl
    | cons m path =>
      rw [shell?_cons, shell?_cons]
      by_cases same : m = a
      · subst same
        rw [find?_put_self, ha]
        exact ih inside fun same => hp (by rw [same]; rfl)
      · rw [find?_put_of_ne same]

end Listing

namespace Disk

/-- Where a path leads, and what stands there; the entries of a directory are left out. -/
def seen (d : Disk) (path : String) (follow : Bool := true) : Option (List String × Node) :=
  (d.entry path follow).toOption.map (Prod.map id Node.shell)

theorem seen_eq_some {d : Disk} {path : String} {follow : Bool} {place : List String}
    {shell : Node} : d.seen path follow = some (place, shell) ↔
      ∃ node, d.lookup path follow = .ok (.found place node) ∧ node.shell = shell := by
  simp only [seen, ← entry_eq_ok]
  cases d.entry path follow with
  | error fault => simp [Except.toOption]
  | ok there =>
    obtain ⟨place', node⟩ := there
    simp only [Except.toOption, Option.map_some, Prod.map_apply, id_eq, Option.some.injEq,
      Prod.mk.injEq, Except.ok.injEq]
    constructor
    · rintro ⟨rfl, rfl⟩
      exact ⟨node, ⟨rfl, rfl⟩, rfl⟩
    · rintro ⟨_, ⟨rfl, rfl⟩, rfl⟩
      exact ⟨rfl, rfl⟩

theorem seen_eq_some_iff_place? {d : Disk} {path : String} {follow : Bool} {place : List String}
    {shell : Node} : d.seen path follow = some (place, shell) ↔
      d.place? path follow = some place ∧ d.root.shell? place = some shell := by
  simp only [seen_eq_some, ← entry_eq_ok, entry_eq_ok_iff_place?, Listing.shell?,
    Option.map_eq_some_iff, ← exists_and_left, and_assoc]

theorem toOption_read (d : Disk) (path : String) : (d.read path).toOption =
    (d.seen path).bind fun there =>
      if d.limits.reading there.1 = none then there.2.content? else none := by
  unfold read seen
  cases d.entry path with
  | error fault => rfl
  | ok there =>
    obtain ⟨place, node⟩ := there
    simp only [bind, Except.bind, Except.toOption, Option.map_some, Option.bind_some,
      Prod.map_apply, id_eq, Node.content?_shell]
    cases d.limits.reading place <;> cases node.content? <;> rfl

theorem isThere_eq_isSome (d : Disk) (path : String) : d.isThere path = (d.seen path).isSome := by
  unfold isThere node seen
  cases d.entry path <;> rfl

structure FilesAt (places : List (List String)) (d d' : Disk) : Prop where
  current : d'.current = d.current
  limits : d'.limits = d.limits
  before : ∀ p ∈ places, ∀ node, d.root.node? p = some node → ∃ content, node = .file content
  after : ∀ p ∈ places, ∃ content, d'.root.node? p = some (.file content)
  elsewhere : ∀ p, p ∉ places → d'.root.shell? p = d.root.shell? p

theorem resolve_of_no_dir {d : Disk} {follow : Bool} {links : Nat} {here : List String}
    {node : Node} (hnode : d.root.node? here = some node) (no_dir : node.isDir = false)
    (steps : List String) :
    (d.resolve follow links here steps).toOption.map Target.place =
      if steps.isEmpty then some here else none := by
  cases steps with
  | nil =>
    rw [resolve, hnode]
    rfl
  | cons step rest =>
    rw [resolve, hnode]
    cases node with
    | dir entries => cases no_dir
    | file _ | link _ | sink => rfl

theorem resolve_at_file {d : Disk} {follow : Bool} {links : Nat} {here rest : List String}
    {es : Listing} {step : String} {content : ByteArray}
    (hdir : d.root.node? here = some (.dir es)) (dot : step ≠ ".") (dots : step ≠ "..")
    (found : es.find? step = some (.file content)) :
    (d.resolve follow links here (step :: rest)).toOption.map Target.place =
      if rest.isEmpty then some (here ++ [step]) else none := by
  have there := (Listing.node?_concat hdir step).trans found
  rw [resolve_child hdir dot dots found fun _ => Node.noConfusion, resolve_of_no_dir there rfl]

namespace FilesAt

theorem refl (d : Disk) : FilesAt [] d d := ⟨rfl, rfl, by simp, by simp, fun _ _ => rfl⟩

theorem trans {places more : List (List String)} {d d' d'' : Disk} (h : FilesAt places d d')
    (h' : FilesAt more d' d'') : FilesAt (places ++ more) d d'' := by
  refine ⟨h'.current.trans h.current, h'.limits.trans h.limits, fun p hp node hnode => ?_,
    fun p hp => ?_, fun p hp => ?_⟩
  · by_cases first : p ∈ places
    · exact h.before p first node hnode
    · have second := (List.mem_append.1 hp).resolve_left first
      have same := h.elsewhere p first
      rw [Listing.shell?, Listing.shell?, hnode] at same
      obtain ⟨node', hnode', shell⟩ := Option.map_eq_some_iff.1 same
      obtain ⟨content, rfl⟩ := h'.before p second node' hnode'
      exact ⟨content, Node.shell_eq_file.1 shell.symm⟩
  · by_cases second : p ∈ more
    · exact h'.after p second
    · obtain ⟨content, hfile⟩ := h.after p ((List.mem_append.1 hp).resolve_right second)
      have same := h'.elsewhere p second
      rw [Listing.shell?_eq_file.2 hfile, Listing.shell?_eq_file] at same
      exact ⟨content, same⟩
  · rw [List.mem_append, not_or] at hp
    exact (h'.elsewhere p hp.2).trans (h.elsewhere p hp.1)

section Places
variable {places : List (List String)} {d d' : Disk} (h : FilesAt places d d')
include h

theorem not_mem_of_node? {p : List String} {node : Node} (hnode : d.root.node? p = some node)
    (no_file : ∀ content, node ≠ .file content) : p ∉ places := by
  intro hp
  obtain ⟨content, same⟩ := h.before p hp _ hnode
  exact no_file content same

theorem not_mem_of_dir {p : List String} {es : Listing} (hdir : d.root.node? p = some (.dir es)) :
    p ∉ places :=
  h.not_mem_of_node? hdir fun _ => Node.noConfusion

theorem exists_dir {p : List String} {es : Listing} (hdir : d.root.node? p = some (.dir es)) :
    ∃ es', d'.root.node? p = some (.dir es') := by
  have same := h.elsewhere p (h.not_mem_of_dir hdir)
  rwa [Listing.shell?_eq_dir.2 ⟨es, hdir⟩, Listing.shell?_eq_dir] at same

theorem exists_dir_before {p : List String} {es : Listing}
    (hdir : d'.root.node? p = some (.dir es)) : ∃ es', d.root.node? p = some (.dir es') := by
  have out : p ∉ places := by
    intro hp
    obtain ⟨content, hfile⟩ := h.after p hp
    rw [hfile] at hdir
    cases hdir
  have same := h.elsewhere p out
  rw [Listing.shell?_eq_dir.2 ⟨es, hdir⟩] at same
  exact Listing.shell?_eq_dir.1 same.symm

theorem no_dir {p : List String} (no_dir : ∀ es, d.root.node? p ≠ some (.dir es)) (es : Listing) :
    d'.root.node? p ≠ some (.dir es) := by
  intro hdir
  obtain ⟨es', hdir'⟩ := h.exists_dir_before hdir
  exact no_dir es' hdir'

theorem find?_child {here : List String} {es es' : Listing}
    (hdir : d.root.node? here = some (.dir es)) (hdir' : d'.root.node? here = some (.dir es'))
    (step : String) :
    (here ++ [step] ∈ places ∧ ∃ content, es'.find? step = some (.file content)) ∨
      here ++ [step] ∉ places ∧
        (es'.find? step).map Node.shell = (es.find? step).map Node.shell := by
  rw [← Listing.node?_concat hdir, ← Listing.node?_concat hdir']
  by_cases hp : here ++ [step] ∈ places
  · exact .inl ⟨hp, h.after _ hp⟩
  · exact .inr ⟨hp, h.elsewhere _ hp⟩

theorem node?_link {p : List String} {target : String}
    (hlink : d.root.node? p = some (.link target)) : d'.root.node? p = some (.link target) := by
  have same := h.elsewhere p (h.not_mem_of_node? hlink fun _ => Node.noConfusion)
  rwa [Listing.shell?_eq_link.2 hlink, Listing.shell?_eq_link] at same

theorem find?_link {here : List String} {es es' : Listing} {step target : String}
    (hdir : d.root.node? here = some (.dir es)) (hdir' : d'.root.node? here = some (.dir es'))
    (hlink : es.find? step = some (.link target)) : es'.find? step = some (.link target) := by
  rw [← Listing.node?_concat hdir] at hlink
  rw [← Listing.node?_concat hdir']
  exact h.node?_link hlink

section Step
variable {follow : Bool} {links : Nat} {here rest : List String} {es : Listing} {step : String}

theorem resolve_new (hdir : d.root.node? here = some (.dir es)) (dot : step ≠ ".")
    (dots : step ≠ "..") (absent : es.find? step = none) :
    (d'.resolve follow links here (step :: rest)).toOption.map Target.place =
      if rest.isEmpty then some (here ++ [step]) else none := by
  obtain ⟨es', hdir'⟩ := h.exists_dir hdir
  rcases h.find?_child hdir hdir' step with ⟨-, content, found⟩ | ⟨-, same⟩
  · exact resolve_at_file hdir' dot dots found
  · rw [absent, Option.map_none, Option.map_eq_none_iff] at same
    rw [resolve_absent hdir' dot dots same]
    cases rest.isEmpty <;> rfl

theorem resolve_old (hdir : d.root.node? here = some (.dir es)) (dot : step ≠ ".")
    (dots : step ≠ "..") {node : Node} (hnode : es.find? step = some node)
    (no_link : ∀ target, node ≠ .link target)
    (further : here ++ [step] ∉ places →
      (d'.resolve follow links (here ++ [step]) rest).toOption.map Target.place =
        (d.resolve follow links (here ++ [step]) rest).toOption.map Target.place) :
    (d'.resolve follow links here (step :: rest)).toOption.map Target.place =
      (d.resolve follow links (here ++ [step]) rest).toOption.map Target.place := by
  obtain ⟨es', hdir'⟩ := h.exists_dir hdir
  have there := (Listing.node?_concat hdir step).trans hnode
  rcases h.find?_child hdir hdir' step with ⟨hp, content, found⟩ | ⟨hp, same⟩
  · obtain ⟨old, rfl⟩ := h.before _ hp _ there
    rw [resolve_at_file hdir' dot dots found, resolve_of_no_dir there rfl]
  · rw [hnode, Option.map_some] at same
    obtain ⟨node', found, shell⟩ := Option.map_eq_some_iff.1 same
    rw [resolve_child hdir' dot dots found (Node.no_link_of_shell shell no_link)]
    exact further hp

end Step

theorem resolve_place {follow : Bool} {links : Nat} {here steps : List String}
    (hhere : here ∉ places) :
    (d'.resolve follow links here steps).toOption.map Target.place =
      (d.resolve follow links here steps).toOption.map Target.place := by
  -- The steps go through directories and links, and these are the same on both disks. Only the last
  -- name may be that of a file that was written.
  fun_induction d.resolve follow links here steps with
  | case1 links here node hnode =>
    have same := h.elsewhere here hhere
    rw [Listing.shell?, Listing.shell?, hnode] at same
    obtain ⟨node', hnode', -⟩ := Option.map_eq_some_iff.1 same
    rw [resolve, hnode']
    rfl
  | case2 links here hnode =>
    have same := h.elsewhere here hhere
    rw [Listing.shell?_eq_none.2 hnode, Listing.shell?_eq_none] at same
    rw [resolve, same]
  | case3 links here rest es hdir ih =>
    obtain ⟨es', hdir'⟩ := h.exists_dir hdir
    rw [resolve_here hdir']
    exact ih hhere
  | case4 links here rest es hdir dot ih =>
    obtain ⟨es', hdir'⟩ := h.exists_dir hdir
    obtain ⟨up, hup⟩ := exists_dir_dropLast hdir
    rw [resolve_up hdir']
    exact ih (h.not_mem_of_dir hup)
  | case5 links here step rest es hdir dot dots absent last =>
    rw [h.resolve_new hdir dot dots absent, if_pos last]
    rfl
  | case6 links here step rest es hdir dot dots absent last =>
    rw [h.resolve_new hdir dot dots absent, if_neg last]
    rfl
  | case7 links here step rest es hdir dot dots target hlink last =>
    obtain ⟨es', hdir'⟩ := h.exists_dir hdir
    have hlink' := h.find?_link hdir hdir' hlink
    rw [resolve, hdir']
    simp [dot, dots, hlink', last]
  | case8 here step rest es hdir dot dots target hlink last =>
    obtain ⟨es', hdir'⟩ := h.exists_dir hdir
    have hlink' := h.find?_link hdir hdir' hlink
    rw [resolve, hdir']
    simp [dot, dots, hlink', last]
  | case9 here step rest es hdir dot dots target hlink last links empty =>
    obtain ⟨es', hdir'⟩ := h.exists_dir hdir
    have hlink' := h.find?_link hdir hdir' hlink
    rw [resolve, hdir']
    simp [dot, dots, hlink', last, empty]
  | case10 here step rest es hdir dot dots target hlink last links full ih =>
    obtain ⟨es', hdir'⟩ := h.exists_dir hdir
    have start : (if Path.isAbsolute target then [] else here) ∉ places := by
      split
      · exact h.not_mem_of_dir (p := []) rfl
      · exact hhere
    rw [resolve_through_link hdir' dot dots (h.find?_link hdir hdir' hlink) last full]
    exact ih start
  | case11 links here step rest es hdir dot dots node no_link hnode ih =>
    exact h.resolve_old hdir dot dots hnode no_link ih
  | case12 links here step rest no_dir =>
    have no_dir' := h.no_dir no_dir
    rw [resolve]
    split
    · rename_i entries hdir
      exact absurd hdir (no_dir' entries)
    · rfl

theorem place?_eq (path : String) (follow : Bool) :
    d'.place? path follow = d.place? path follow := by
  by_cases empty : path = ""
  · rw [empty]
    rfl
  · unfold place?
    have start : d'.startOf path = d.startOf path := by rw [startOf, startOf, h.current]
    rw [lookup_of_ne_empty empty, lookup_of_ne_empty empty, start]
    by_cases hstart : d.startOf path ∈ places
    · -- The current directory is a file, so no path leads anywhere from it.
      obtain ⟨step, rest, steps⟩ := List.exists_cons_of_ne_nil (Path.steps_ne_nil empty)
      obtain ⟨content, there⟩ := h.after _ hstart
      rw [steps, resolve_of_no_dir there rfl]
      cases old : d.root.node? (d.startOf path) with
      | none =>
        rw [resolve, old]
        rfl
      | some node =>
        obtain ⟨content', rfl⟩ := h.before _ hstart node old
        rw [resolve_of_no_dir old rfl]
    · exact h.resolve_place hstart

theorem node?_file {p : List String} {content : ByteArray}
    (there : d.root.node? p = some (.file content)) (out : p ∉ places) :
    d'.root.node? p = some (.file content) := by
  rw [← Listing.shell?_eq_file, h.elsewhere p out, Listing.shell?_eq_file]
  exact there

theorem node?_sink_iff {p : List String} :
    d'.root.node? p = some .sink ↔ d.root.node? p = some .sink := by
  by_cases hp : p ∈ places
  · obtain ⟨content, there⟩ := h.after p hp
    refine ⟨fun sink => ?_, fun sink => ?_⟩
    · rw [there] at sink
      cases sink
    · exact absurd hp (h.not_mem_of_node? sink fun _ => Node.noConfusion)
  · rw [← Listing.shell?_eq_sink, ← Listing.shell?_eq_sink, h.elsewhere p hp]

theorem exists_entry {path : String} {follow : Bool} {place : List String} {node : Node}
    (hentry : d.entry path follow = .ok (place, node)) :
    ∃ node', d'.entry path follow = .ok (place, node') ∧ node.Alike node' := by
  obtain ⟨leads, there⟩ := entry_eq_ok_iff_place?.1 hentry
  have leads' := (h.place?_eq path follow).trans leads
  by_cases hp : place ∈ places
  · obtain ⟨content, rfl⟩ := h.before place hp node there
    obtain ⟨content', there'⟩ := h.after place hp
    exact ⟨_, entry_eq_ok_iff_place?.2 ⟨leads', there'⟩, .file content content'⟩
  · have same := h.elsewhere place hp
    rw [Listing.shell?, Listing.shell?, there] at same
    obtain ⟨node', there', shell⟩ := Option.map_eq_some_iff.1 same
    exact ⟨node', entry_eq_ok_iff_place?.2 ⟨leads', there'⟩, Node.alike_of_shell shell⟩

/-- What is seen at a path that leads to none of the places. -/
theorem seen_eq {path : String} {follow : Bool}
    (out : ∀ place, d.place? path follow = some place → place ∉ places) :
    d'.seen path follow = d.seen path follow := by
  refine Option.ext fun sight => ?_
  rcases sight with ⟨place, shell⟩
  rw [seen_eq_some_iff_place?, seen_eq_some_iff_place?, h.place?_eq]
  exact and_congr_right fun leads => by rw [h.elsewhere place (out place leads)]

end Places

end FilesAt

end Disk

end Snapshot
