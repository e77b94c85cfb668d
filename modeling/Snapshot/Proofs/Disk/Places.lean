import Snapshot.Proofs.Disk.Resolve
import Snapshot.Proofs.Text.Reading

/-!
# Places

A place is told by names: those of the directories on the way to it and a last one, under which
something stands there or could be put there. A path that follows links leads to a place where no
link stands. If no link leads to that place itself, the last step of the path is its last name.
-/

namespace Snapshot

namespace Listing

theorem node?_singleton (es : Listing) (name : String) : es.node? [name] = es.find? name := by
  cases found : es.find? name with
  | none => simp [node?, found]
  | some node => cases node <;> simp [node?, found]

theorem node?_concat {es inner : Listing} {p : List String} (h : es.node? p = some (.dir inner))
    (name : String) : es.node? (p ++ [name]) = inner.find? name :=
  (node?_append h [name]).trans (node?_singleton inner name)

theorem exists_dir_of_node?_cons {es inner : Listing} {m : String} {p : List String}
    (h : es.node? (m :: p) = some (.dir inner)) :
    ∃ entries, es.find? m = some (.dir entries) ∧ entries.node? p = some (.dir inner) := by
  simp only [node?] at h
  split at h
  · rename_i entries found
    exact ⟨entries, found, h⟩
  · rename_i node no_dir _
    split at h
    · exact absurd (Option.some.inj h) (no_dir inner)
    · cases h
  · cases h

theorem exists_dir_of_node? {es : Listing} {p : List String} {name : String} {node : Node}
    (h : es.node? (p ++ [name]) = some node) : ∃ inner, es.node? p = some (.dir inner) := by
  induction p generalizing es with
  | nil => exact ⟨es, rfl⟩
  | cons m p ih =>
    simp only [List.cons_append, node?] at h ⊢
    split at h
    · exact ih h
    · simp at h
    · simp at h

end Listing

namespace Path

theorem mem_steps {path step : String} (h : step ∈ steps path) : step ≠ "" ∧ '/' ∉ step.toList := by
  rcases List.mem_append.1 h with h | h
  · obtain ⟨hpiece, filled⟩ := List.mem_filter.1 h
    obtain ⟨piece, inside, rfl⟩ := List.mem_map.1 hpiece
    refine ⟨by simpa using filled, fun slash => ?_⟩
    rw [String.toList_ofList] at slash
    exact (Text.mem_of_mem_splitOn inside '/' slash).2 rfl
  · split at h
    · rw [List.mem_singleton.1 h]
      decide
    · cases h

theorem steps_ne_nil {path : String} (h : path ≠ "") : steps path ≠ [] := by
  intro none_left
  obtain ⟨no_names, no_dot⟩ := List.append_eq_nil_iff.1 none_left
  have filled : path.toList ≠ [] := fun empty => h (String.toList_eq_nil_iff.1 empty)
  have last := List.getLast?_eq_some_getLast filled
  have no_slash : path.toList.getLast filled ≠ '/' := by
    intro slash
    simp [last, slash] at no_dot
  obtain ⟨piece, hpiece, inside⟩ := Text.exists_mem_splitOn (List.getLast_mem filled) no_slash
  have named : String.ofList piece ∈ (pieces path).filter (· != "") := by
    refine List.mem_filter.2 ⟨List.mem_map_of_mem hpiece, ?_⟩
    simpa using List.ne_nil_of_mem inside
  rw [no_names] at named
  cases named

theorem fileName?_of_steps {path name : String} (h : (steps path).getLast? = some name)
    (dot : name ≠ ".") (dots : name ≠ "..") : fileName? path = some name := by
  have no_slash : (path.toList.getLast? == some '/') = false := by
    apply Bool.eq_false_iff.2
    intro slash
    rw [steps, slash, if_pos rfl, List.getLast?_concat] at h
    exact dot (Option.some.inj h).symm
  rw [steps, no_slash, if_neg Bool.false_ne_true, List.append_nil] at h
  obtain ⟨before, parts⟩ := List.getLast?_eq_some_iff.1 h
  have named : components path = (baseSteps path).filter (· != ".") := by
    rw [components, baseSteps, List.filter_filter]
    simp only [Bool.and_comm]
  have last : (components path).getLast? = some name := by
    rw [named, baseSteps, parts, List.filter_append, List.filter_cons_of_pos (by simpa using dot),
      List.filter_nil, List.getLast?_concat]
  rw [fileName?, last, Option.filter_some, if_pos (by simpa using dots)]

theorem fileName?_join (dir : String) {name : String} (valid : ValidName name) :
    fileName? (join dir name) = some name := by
  have ⟨filled, dot, dots, no_slash⟩ := valid
  refine fileName?_of_steps ?_ dot dots
  by_cases empty : dir = ""
  · have last : (name.toList.getLast? == some '/') = false := by
      refine beq_false_of_ne fun slash => no_slash (List.mem_of_getLast? slash)
    have alone : join dir name = name := by simp [join, empty]
    rw [alone, steps, last, pieces, List.splitOn_eq_singleton no_slash]
    simp [filled]
  · rw [steps_join empty valid, List.getLast?_concat]

end Path

namespace Disk

def place? (d : Disk) (path : String) (follow : Bool := true) : Option (List String) :=
  (d.lookup path follow).toOption.map Target.place

theorem place?_eq_some {d : Disk} {path : String} {follow : Bool} {place : List String} :
    d.place? path follow = some place ↔ ∃ t, d.lookup path follow = .ok t ∧ t.place = place := by
  unfold place?
  cases d.lookup path follow <;> simp [Except.toOption]

theorem exists_dir_dropLast {d : Disk} {here : List String} {es : Listing}
    (h : d.root.node? here = some (.dir es)) :
    ∃ es', d.root.node? here.dropLast = some (.dir es') := by
  rcases List.eq_nil_or_concat here with rfl | ⟨p, name, rfl⟩
  · exact ⟨es, h⟩
  · rw [List.concat_eq_append] at h
    rw [List.concat_eq_append, List.dropLast_concat]
    exact Listing.exists_dir_of_node? h

theorem missing_of_resolve {d : Disk} {follow : Bool} {links : Nat} {here steps dir : List String}
    {name : String} (plain : ∀ s ∈ steps, s ≠ "" ∧ '/' ∉ s.toList)
    (h : d.resolve follow links here steps = .ok (.missing dir name)) :
    ValidName name ∧ ∃ es, d.root.node? dir = some (.dir es) ∧ es.find? name = none := by
  fun_induction d.resolve follow links here steps with
  | case1 | case2 | case6 | case7 | case8 | case9 | case12 => simp at h
  | case3 _ _ _ _ _ ih | case4 _ _ _ _ _ _ ih =>
    exact ih (fun s hs => plain s (List.mem_cons_of_mem _ hs)) h
  | case5 _ here step rest es hdir dot dots absent =>
    obtain ⟨rfl, rfl⟩ := Target.missing.inj (Except.ok.inj h)
    obtain ⟨filled, no_slash⟩ := plain step List.mem_cons_self
    exact ⟨⟨filled, dot, dots, no_slash⟩, es, hdir, absent⟩
  | case10 _ _ rest _ _ _ _ target _ _ _ _ ih =>
    refine ih (fun s hs => ?_) h
    rcases List.mem_append.1 hs with hs | hs
    · exact Path.mem_steps hs
    · exact plain s (List.mem_cons_of_mem _ hs)
  | case11 _ _ _ _ _ _ _ _ _ _ _ ih => exact ih (fun s hs => plain s (List.mem_cons_of_mem _ hs)) h

theorem no_link_of_resolve {d : Disk} {links : Nat} {here steps place : List String} {node : Node}
    (start : ∀ target, d.root.node? here ≠ some (.link target))
    (h : d.resolve true links here steps = .ok (.found place node)) :
    ∀ target, node ≠ .link target := by
  fun_induction d.resolve true links here steps with
  | case1 _ here node' hnode =>
    obtain ⟨-, rfl⟩ := Target.found.inj (Except.ok.inj h)
    rintro target rfl
    exact start target hnode
  | case2 | case5 | case6 | case8 | case9 | case12 => simp at h
  | case7 _ _ _ _ _ _ _ _ _ _ last => simp at last
  | case3 _ _ _ _ _ ih => exact ih start h
  | case4 _ here _ es hdir _ ih =>
    obtain ⟨es', hdir'⟩ := exists_dir_dropLast hdir
    exact ih (by simp [hdir']) h
  | case10 _ here _ es hdir _ _ target _ _ _ _ ih =>
    refine ih ?_ h
    split
    · simp [Listing.node?]
    · simp [hdir]
  | case11 _ here step _ es hdir _ _ node' no_link hnode ih =>
    refine ih (fun target => ?_) h
    rw [Listing.node?_concat hdir, hnode]
    exact fun same => no_link target (Option.some.inj same)

theorem resolve_of_le {d : Disk} {links links' : Nat} (le : links ≤ links')
    {here steps : List String} {t : Target} (h : d.resolve true links here steps = .ok t) :
    d.resolve true links' here steps = .ok t := by
  fun_induction d.resolve true links here steps generalizing links' with
  | case1 _ here node hnode => rw [resolve, hnode]; exact h
  | case2 | case6 | case8 | case9 | case12 => simp at h
  | case7 _ _ _ _ _ _ _ _ _ _ last => simp at last
  | case3 _ _ _ es hdir ih =>
    rw [resolve_here hdir]
    exact ih le h
  | case4 _ _ _ es hdir _ ih =>
    rw [resolve_up hdir]
    exact ih le h
  | case5 _ _ _ _ es hdir dot dots absent last =>
    rw [resolve_absent hdir dot dots absent, if_pos last]
    exact h
  | case10 _ _ rest es hdir dot dots target hlink last links full ih =>
    cases links' with
    | zero => omega
    | succ n =>
      rw [resolve_through_link hdir dot dots hlink last full]
      exact ih (Nat.le_of_succ_le_succ le) h
  | case11 _ _ _ _ es hdir dot dots node no_link hnode ih =>
    rw [resolve_child hdir dot dots hnode no_link]
    exact ih le h

theorem resolve_dirs {d : Disk} {follow : Bool} {links : Nat} {here names more : List String}
    {es inner : Listing} (hes : es.WellFormed) (hdir : d.root.node? here = some (.dir es))
    (h : es.node? names = some (.dir inner)) :
    d.resolve follow links here (names ++ more) = d.resolve follow links (here ++ names) more := by
  induction names generalizing here es with
  | nil => rw [List.nil_append, List.append_nil]
  | cons name path ih =>
    obtain ⟨-, dot, dots, -⟩ := Listing.validName_of_node? hes h name List.mem_cons_self
    obtain ⟨entries, found, inside⟩ := Listing.exists_dir_of_node?_cons h
    have child : d.root.node? (here ++ [name]) = some (.dir entries) :=
      (Listing.node?_concat hdir name).trans found
    rw [List.cons_append, resolve_child hdir dot dots found (fun _ => Node.noConfusion)]
    rw [ih (hes.find? found).2 child inside, List.append_assoc, List.singleton_append]

theorem resolve_link {d : Disk} {links : Nat} {here : List String} {es : Listing}
    {step target : String} {t : Target} (hdir : d.root.node? here = some (.dir es))
    (valid : ValidName step) (hlink : es.find? step = some (.link target)) (filled : target ≠ "")
    (h : d.resolve true links (if Path.isAbsolute target then [] else here)
      (Path.steps target) = .ok t) :
    d.resolve true (links + 1) [] (here ++ [step]) = .ok t := by
  obtain ⟨-, dot, dots, -⟩ := valid
  have from_root : d.resolve true (links + 1) [] (here ++ [step]) =
      d.resolve true (links + 1) ([] ++ here) [step] := d.resolve_dirs d.wellFormed rfl hdir
  rw [from_root, List.nil_append, resolve_through_link hdir dot dots hlink (by simp)
    (by simpa using filled), List.append_nil]
  exact h

/-- No link leads to a place. A link that leads nowhere yet leads to where a file would be put. -/
def Unlinked (d : Disk) (place : List String) : Prop :=
  ∀ names target, d.root.node? names = some (.link target) →
    ∀ t, d.resolve true 40 [] names = .ok t → t.place ≠ place

theorem getLast?_of_unlinked {d : Disk} {links : Nat} (le : links ≤ 40) {here steps : List String}
    {t : Target} (ne : steps ≠ []) (unlinked : d.Unlinked t.place)
    (no_dir : ∀ es, d.root.node? t.place ≠ some (.dir es))
    (h : d.resolve true links here steps = .ok t) :
    ∃ name, steps.getLast? = some name ∧ t.place.getLast? = some name ∧ name ≠ "." ∧
      name ≠ ".." := by
  fun_induction d.resolve true links here steps with
  | case1 | case2 => exact absurd rfl ne
  | case6 | case8 | case9 | case12 => simp at h
  | case7 _ _ _ _ _ _ _ _ _ _ last => simp at last
  | case3 _ here rest es hdir ih =>
    by_cases hr : rest = []
    · rw [hr, resolve, hdir] at h
      exact absurd (Except.ok.inj h ▸ hdir) (no_dir es)
    · rw [List.getLast?_cons_of_ne_nil hr]
      exact ih le hr h
  | case4 _ here rest es hdir _ ih =>
    by_cases hr : rest = []
    · obtain ⟨es', hdir'⟩ := exists_dir_dropLast hdir
      rw [hr, resolve, hdir'] at h
      exact absurd (Except.ok.inj h ▸ hdir') (no_dir es')
    · rw [List.getLast?_cons_of_ne_nil hr]
      exact ih le hr h
  | case5 _ here step rest es hdir dot dots absent last =>
    obtain rfl := Except.ok.inj h
    obtain rfl := List.isEmpty_iff.1 last
    exact ⟨step, rfl, List.getLast?_concat, dot, dots⟩
  | case10 here step rest es hdir dot dots target hlink _ links full ih =>
    by_cases hr : rest = []
    · -- The last step is a link, and it leads to the place.
      rw [hr, List.append_nil] at h
      have filled : target ≠ "" := by simpa using full
      have valid := ((Listing.wellFormed_of_node? d.wellFormed hdir).find? hlink).1
      have there := (Listing.node?_concat hdir step).trans hlink
      have leads := resolve_of_le le (resolve_link hdir valid hlink filled h)
      exact absurd rfl (unlinked _ target there t leads)
    · rw [List.getLast?_cons_of_ne_nil hr, ← List.getLast?_append_of_ne_nil _ hr]
      exact ih (by omega) (List.append_ne_nil_of_right_ne_nil _ hr) h
  | case11 _ here step rest es hdir dot dots node no_link hnode ih =>
    by_cases hr : rest = []
    · have there := (Listing.node?_concat hdir step).trans hnode
      rw [hr, resolve, there] at h
      obtain rfl := Except.ok.inj h
      rw [hr]
      exact ⟨step, rfl, List.getLast?_concat, dot, dots⟩
    · rw [List.getLast?_cons_of_ne_nil hr]
      exact ih le hr h

theorem lookup_of_ne_empty {d : Disk} {path : String} {follow : Bool} (h : path ≠ "") :
    d.lookup path follow = d.resolve follow 40 (d.startOf path) (Path.steps path) := by
  rw [lookup, if_neg (by simpa using h)]
  rfl

theorem ne_empty_of_lookup {d : Disk} {path : String} {follow : Bool} {t : Target}
    (h : d.lookup path follow = .ok t) : path ≠ "" := by
  rintro rfl
  cases h

theorem lookup_of_steps {d : Disk} {path : String} {names : List String} {node : Node}
    (steps : Path.steps path = names) (filled : path ≠ "") (top : d.startOf path = [])
    (there : d.root.node? names = some node) (no_link : ∀ target, node ≠ .link target) :
    d.lookup path = .ok (.found names node) := by
  rw [lookup_of_ne_empty filled, top, steps]
  exact d.resolve_names d.wellFormed rfl there no_link

theorem missing_of_lookup {d : Disk} {path : String} {follow : Bool} {dir : List String}
    {name : String} (h : d.lookup path follow = .ok (.missing dir name)) :
    ValidName name ∧ ∃ es, d.root.node? dir = some (.dir es) ∧ es.find? name = none := by
  rw [lookup_of_ne_empty (ne_empty_of_lookup h)] at h
  exact missing_of_resolve (fun _ => Path.mem_steps) h

theorem no_link_of_lookup {d : Disk} {path : String} {place : List String} {node : Node}
    (h : d.lookup path = .ok (.found place node)) : ∀ target, node ≠ .link target := by
  have filled := ne_empty_of_lookup h
  rw [lookup_of_ne_empty filled] at h
  refine no_link_of_resolve (fun target hlink => ?_) h
  obtain ⟨step, rest, steps⟩ := List.exists_cons_of_ne_nil (Path.steps_ne_nil filled)
  rw [steps, resolve, hlink] at h
  cases h

theorem entry_eq_ok_iff_place? {d : Disk} {path : String} {follow : Bool} {place : List String}
    {node : Node} : d.entry path follow = .ok (place, node) ↔
      d.place? path follow = some place ∧ d.root.node? place = some node := by
  rw [entry_eq_ok, place?_eq_some]
  constructor
  · intro found
    exact ⟨⟨_, found, rfl⟩, node?_of_lookup found⟩
  · rintro ⟨⟨t, found, rfl⟩, there⟩
    cases t with
    | found place node' =>
      obtain rfl := Option.some.inj ((node?_of_lookup found).symm.trans there)
      exact found
    | missing dir name =>
      obtain ⟨-, es, hdir, absent⟩ := missing_of_lookup found
      have nothing := (Listing.node?_concat hdir name).trans absent
      rw [Target.place, nothing] at there
      cases there

theorem node_eq_ok_iff_place? {d : Disk} {path : String} {follow : Bool} {node : Node} :
    d.node path follow = .ok node ↔
      ∃ place, d.place? path follow = some place ∧ d.root.node? place = some node := by
  simp only [node_eq_ok, ← entry_eq_ok_iff_place?, entry_eq_ok]

theorem fileName?_of_unlinked {d : Disk} {path : String} {place : List String}
    (h : d.place? path = some place) (unlinked : d.Unlinked place)
    (no_dir : ∀ es, d.root.node? place ≠ some (.dir es)) :
    Path.fileName? path = place.getLast? := by
  obtain ⟨t, leads, rfl⟩ := place?_eq_some.1 h
  have filled := ne_empty_of_lookup leads
  rw [lookup_of_ne_empty filled] at leads
  obtain ⟨name, step, last, dot, dots⟩ :=
    getLast?_of_unlinked le_rfl (Path.steps_ne_nil filled) unlinked no_dir leads
  rw [last]
  exact Path.fileName?_of_steps step dot dots

end Disk

end Snapshot
