import Snapshot.Proofs.Disk.Entries

/-!
# Paths below a directory

A path that goes on from the path of a directory by the names of entries leads to what stands at
these names.
-/

namespace Snapshot

namespace Listing

theorem node?_append {es inner : Listing} {p : List String} (h : es.node? p = some (.dir inner))
    (q : List String) : es.node? (p ++ q) = inner.node? q := by
  induction p generalizing es with
  | nil =>
    obtain rfl : es = inner := by simpa [node?] using h
    rfl
  | cons name p ih =>
    rw [List.cons_append]
    simp only [node?] at h ⊢
    split at h
    · exact ih h
    · rename_i node hn _
      cases hp : p.isEmpty with
      | true =>
        simp only [hp, if_true, Option.some.injEq] at h
        exact absurd h (hn inner)
      | false => simp [hp] at h
    · simp at h

theorem validName_of_node? {es : Listing} (h : es.WellFormed) {names : List String} {node : Node}
    (found : es.node? names = some node) : ∀ name ∈ names, ValidName name := by
  induction names generalizing es with
  | nil => simp
  | cons name path ih =>
    simp only [node?] at found
    split at found
    · rename_i inner hfind
      obtain ⟨valid, hinner⟩ := h.find? hfind
      intro n hn
      rcases List.mem_cons.1 hn with rfl | hn
      · exact valid
      · exact ih hinner found n hn
    · rename_i other _ hfind
      obtain ⟨valid, -⟩ := h.find? hfind
      split at found
      · rename_i last
        intro n hn
        rw [List.isEmpty_iff.1 last, List.mem_singleton] at hn
        exact hn ▸ valid
      · simp at found
    · simp at found

theorem wellFormed_of_node? {es inner : Listing} (h : es.WellFormed) {names : List String}
    (found : es.node? names = some (.dir inner)) : inner.WellFormed := by
  induction names generalizing es with
  | nil =>
    obtain rfl : es = inner := by simpa [node?] using found
    exact h
  | cons name path ih =>
    simp only [node?] at found
    split at found
    · rename_i entries hfind
      exact ih (h.find? hfind).2 found
    · rename_i node no_dir _
      split at found
      · exact absurd (Option.some.inj found) (no_dir inner)
      · simp at found
    · simp at found

end Listing

namespace Path

def baseSteps (path : String) : List String := (pieces path).filter (· != "")

theorem toList_join {dir name : String} (hdir : dir ≠ "") (valid : ValidName name) :
    ∃ pre, (join dir name).toList = pre ++ '/' :: name.toList ∧
      (dir.toList = pre ∨ dir.toList = pre ++ ['/']) := by
  have no_slash : (name.toList.head? == some '/') = false := by
    obtain ⟨-, -, -, no_slash⟩ := valid
    cases h : name.toList with
    | nil => rfl
    | cons c s =>
      refine beq_false_of_ne fun same => no_slash ?_
      rw [h, ← Option.some.inj same]
      exact List.mem_cons_self
  have filled : dir.isEmpty = false := by simpa using hdir
  rw [join, filled, no_slash]
  simp only [Bool.or_self, Bool.false_eq_true, if_false]
  split
  · rename_i slash
    obtain ⟨pre, hpre⟩ := List.getLast?_eq_some_iff.1 (beq_iff_eq.1 slash)
    refine ⟨pre, ?_, .inr hpre⟩
    rw [String.toList_append, hpre, List.append_assoc, List.singleton_append]
  · refine ⟨dir.toList, ?_, .inl rfl⟩
    simp [String.toList_append]

theorem join_ne_empty {dir name : String} (hdir : dir ≠ "") (valid : ValidName name) :
    join dir name ≠ "" := by
  obtain ⟨pre, hjoin, -⟩ := toList_join hdir valid
  intro h
  simp [h] at hjoin

theorem isAbsolute_join {dir name : String} (hdir : dir ≠ "") (valid : ValidName name) :
    isAbsolute (join dir name) = isAbsolute dir := by
  obtain ⟨pre, hjoin, hpre⟩ := toList_join hdir valid
  rw [isAbsolute, isAbsolute, hjoin]
  rcases hpre with rfl | hpre
  · cases h : dir.toList with
    | nil => exact absurd (String.toList_eq_nil_iff.1 h) hdir
    | cons c s => rfl
  · rw [hpre]
    cases pre <;> rfl

theorem baseSteps_join {dir name : String} (hdir : dir ≠ "") (valid : ValidName name) :
    baseSteps (join dir name) = baseSteps dir ++ [name] := by
  obtain ⟨pre, hjoin, hpre⟩ := toList_join hdir valid
  have filled : (name != "") = true := by simpa using valid.1
  have same : baseSteps dir = ((pre.splitOn '/').map String.ofList).filter (· != "") := by
    rcases hpre with rfl | hpre
    · rfl
    · rw [baseSteps, pieces, hpre, List.splitOn_append_cons_self]
      simp
  rw [same, baseSteps, pieces, hjoin, List.splitOn_append_cons_self,
    List.splitOn_eq_singleton valid.2.2.2, List.map_append, List.filter_append]
  simp [filled]

theorem steps_join {dir name : String} (hdir : dir ≠ "") (valid : ValidName name) :
    steps (join dir name) = baseSteps dir ++ [name] := by
  obtain ⟨pre, hjoin, -⟩ := toList_join hdir valid
  have last : ((join dir name).toList.getLast? == some '/') = false := by
    refine beq_false_of_ne fun slash => valid.2.2.2 ?_
    have behind : ('/' :: name.toList).getLast? = some '/' := by
      rwa [hjoin, List.getLast?_append_of_ne_nil _ (List.cons_ne_nil _ _)] at slash
    have filled : name.toList ≠ [] := fun h => valid.1 (String.toList_eq_nil_iff.1 h)
    rw [List.getLast?_cons_of_ne_nil filled] at behind
    exact List.mem_of_getLast? behind
  rw [← baseSteps_join hdir valid, steps, last]
  exact List.append_nil _

section Joins
variable {dir : String} {names : List String} (hdir : dir ≠ "") (valid : ∀ n ∈ names, ValidName n)
include hdir valid

theorem joins_ne_empty : joins dir names ≠ "" := by
  induction names generalizing dir with
  | nil => exact hdir
  | cons name names ih =>
    rw [List.forall_mem_cons] at valid
    exact ih (join_ne_empty hdir valid.1) valid.2

theorem isAbsolute_joins : isAbsolute (joins dir names) = isAbsolute dir := by
  induction names generalizing dir with
  | nil => rfl
  | cons name names ih =>
    rw [List.forall_mem_cons] at valid
    exact (ih (join_ne_empty hdir valid.1) valid.2).trans (isAbsolute_join hdir valid.1)

theorem baseSteps_joins : baseSteps (joins dir names) = baseSteps dir ++ names := by
  induction names generalizing dir with
  | nil => exact (List.append_nil _).symm
  | cons name names ih =>
    rw [List.forall_mem_cons] at valid
    refine (ih (join_ne_empty hdir valid.1) valid.2).trans ?_
    rw [baseSteps_join hdir valid.1, List.append_assoc]
    rfl

theorem steps_joins (ne : names ≠ []) : steps (joins dir names) = baseSteps dir ++ names := by
  have joined : joins dir names = join (joins dir names.dropLast) (names.getLast ne) := by
    conv_lhs => rw [← List.dropLast_append_getLast ne]
    exact List.foldl_append
  have before : ∀ n ∈ names.dropLast, ValidName n := fun n hn => valid n (List.dropLast_subset _ hn)
  have last := valid _ (List.getLast_mem ne)
  rw [joined, steps_join (joins_ne_empty hdir before) last, baseSteps_joins hdir before,
    List.append_assoc, List.dropLast_append_getLast ne]

end Joins

end Path

namespace Disk

section Steps
variable {d : Disk} {follow : Bool} {links : Nat} {here rest : List String} {es : Listing}
  (hdir : d.root.node? here = some (.dir es))
include hdir

theorem resolve_here :
    d.resolve follow links here ("." :: rest) = d.resolve follow links here rest := by
  rw [resolve, hdir]
  rfl

theorem resolve_up :
    d.resolve follow links here (".." :: rest) = d.resolve follow links here.dropLast rest := by
  rw [resolve, hdir]
  rfl

variable {step : String} (dot : step ≠ ".") (dots : step ≠ "..")
include dot dots

theorem resolve_absent (absent : es.find? step = none) :
    d.resolve follow links here (step :: rest) =
      if rest.isEmpty then .ok (.missing here step) else .error .notFound := by
  rw [resolve, hdir]
  simp only [dot, dots, if_false, absent]

theorem resolve_child {node : Node} (found : es.find? step = some node)
    (no_link : ∀ target, node ≠ .link target) :
    d.resolve follow links here (step :: rest) =
      d.resolve follow links (here ++ [step]) rest := by
  rw [resolve, hdir]
  cases node with
  | link target => exact absurd rfl (no_link target)
  | file _ | dir _ | sink => simp only [dot, dots, if_false, found]

theorem resolve_through_link {target : String} (hlink : es.find? step = some (.link target))
    (further : ¬ (rest.isEmpty && !follow) = true) (full : ¬ target.isEmpty = true) :
    d.resolve follow (links + 1) here (step :: rest) =
      d.resolve follow links (if Path.isAbsolute target then [] else here)
        (Path.steps target ++ rest) := by
  rw [resolve, hdir]
  simp only [dot, dots, if_false, hlink]
  rw [if_neg further, if_neg full]

end Steps

theorem node?_of_resolve (d : Disk) {follow : Bool} {links : Nat} {here steps place : List String}
    {node : Node} (h : d.resolve follow links here steps = .ok (.found place node)) :
    d.root.node? place = some node := by
  fun_induction d.resolve follow links here steps with
  | case1 _ here node' hnode =>
    obtain ⟨rfl, rfl⟩ := Target.found.inj (Except.ok.inj h)
    exact hnode
  | case7 _ here step _ entries hdir _ _ target hlink _ =>
    obtain ⟨rfl, rfl⟩ := Target.found.inj (Except.ok.inj h)
    rw [Listing.node?_append hdir]
    simp [Listing.node?, hlink]
  | case2 | case5 | case6 | case8 | case9 | case12 => simp at h
  | case3 _ _ _ _ _ ih | case4 _ _ _ _ _ _ ih | case11 _ _ _ _ _ _ _ _ _ _ _ ih => exact ih h
  | case10 _ _ _ _ _ _ _ _ _ _ _ _ ih => exact ih h

theorem resolve_of_not_follow (d : Disk) {links : Nat} {here steps place : List String}
    {node : Node} (no_link : ∀ target, node ≠ .link target)
    (h : d.resolve false links here steps = .ok (.found place node)) :
    d.resolve true links here steps = .ok (.found place node) := by
  fun_induction d.resolve false links here steps with
  | case1 _ here node' hnode =>
    rw [resolve, hnode]
    exact h
  | case2 | case5 | case6 | case8 | case9 | case12 => simp at h
  | case7 _ _ _ _ _ _ _ _ target =>
    exact absurd (Target.found.inj (Except.ok.inj h)).2.symm (no_link target)
  | case3 _ _ rest entries hdir ih =>
    rw [resolve_here hdir]
    exact ih h
  | case4 _ _ rest entries hdir _ ih =>
    rw [resolve_up hdir]
    exact ih h
  | case10 _ _ rest entries hdir dot dots target hlink _ links full ih =>
    rw [resolve_through_link hdir dot dots hlink (by simp) full]
    exact ih h
  | case11 _ _ _ rest entries hdir dot dots node no_link hnode ih =>
    rw [resolve_child hdir dot dots hnode no_link]
    exact ih h

theorem exists_resolve_of_follow {d : Disk} {links : Nat} {here steps place : List String}
    {node : Node} (h : d.resolve true links here steps = .ok (.found place node)) :
    ∃ place' node', d.resolve false links here steps = .ok (.found place' node') := by
  fun_induction d.resolve true links here steps with
  | case1 links here node hnode => exact ⟨here, node, by rw [resolve, hnode]⟩
  | case2 | case5 | case6 | case8 | case9 | case12 => simp at h
  | case7 _ _ _ _ _ _ _ _ _ _ last => simp at last
  | case3 _ _ rest es hdir ih =>
    rw [resolve_here hdir]
    exact ih h
  | case4 _ _ rest es hdir _ ih =>
    rw [resolve_up hdir]
    exact ih h
  | case10 here step rest es hdir dot dots target hlink _ links full ih =>
    by_cases hr : rest = []
    · refine ⟨here ++ [step], .link target, ?_⟩
      rw [resolve, hdir]
      simp [dot, dots, hlink, hr]
    · rw [resolve_through_link hdir dot dots hlink (by simp [hr]) full]
      exact ih h
  | case11 _ _ _ rest es hdir dot dots node no_link hnode ih =>
    rw [resolve_child hdir dot dots hnode no_link]
    exact ih h

/-- A path that goes on behind a directory goes on from there, perhaps with fewer links left. -/
theorem resolve_append (d : Disk) {links : Nat} {here steps place : List String} {es : Listing}
    (h : d.resolve true links here steps = .ok (.found place (.dir es))) {more : List String}
    (ne : more ≠ []) (follow : Bool) :
    ∃ left, d.resolve follow links here (steps ++ more) = d.resolve follow left place more := by
  fun_induction d.resolve true links here steps with
  | case1 links here =>
    obtain ⟨rfl, -⟩ := Target.found.inj (Except.ok.inj h)
    exact ⟨links, rfl⟩
  | case2 | case5 | case6 | case7 | case8 | case9 | case12 => simp at h
  | case3 _ _ rest entries hdir ih =>
    rw [List.cons_append, resolve_here hdir]
    exact ih h
  | case4 _ _ rest entries hdir _ ih =>
    rw [List.cons_append, resolve_up hdir]
    exact ih h
  | case10 _ _ rest entries hdir dot dots target hlink _ links full ih =>
    rw [List.cons_append, resolve_through_link hdir dot dots hlink (by simp [ne]) full,
      ← List.append_assoc]
    exact ih h
  | case11 _ _ _ rest entries hdir dot dots node no_link hnode ih =>
    rw [List.cons_append, resolve_child hdir dot dots hnode no_link]
    exact ih h

/-- Names that lead to a file or a directory, each in a real directory, resolve to it. -/
theorem resolve_names (d : Disk) {links : Nat} {here names : List String} {es : Listing}
    {node : Node} (hes : es.WellFormed) (hdir : d.root.node? here = some (.dir es))
    (h : es.node? names = some node) (no_link : ∀ target, node ≠ .link target) :
    d.resolve true links here names = .ok (.found (here ++ names) node) := by
  induction names generalizing here es with
  | nil =>
    obtain rfl : .dir es = node := by simpa [Listing.node?] using h
    rw [resolve, hdir, List.append_nil]
  | cons name path ih =>
    obtain ⟨-, dot, dots, -⟩ := Listing.validName_of_node? hes h name List.mem_cons_self
    have child : d.root.node? (here ++ [name]) = es.node? [name] := Listing.node?_append hdir _
    simp only [Listing.node?] at h child
    split at h
    · rename_i inner hfind
      rw [hfind] at child
      rw [resolve_child hdir dot dots hfind fun _ => Node.noConfusion,
        ih (hes.find? hfind).2 child h, List.append_assoc, List.singleton_append]
    · rename_i there _ hfind
      split at h
      · rename_i last
        obtain rfl := Option.some.inj h
        obtain rfl := List.isEmpty_iff.1 last
        simp only [hfind, List.isEmpty_nil, if_true] at child
        rw [resolve_child hdir dot dots hfind no_link, resolve]
        cases there <;> simp only [child]
      · simp at h
    · simp at h

theorem exists_dir_of_resolve_append {d : Disk} {follow : Bool} {links : Nat}
    {here steps more : List String} {t : Target} (ne : more ≠ [])
    (h : d.resolve follow links here (steps ++ more) = .ok t) :
    ∃ place es, d.resolve true links here steps = .ok (.found place (.dir es)) := by
  have filled : ∀ rest : List String, (rest ++ more).isEmpty = false := by simp [ne]
  fun_induction d.resolve true links here steps with
  | case1 links here node hnode =>
    obtain ⟨step, rest, rfl⟩ := List.exists_cons_of_ne_nil ne
    cases node with
    | dir es => exact ⟨here, es, rfl⟩
    | file _ | link _ | sink => simp [resolve, hnode] at h
  | case2 links here hnode =>
    obtain ⟨step, rest, rfl⟩ := List.exists_cons_of_ne_nil ne
    simp [resolve, hnode] at h
  | case3 _ _ rest es hdir ih =>
    rw [List.cons_append, resolve_here hdir] at h
    exact ih h
  | case4 _ _ rest es hdir _ ih =>
    rw [List.cons_append, resolve_up hdir] at h
    exact ih h
  | case5 _ _ _ rest es hdir dot dots absent | case6 _ _ _ rest es hdir dot dots absent =>
    rw [List.cons_append, resolve_absent hdir dot dots absent, filled] at h
    cases h
  | case7 _ _ _ _ _ _ _ _ _ _ last => simp at last
  | case8 _ _ rest _ hdir dot dots _ hlink =>
    rw [List.cons_append, resolve, hdir] at h
    simp [dot, dots, hlink, ne] at h
  | case9 _ _ rest _ hdir dot dots _ hlink _ _ empty =>
    rw [List.cons_append, resolve, hdir] at h
    simp only [dot, dots, if_false, hlink, filled, empty, Bool.false_and] at h
    simp at h
  | case10 _ _ rest es hdir dot dots target hlink _ links full ih =>
    rw [List.cons_append, resolve_through_link hdir dot dots hlink (by simp [ne]) full,
      ← List.append_assoc] at h
    exact ih h
  | case11 _ _ _ rest es hdir dot dots node no_link hnode ih =>
    rw [List.cons_append, resolve_child hdir dot dots hnode no_link] at h
    exact ih h
  | case12 _ _ _ _ no_dir =>
    rw [List.cons_append, resolve] at h
    split at h
    · rename_i es hdir
      exact absurd hdir (no_dir es)
    · simp at h

theorem resolve_of_dot (d : Disk) {links : Nat} {here steps place : List String} {es : Listing}
    (h : d.resolve true links here (steps ++ ["."]) = .ok (.found place (.dir es))) :
    d.resolve true links here steps = .ok (.found place (.dir es)) := by
  have dot : ["."] ≠ ([] : List String) := List.cons_ne_nil _ _
  obtain ⟨place', es', first⟩ := exists_dir_of_resolve_append dot h
  obtain ⟨left, same⟩ := d.resolve_append first dot true
  have there := d.node?_of_resolve first
  rw [same, resolve_here there, resolve, there] at h
  rw [first, ← Except.ok.inj h]

theorem entry_eq_ok {d : Disk} {path : String} {follow : Bool} {place : List String}
    {node : Node} : d.entry path follow = .ok (place, node) ↔
      d.lookup path follow = .ok (.found place node) := by
  unfold entry
  cases d.lookup path follow with
  | error e => simp [bind, Except.bind]
  | ok target => cases target <;> simp [bind, Except.bind, pure, Except.pure]

theorem node_eq_ok {d : Disk} {path : String} {follow : Bool} {node : Node} :
    d.node path follow = .ok node ↔ ∃ place, d.lookup path follow = .ok (.found place node) := by
  simp only [← entry_eq_ok]
  unfold Disk.node
  cases d.entry path follow with
  | error e => simp [Except.map]
  | ok found =>
    obtain ⟨place, node'⟩ := found
    simp [Except.map]

theorem isFile_eq_true {d : Disk} {path : String} :
    d.isFile path = true ↔ ∃ content, d.node path = .ok (.file content) := by
  unfold isFile
  split
  · rename_i content found
    exact ⟨fun _ => ⟨content, found⟩, fun _ => rfl⟩
  · rename_i no_file
    simpa using no_file

theorem readText_eq_ok {d : Disk} {path text : String} : d.readText path = .ok text ↔
    ∃ place node content, d.lookup path = .ok (.found place node) ∧
      d.limits.reading place = none ∧ node.content? = some content ∧
        String.fromUTF8? content = some text := by
  simp only [← entry_eq_ok]
  unfold readText read
  cases d.entry path with
  | error fault => simp [bind, Except.bind]
  | ok found =>
    obtain ⟨place, node⟩ := found
    simp only [bind, Except.bind, Except.ok.injEq, Prod.mk.injEq]
    cases refused : d.limits.reading place with
    | some fault => simp [refused]
    | none =>
      cases held : node.content? with
      | none => simp [held, refused]
      | some content =>
        cases decoded : String.fromUTF8? content <;>
          simp [held, refused, decoded, pure, Except.pure]

theorem node?_of_lookup {d : Disk} {path : String} {follow : Bool} {place : List String}
    {node : Node} (h : d.lookup path follow = .ok (.found place node)) :
    d.root.node? place = some node := by
  rw [lookup] at h
  split at h
  · cases h
  · exact d.node?_of_resolve h

theorem entry_of_not_follow {d : Disk} {path : String} {place : List String} {node : Node}
    (no_link : ∀ target, node ≠ .link target) (h : d.entry path false = .ok (place, node)) :
    d.entry path = .ok (place, node) := by
  rw [entry_eq_ok] at h ⊢
  rw [lookup] at h ⊢
  split at h
  · simp at h
  · rename_i filled
    rw [if_neg filled]
    exact d.resolve_of_not_follow no_link h

theorem exists_entry_of_follow {d : Disk} {path : String} {place : List String} {node : Node}
    (h : d.entry path = .ok (place, node)) :
    ∃ place' node', d.entry path false = .ok (place', node') := by
  simp only [entry_eq_ok] at h ⊢
  rw [lookup] at h ⊢
  split at h
  · simp at h
  · rename_i filled
    rw [if_neg filled]
    exact exists_resolve_of_follow h

section Below
variable {d : Disk} {root : String} {es : Listing} (hroot : d.node root = .ok (.dir es))
include hroot

theorem root_ne_empty : root ≠ "" := by
  rintro rfl
  obtain ⟨place, h⟩ := node_eq_ok.1 hroot
  simp [lookup] at h

theorem wellFormed_of_node : es.WellFormed := by
  obtain ⟨place, found⟩ := node_eq_ok.1 hroot
  exact Listing.wellFormed_of_node? d.wellFormed (node?_of_lookup found)

omit hroot in
theorem lookup_joins {place names : List String}
    (found : d.lookup root = .ok (.found place (.dir es))) (ne : names ≠ [])
    (valid : ∀ n ∈ names, ValidName n) (follow : Bool) :
    ∃ links, d.lookup (Path.joins root names) follow = d.resolve follow links place names := by
  have filled := root_ne_empty (node_eq_ok.2 ⟨place, found⟩)
  have unfilled : root.isEmpty = false := by simpa using filled
  rw [lookup, unfilled] at found
  simp only [Bool.false_eq_true, if_false] at found
  have base : d.resolve true 40 (if Path.isAbsolute root then [] else d.current)
      (Path.baseSteps root) = .ok (.found place (.dir es)) := by
    cases slash : root.toList.getLast? == some '/' with
    | true =>
      rw [Path.steps, slash, if_pos rfl] at found
      exact d.resolve_of_dot found
    | false =>
      rw [Path.steps, slash, if_neg Bool.false_ne_true, List.append_nil] at found
      exact found
  obtain ⟨left, further⟩ := d.resolve_append base ne follow
  have joined : (Path.joins root names).isEmpty = false := by
    simpa using Path.joins_ne_empty filled valid
  refine ⟨left, ?_⟩
  rw [lookup, joined, Path.isAbsolute_joins filled valid, Path.steps_joins filled valid ne,
    ← further]
  simp

end Below

end Disk

end Snapshot
