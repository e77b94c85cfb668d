import Snapshot.Proofs.Disk.Writing

/-!
# Removing files

A file is removed, or a link that leads to one. Then the paths that led to this file may lead
nowhere, but all others lead where they led. No path leads to anything new.
-/

namespace Snapshot

namespace Listing

theorem find?_erase_self {name : String} {es : Listing} (h : es.WellFormed) :
    (es.erase name).find? name = none := by
  have absent : ∀ {rest : Listing}, (∀ n ∈ rest.names, name < n) → rest.find? name = none :=
    fun above => (node?_singleton _ name).symm.trans (node?_eq_none (not_mem_of_lt above) [])
  induction es with
  | nil => rfl
  | file n _ rest ih | link n _ rest ih | sink n rest ih =>
    obtain ⟨-, above, hrest⟩ := h
    rw [erase]
    split
    · rename_i same
      exact absent (same ▸ above)
    · rename_i other
      rw [find?, if_neg other, ih hrest]
  | dir n _ rest _ ih =>
    obtain ⟨-, above, -, hrest⟩ := h
    rw [erase]
    split
    · rename_i same
      exact absent (same ▸ above)
    · rename_i other
      rw [find?, if_neg other, ih hrest]

theorem find?_erase_of_ne {name m : String} (ne : m ≠ name) (es : Listing) :
    (es.erase name).find? m = es.find? m := by
  induction es with
  | nil => rfl
  | file n _ rest ih | link n _ rest ih | sink n rest ih | dir n _ rest _ ih =>
    rw [erase]
    split
    · rename_i same
      rw [find?, if_neg (same ▸ ne.symm)]
    · rw [find?, find?, ih]

end Listing

namespace Disk

def Leads (d : Disk) (names : List String) (t : Target) : Prop :=
  ∃ links, d.resolve true links [] names = .ok t

theorem Leads.unique {d : Disk} {names : List String} {t t' : Target} (h : d.Leads names t)
    (h' : d.Leads names t') : t = t' := by
  obtain ⟨links, h⟩ := h
  obtain ⟨links', h'⟩ := h'
  have more := resolve_of_le (Nat.le_max_left links links') h
  rw [resolve_of_le (Nat.le_max_right links links') h'] at more
  exact (Except.ok.inj more).symm

theorem leads_of_resolve {d : Disk} {links : Nat} {here names : List String} {es : Listing}
    {t : Target} (hdir : d.root.node? here = some (.dir es))
    (h : d.resolve true links here names = .ok t) : d.Leads (here ++ names) t := by
  have from_top : d.resolve true links [] (here ++ names) =
      d.resolve true links ([] ++ here) names := d.resolve_dirs d.wellFormed rfl hdir
  exact ⟨links, from_top.trans h⟩

theorem leads_of_dir {d : Disk} {here : List String} {es : Listing}
    (hdir : d.root.node? here = some (.dir es)) : d.Leads here (.found here (.dir es)) := by
  have there : d.resolve true 0 here [] = .ok (.found here (.dir es)) := by rw [resolve, hdir]
  simpa using leads_of_resolve hdir there

theorem resolve_entry {d : Disk} {links : Nat} {here names : List String} {es : Listing}
    {node : Node} (hdir : d.root.node? here = some (.dir es)) (ne : names ≠ [])
    (h : es.node? names = some node) :
    d.resolve false links here names = .ok (.found (here ++ names) node) := by
  have hes := Listing.wellFormed_of_node? d.wellFormed hdir
  rcases List.eq_nil_or_concat names with rfl | ⟨dir, name, rfl⟩
  · exact absurd rfl ne
  rw [List.concat_eq_append] at h ⊢
  obtain ⟨inner, hinner⟩ := Listing.exists_dir_of_node? h
  obtain ⟨-, dot, dots, -⟩ := Listing.validName_of_node? hes h name (by simp)
  have child : d.root.node? (here ++ dir) = some (.dir inner) :=
    (Listing.node?_append hdir dir).trans hinner
  have there : d.root.node? (here ++ dir ++ [name]) = some node := by
    rw [List.append_assoc, Listing.node?_append hdir, h]
  rw [resolve_dirs hes hdir hinner, resolve, child]
  have found := (Listing.node?_concat child name).symm.trans there
  cases node with
  | link target => simp [dot, dots, found]
  | file _ | dir _ | sink =>
    simp only [dot, dots, if_false, found]
    rw [resolve, there, List.append_assoc]

structure FilesGone (gone : List (List String)) (d d' : Disk) : Prop where
  current : d'.current = d.current
  limits : d'.limits = d.limits
  before : ∀ p ∈ gone, ∃ place content, d.Leads p (.found place (.file content))
  after : ∀ p ∈ gone, d'.root.node? p = none
  elsewhere : ∀ p, p ∉ gone → d'.root.shell? p = d.root.shell? p

/-- No file or link that was removed leads to a place. -/
def Spares (d : Disk) (gone : List (List String)) (place : List String) : Prop :=
  ∀ p ∈ gone, ∀ node, ¬ d.Leads p (.found place node)

namespace FilesGone

theorem refl (d : Disk) : FilesGone [] d d := ⟨rfl, rfl, by simp, by simp, fun _ _ => rfl⟩

section Places
variable {gone : List (List String)} {d d' : Disk} (h : FilesGone gone d d')
include h

theorem not_mem_of_dir {p : List String} {es : Listing} (hdir : d.root.node? p = some (.dir es)) :
    p ∉ gone := by
  intro hp
  obtain ⟨place, content, leads⟩ := h.before p hp
  exact Node.noConfusion (Target.found.inj (leads.unique (leads_of_dir hdir))).2

theorem shell?_of_node? {p : List String} {node : Node} (hnode : d'.root.node? p = some node) :
    d.root.shell? p = some node.shell := by
  have out : p ∉ gone := fun hp => by
    rw [h.after p hp] at hnode
    cases hnode
  rw [← h.elsewhere p out, Listing.shell?, hnode]
  rfl

theorem spares_dir {p : List String} {es : Listing} (hdir : d.root.node? p = some (.dir es)) :
    d.Spares gone p := by
  rintro q hq node ⟨links, leads⟩
  obtain ⟨place, content, ends⟩ := h.before q hq
  obtain ⟨rfl, rfl⟩ := Target.found.inj (ends.unique ⟨links, leads⟩)
  rw [d.node?_of_resolve leads] at hdir
  cases hdir

theorem exists_dir {p : List String} {es : Listing} (hdir : d.root.node? p = some (.dir es)) :
    ∃ es', d'.root.node? p = some (.dir es') := by
  have same := h.elsewhere p (h.not_mem_of_dir hdir)
  rwa [Listing.shell?_eq_dir.2 ⟨es, hdir⟩, Listing.shell?_eq_dir] at same

theorem exists_dir_before {p : List String} {es : Listing}
    (hdir : d'.root.node? p = some (.dir es)) : ∃ es', d.root.node? p = some (.dir es') :=
  Listing.shell?_eq_dir.1 (h.shell?_of_node? hdir)

theorem resolve_before {links : Nat} {here steps place : List String} {node : Node}
    (found : d'.resolve true links here steps = .ok (.found place node)) :
    ∃ node', d.resolve true links here steps = .ok (.found place node') := by
  fun_induction d'.resolve true links here steps with
  | case1 links here node hnode =>
    obtain ⟨rfl, rfl⟩ := Target.found.inj (Except.ok.inj found)
    obtain ⟨node', hnode', -⟩ := Option.map_eq_some_iff.1 (h.shell?_of_node? hnode)
    exact ⟨node', by rw [resolve, hnode']⟩
  | case2 | case5 | case6 | case8 | case9 | case12 => simp at found
  | case7 _ _ _ _ _ _ _ _ _ _ last => simp at last
  | case3 links here rest es hdir ih =>
    obtain ⟨es', hdir'⟩ := h.exists_dir_before hdir
    rw [resolve_here hdir']
    exact ih found
  | case4 links here rest es hdir dot ih =>
    obtain ⟨es', hdir'⟩ := h.exists_dir_before hdir
    rw [resolve_up hdir']
    exact ih found
  | case10 here step rest es hdir dot dots target hlink last links full ih =>
    obtain ⟨es', hdir'⟩ := h.exists_dir_before hdir
    have there := h.shell?_of_node? ((Listing.node?_concat hdir step).trans hlink)
    have hlink' := (Listing.node?_concat hdir' step).symm.trans (Listing.shell?_eq_link.1 there)
    rw [resolve_through_link hdir' dot dots hlink' last full]
    exact ih found
  | case11 links here step rest es hdir dot dots node' no_link hnode ih =>
    obtain ⟨es', hdir'⟩ := h.exists_dir_before hdir
    have there := h.shell?_of_node? ((Listing.node?_concat hdir step).trans hnode)
    rw [Listing.shell?, Listing.node?_concat hdir'] at there
    obtain ⟨old, hold, same⟩ := Option.map_eq_some_iff.1 there
    rw [resolve_child hdir' dot dots hold (Node.no_link_of_shell same no_link)]
    exact ih found

section Spared
variable {links : Nat} {here rest place : List String} {es : Listing} {step : String} {node : Node}
  (spared : d.Spares gone place) (hdir : d.root.node? here = some (.dir es))
include spared hdir

/-- A link on a path to what is spared has not been removed: it would lead to a file, so the path
would end there. -/
theorem link_not_mem {target : String} (hlink : es.find? step = some (.link target))
    (full : ¬ target.isEmpty = true)
    (found : d.resolve true links (if Path.isAbsolute target then [] else here)
      (Path.steps target ++ rest) = .ok (.found place node)) : here ++ [step] ∉ gone := by
  have filled : target ≠ "" := by simpa using full
  have valid := ((Listing.wellFormed_of_node? d.wellFormed hdir).find? hlink).1
  intro hp
  by_cases hr : rest = []
  · rw [hr, List.append_nil] at found
    exact spared _ hp node ⟨_, resolve_link hdir valid hlink filled found⟩
  · obtain ⟨q, inner, leads⟩ := exists_dir_of_resolve_append hr found
    obtain ⟨q', content, ends⟩ := h.before _ hp
    have same := ends.unique ⟨_, resolve_link hdir valid hlink filled leads⟩
    exact Node.noConfusion (Target.found.inj same).2

theorem child_not_mem (dot : step ≠ ".") (dots : step ≠ "..") {child : Node}
    (hchild : es.find? step = some child) (no_link : ∀ target, child ≠ .link target)
    (found : d.resolve true links (here ++ [step]) rest = .ok (.found place node)) :
    here ++ [step] ∉ gone := by
  have there := (Listing.node?_concat hdir step).trans hchild
  intro hp
  by_cases hr : rest = []
  · rw [hr] at found
    have whole : d.resolve true links here [step] = .ok (.found place node) := by
      rwa [resolve_child hdir dot dots hchild no_link]
    exact spared _ hp node (leads_of_resolve hdir whole)
  · obtain ⟨next, more, rfl⟩ := List.exists_cons_of_ne_nil hr
    cases child with
    | link target => exact no_link target rfl
    | dir inner => exact h.not_mem_of_dir there hp
    | file _ | sink => simp [resolve, there] at found

end Spared

/-- What no removed entry leads to is still found. -/
theorem resolve_of_spares {links : Nat} {here steps place : List String} {node : Node}
    (hhere : here ∉ gone) (spared : d.Spares gone place)
    (found : d.resolve true links here steps = .ok (.found place node)) :
    ∃ node', d'.resolve true links here steps = .ok (.found place node') := by
  fun_induction d.resolve true links here steps with
  | case1 links here node hnode =>
    obtain ⟨rfl, rfl⟩ := Target.found.inj (Except.ok.inj found)
    have same := h.elsewhere _ hhere
    rw [Listing.shell?, Listing.shell?, hnode] at same
    obtain ⟨node', hnode', -⟩ := Option.map_eq_some_iff.1 same
    exact ⟨node', by rw [resolve, hnode']⟩
  | case2 | case5 | case6 | case8 | case9 | case12 => simp at found
  | case7 _ _ _ _ _ _ _ _ _ _ last => simp at last
  | case3 links here rest es hdir ih =>
    obtain ⟨es', hdir'⟩ := h.exists_dir hdir
    rw [resolve_here hdir']
    exact ih hhere found
  | case4 links here rest es hdir dot ih =>
    obtain ⟨es', hdir'⟩ := h.exists_dir hdir
    obtain ⟨up, hup⟩ := exists_dir_dropLast hdir
    rw [resolve_up hdir']
    exact ih (h.not_mem_of_dir hup) found
  | case10 here step rest es hdir dot dots target hlink last links full ih =>
    obtain ⟨es', hdir'⟩ := h.exists_dir hdir
    have same := h.elsewhere _ (h.link_not_mem spared hdir hlink full found)
    have there := (Listing.node?_concat hdir step).trans hlink
    rw [Listing.shell?_eq_link.2 there, Listing.shell?_eq_link] at same
    have hlink' := (Listing.node?_concat hdir' step).symm.trans same
    have start : (if Path.isAbsolute target then [] else here) ∉ gone := by
      split
      · exact h.not_mem_of_dir (p := []) rfl
      · exact hhere
    rw [resolve_through_link hdir' dot dots hlink' last full]
    exact ih start found
  | case11 links here step rest es hdir dot dots child no_link hchild ih =>
    obtain ⟨es', hdir'⟩ := h.exists_dir hdir
    have there := (Listing.node?_concat hdir step).trans hchild
    have out := h.child_not_mem spared hdir dot dots hchild no_link found
    have same := h.elsewhere _ out
    rw [Listing.shell?, Listing.shell?, there, Listing.node?_concat hdir'] at same
    obtain ⟨new, hnew, same⟩ := Option.map_eq_some_iff.1 same
    rw [resolve_child hdir' dot dots hnew (Node.no_link_of_shell same no_link)]
    exact ih out found

theorem lookup_before {path : String} {place : List String} {node : Node}
    (found : d'.lookup path = .ok (.found place node)) :
    ∃ node', d.lookup path = .ok (.found place node') ∧ node'.shell = node.shell := by
  have there := h.shell?_of_node? (node?_of_lookup found)
  have filled := ne_empty_of_lookup found
  have start : d'.startOf path = d.startOf path := by rw [startOf, startOf, h.current]
  rw [lookup_of_ne_empty filled, start] at found
  obtain ⟨node', found⟩ := h.resolve_before found
  rw [← lookup_of_ne_empty filled] at found
  rw [Listing.shell?, node?_of_lookup found] at there
  exact ⟨node', found, Option.some.inj there⟩

theorem lookup_of_spares {path : String} {place : List String} {node : Node}
    (spared : d.Spares gone place) (found : d.lookup path = .ok (.found place node)) :
    ∃ node', d'.lookup path = .ok (.found place node') ∧ node'.shell = node.shell := by
  have filled := ne_empty_of_lookup found
  have old := node?_of_lookup found
  have start : d'.startOf path = d.startOf path := by rw [startOf, startOf, h.current]
  rw [lookup_of_ne_empty filled] at found
  have in_dir : d.startOf path ∉ gone := by
    obtain ⟨step, rest, steps⟩ := List.exists_cons_of_ne_nil (Path.steps_ne_nil filled)
    rw [steps, resolve] at found
    split at found
    · rename_i es hdir
      exact h.not_mem_of_dir hdir
    · cases found
  obtain ⟨node', found'⟩ := h.resolve_of_spares in_dir spared found
  rw [← start, ← lookup_of_ne_empty filled] at found'
  have there := h.shell?_of_node? (node?_of_lookup found')
  rw [Listing.shell?, old] at there
  exact ⟨node', found', (Option.some.inj there).symm⟩

theorem lookup_dir {path : String} {place : List String} {es : Listing}
    (found : d.lookup path = .ok (.found place (.dir es))) :
    ∃ es', d'.lookup path = .ok (.found place (.dir es')) := by
  obtain ⟨node, found', shell⟩ := h.lookup_of_spares (h.spares_dir (node?_of_lookup found)) found
  obtain ⟨es', rfl⟩ := Node.shell_eq_dir.1 shell
  exact ⟨es', found'⟩

theorem seen_eq {path : String} (out : ∀ place, d.place? path = some place → d.Spares gone place) :
    d'.seen path = d.seen path := by
  refine Option.ext fun sight => ?_
  rcases sight with ⟨place, shell⟩
  rw [seen_eq_some, seen_eq_some]
  constructor
  · rintro ⟨node, found, rfl⟩
    exact h.lookup_before found
  · rintro ⟨node, found, rfl⟩
    exact h.lookup_of_spares (out place (place?_eq_some.2 ⟨_, found, rfl⟩)) found

theorem erase {dir : List String} {name : String} {es : Listing}
    (hdir : d'.root.node? dir = some (.dir es))
    (before : ∃ place content, d.Leads (dir ++ [name]) (.found place (.file content))) :
    FilesGone (gone ++ [dir ++ [name]]) d (d'.erase dir name) := by
  have hes := Listing.wellFormed_of_node? d'.wellFormed hdir
  have absent : (es.erase name).find? name = none := Listing.find?_erase_self hes
  have no_dir : ∀ entries, es.find? name ≠ some (.dir entries) := by
    intro entries same
    obtain ⟨inner, hinner⟩ := h.exists_dir_before ((Listing.node?_concat hdir name).trans same)
    obtain ⟨place, content, leads⟩ := before
    exact Node.noConfusion (Target.found.inj (leads.unique (leads_of_dir hinner))).2
  have missing : (d'.erase dir name).root.node? (dir ++ [name]) = none :=
    (Listing.node?_concat (Listing.node?_changeAt _ hdir) name).trans absent
  have others : ∀ p, p ≠ dir ++ [name] → (d'.erase dir name).root.shell? p = d'.root.shell? p :=
    fun p hp => Listing.shell?_changeAt_of_ne hdir
      (fun m ne => Listing.find?_erase_of_ne ne es) no_dir (by simp [absent]) hp
  refine ⟨h.current, h.limits, fun p hp => ?_, fun p hp => ?_, fun p hp => ?_⟩
  · rcases List.mem_append.1 hp with hp | hp
    · exact h.before p hp
    · rw [List.mem_singleton.1 hp]
      exact before
  · by_cases last : p = dir ++ [name]
    · rw [last, missing]
    · have first := (List.mem_append.1 hp).resolve_right (by simpa using last)
      rw [← Listing.shell?_eq_none, others p last, Listing.shell?_eq_none, h.after p first]
  · rw [List.mem_append, not_or] at hp
    exact (others p (by simpa using hp.2)).trans (h.elsewhere p hp.1)

end Places

end FilesGone

theorem remove_eq {d : Disk} {path : String} {dir : List String} {name : String} {node : Node}
    (found : d.lookup path false = .ok (.found (dir ++ [name]) node)) :
    d.remove path = .ok (d.erase dir name) := by
  unfold remove
  simp only [found, bind, Except.bind, List.getLast?_concat, List.dropLast_concat]
  rfl

section Below
variable {d : Disk} {root : String} {es : Listing} {place : List String}
  (found : d.lookup root = .ok (.found place (.dir es)))
include found

theorem leads_of_lookup_joins {names : List String} {node : Node} {t : Target}
    (entry : es.node? names = some node) (ne : names ≠ [])
    (leads : d.lookup (Path.joins root names) = .ok t) : d.Leads (place ++ names) t := by
  have hroot := node_eq_ok.2 ⟨place, found⟩
  have valid := Listing.validName_of_node? (wellFormed_of_node hroot) entry
  obtain ⟨links, same⟩ := lookup_joins found ne valid true
  exact leads_of_resolve (node?_of_lookup found) (same.symm.trans leads)

theorem exists_remove {done : List (List String)} {d' : Disk}
    (h : FilesGone (done.map (place ++ ·)) d d') {names : List String} (further : names ∉ done)
    (entry : ∃ node, es.node? names = some node ∧ node.isDir = false)
    (file : d.isFile (Path.joins root names) = true) :
    ∃ d'', d'.remove (Path.joins root names) = .ok d'' ∧
      FilesGone ((done ++ [names]).map (place ++ ·)) d d'' := by
  obtain ⟨node, hnode, no_dir⟩ := entry
  have ne : names ≠ [] := by
    rintro rfl
    rw [← Option.some.inj hnode] at no_dir
    cases no_dir
  have hdir := node?_of_lookup found
  obtain ⟨es', found'⟩ := h.lookup_dir found
  have out : place ++ names ∉ done.map (place ++ ·) := by simpa using further
  have same := h.elsewhere _ out
  rw [Listing.shell?, Listing.shell?, Listing.node?_append hdir,
    Listing.node?_append (node?_of_lookup found'), hnode] at same
  obtain ⟨now, hnow, -⟩ := Option.map_eq_some_iff.1 same
  have hroot' := node_eq_ok.2 ⟨place, found'⟩
  have valid := Listing.validName_of_node? (wellFormed_of_node hroot') hnow
  obtain ⟨links, leads⟩ := lookup_joins found' ne valid false
  rw [resolve_entry (node?_of_lookup found') ne hnow] at leads
  obtain ⟨content, hfile⟩ := isFile_eq_true.1 file
  obtain ⟨q, ends⟩ := node_eq_ok.1 hfile
  have before := leads_of_lookup_joins found hnode ne ends
  rcases List.eq_nil_or_concat names with rfl | ⟨dir, name, rfl⟩
  · exact absurd rfl ne
  rw [List.concat_eq_append] at *
  obtain ⟨inner, hinner⟩ := Listing.exists_dir_of_node? hnow
  rw [← List.append_assoc] at leads before
  have hinner := (Listing.node?_append (node?_of_lookup found') dir).trans hinner
  refine ⟨_, remove_eq leads, ?_⟩
  rw [List.map_append, List.map_singleton, ← List.append_assoc]
  exact h.erase hinner ⟨q, content, before⟩

theorem exists_foldlM_remove {names done : List (List String)} {d' : Disk}
    (h : FilesGone (done.map (place ++ ·)) d d') (once : (done ++ names).Nodup)
    (entries : ∀ n ∈ names, (∃ node, es.node? n = some node ∧ node.isDir = false) ∧
      d.isFile (Path.joins root n) = true) :
    ∃ d'', (names.map (Path.joins root)).foldlM remove d' = .ok d'' ∧
      FilesGone ((done ++ names).map (place ++ ·)) d d'' := by
  induction names generalizing done d' with
  | nil => exact ⟨d', rfl, by rwa [List.append_nil]⟩
  | cons n names ih =>
    rw [List.forall_mem_cons] at entries
    have further : n ∉ done := fun hn =>
      (List.nodup_append.1 once).2.2 n hn n List.mem_cons_self rfl
    obtain ⟨d₁, step, h₁⟩ := exists_remove found h further entries.1.1 entries.1.2
    rw [List.append_cons] at once ⊢
    obtain ⟨d'', run, h''⟩ := ih h₁ once entries.2
    refine ⟨d'', ?_, h''⟩
    rw [List.map_cons, List.foldlM_cons, step]
    exact run

end Below

end Disk

end Snapshot
