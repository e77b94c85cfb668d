import Snapshot.Proofs.Yaml.Reading
import Snapshot.Report.Yaml

/-!
# Reports told apart by their YAML

Two reports with one YAML text are the same report. Each scalar ends where it was written to end,
whatever its text, so no text goes over into the next key, into the next list item or into the next
category, and what stands behind a list tells that it has ended.
-/

namespace Snapshot.Report

open Yaml

def IsName (key : String) : Prop :=
  key ≠ "" ∧ key.toList.all (fun c => c.isLower || c == '_') = true

instance (key : String) : Decidable (IsName key) := inferInstanceAs (Decidable (_ ∧ _))

section Names
variable {key : String} (h : IsName key)
include h

theorem IsName.not_mem {c : Char} (other : (c.isLower || c == '_') = false) : c ∉ key.toList := by
  intro hc
  rw [List.all_eq_true.1 h.2 c hc] at other
  cases other

theorem IsName.exists_head :
    ∃ c s, key.toList = c :: s ∧ isBreak c = false ∧ c ≠ ' ' ∧ c ≠ '-' := by
  cases hkey : key.toList with
  | nil => exact absurd (String.toList_eq_nil_iff.1 hkey) h.1
  | cons c s =>
    have first : c ∈ key.toList := hkey ▸ List.mem_cons_self
    refine ⟨c, s, rfl, ?_, ?_, ?_⟩
    · by_contra newline
      simp only [isBreak, Bool.not_eq_false, Bool.or_eq_true, beq_iff_eq] at newline
      rcases newline with (((rfl | rfl) | rfl) | rfl) | rfl <;> exact h.not_mem (by decide) first
    · rintro rfl
      exact h.not_mem (by decide) first
    · rintro rfl
      exact h.not_mem (by decide) first

end Names

theorem toList_yamlField (lead key value : String) (rest : List Char) :
    (yamlField lead key value).toList ++ rest =
      (lead ++ key ++ ": ").toList ++ (scalarLine 4 value.toList ++ rest) := by
  simp [yamlField]

theorem stops_cons {c : Char} (no_break : isBreak c = false) (no_space : c ≠ ' ')
    (rest : List Char) : Stops 4 (c :: rest) :=
  ⟨no_break, by simp [List.replicate_succ, List.isPrefixOf_cons_cons, Ne.symm no_space]⟩

theorem stops_field {key : String} (h : IsName key) (value : String) (rest : List Char) :
    Stops 4 ((yamlField "  " key value).toList ++ rest) := by
  obtain ⟨c, s, hkey, -, no_space, -⟩ := h.exists_head
  rw [toList_yamlField]
  simp only [String.toList_append, hkey]
  exact ⟨rfl, by simp [List.replicate_succ, List.isPrefixOf_cons_cons, Ne.symm no_space]⟩

theorem yamlField_append_inj {lead key value value' : String} {rest rest' : List Char}
    (stops : Stops 4 rest) (stops' : Stops 4 rest')
    (same : (yamlField lead key value).toList ++ rest =
      (yamlField lead key value').toList ++ rest') : value = value' ∧ rest = rest' := by
  rw [toList_yamlField, toList_yamlField] at same
  have read := congrArg (readScalar? 4) (List.append_cancel_left same)
  rw [readScalar?_scalarLine (by decide) _ stops,
    readScalar?_scalarLine (by decide) _ stops'] at read
  obtain ⟨values, rests⟩ := Prod.mk.inj (Option.some.inj read)
  exact ⟨String.toList_inj.1 values, rests⟩

def fieldLines (fields : List (String × String)) : List Char :=
  fields.flatMap fun field => (yamlField "  " field.1 field.2).toList

theorem toList_yamlItem (field : String × String) (fields : List (String × String)) :
    (yamlItem (field :: fields)).toList =
      (yamlField "- " field.1 field.2).toList ++ fieldLines fields := by
  rw [yamlItem, String.toList_append, String.toList_join, List.flatMap_map]
  rfl

section Items
variable {rest rest' : List Char} (stops : Stops 4 rest) (stops' : Stops 4 rest')

include stops in
theorem stops_fieldLines {fields : List (String × String)}
    (named : ∀ key ∈ fields.map Prod.fst, IsName key) : Stops 4 (fieldLines fields ++ rest) := by
  cases fields with
  | nil => exact stops
  | cons field fields =>
    rw [fieldLines, List.flatMap_cons, List.append_assoc]
    exact stops_field (named _ List.mem_cons_self) _ _

include stops stops' in
theorem fieldLines_append_inj {fields fields' : List (String × String)}
    (keys : fields'.map Prod.fst = fields.map Prod.fst)
    (named : ∀ key ∈ fields.map Prod.fst, IsName key)
    (same : fieldLines fields ++ rest = fieldLines fields' ++ rest') :
    fields = fields' ∧ rest = rest' := by
  induction fields generalizing fields' with
  | nil =>
    obtain rfl := List.map_eq_nil_iff.1 keys
    exact ⟨rfl, same⟩
  | cons field fields ih =>
    obtain ⟨field', fields', rfl, key, keys⟩ := List.map_eq_cons_iff.1 keys
    obtain ⟨first, named⟩ := List.forall_mem_cons.1 named
    rw [fieldLines, fieldLines, List.flatMap_cons, List.flatMap_cons, List.append_assoc,
      List.append_assoc, key] at same
    obtain ⟨value, further⟩ := yamlField_append_inj (stops_fieldLines stops named)
      (stops_fieldLines stops' (keys ▸ named)) same
    obtain ⟨rfl, ended⟩ := ih keys named further
    exact ⟨congrArg (· :: fields) (Prod.ext key.symm value), ended⟩

include stops stops' in
theorem yamlItem_append_inj {fields fields' : List (String × String)} (filled : fields ≠ [])
    (keys : fields'.map Prod.fst = fields.map Prod.fst)
    (named : ∀ key ∈ fields.map Prod.fst, IsName key)
    (same : (yamlItem fields).toList ++ rest = (yamlItem fields').toList ++ rest') :
    fields = fields' ∧ rest = rest' := by
  cases fields with
  | nil => exact absurd rfl filled
  | cons field fields =>
    obtain ⟨field', fields', rfl, key, keys⟩ := List.map_eq_cons_iff.1 keys
    obtain ⟨-, named⟩ := List.forall_mem_cons.1 named
    rw [toList_yamlItem, toList_yamlItem, List.append_assoc, List.append_assoc, key] at same
    obtain ⟨value, further⟩ := yamlField_append_inj (stops_fieldLines stops named)
      (stops_fieldLines stops' (keys ▸ named)) same
    obtain ⟨rfl, ended⟩ := fieldLines_append_inj stops stops' keys named further
    exact ⟨congrArg (· :: fields) (Prod.ext key.symm value), ended⟩

def itemLines (items : List (List (String × String))) : List Char :=
  items.flatMap fun fields => (yamlItem fields).toList

theorem exists_dash {fields : List (String × String)} (filled : fields ≠ []) (rest : List Char) :
    ∃ s, (yamlItem fields).toList ++ rest = '-' :: s := by
  cases fields with
  | nil => exact absurd rfl filled
  | cons field fields =>
    rw [toList_yamlItem, List.append_assoc, toList_yamlField, String.toList_append,
      String.toList_append]
    exact ⟨_, rfl⟩

variable {keys : List String} (ne : keys ≠ []) (named : ∀ key ∈ keys, IsName key)
include ne

theorem ne_nil_of_keys {fields : List (String × String)} (h : fields.map Prod.fst = keys) :
    fields ≠ [] := by
  rintro rfl
  exact ne h.symm

include stops in
theorem stops_itemLines {items : List (List (String × String))}
    (h : ∀ fields ∈ items, fields.map Prod.fst = keys) : Stops 4 (itemLines items ++ rest) := by
  cases items with
  | nil => exact stops
  | cons fields items =>
    obtain ⟨s, begins⟩ := exists_dash (ne_nil_of_keys ne (h _ List.mem_cons_self))
      (itemLines items ++ rest)
    rw [itemLines, List.flatMap_cons, List.append_assoc]
    exact begins ▸ stops_cons (by decide) (by decide) s

include named stops stops' in
theorem itemLines_append_inj (ended : rest.head? ≠ some '-') (ended' : rest'.head? ≠ some '-')
    {items items' : List (List (String × String))}
    (h : ∀ fields ∈ items, fields.map Prod.fst = keys)
    (h' : ∀ fields ∈ items', fields.map Prod.fst = keys)
    (same : itemLines items ++ rest = itemLines items' ++ rest') :
    items = items' ∧ rest = rest' := by
  induction items generalizing items' with
  | nil =>
    cases items' with
    | nil => exact ⟨rfl, same⟩
    | cons fields' items' =>
      obtain ⟨s, begins⟩ := exists_dash (ne_nil_of_keys ne (h' _ List.mem_cons_self))
        (itemLines items' ++ rest')
      rw [itemLines, itemLines, List.flatMap_cons, List.append_assoc] at same
      have goes_on : rest = '-' :: s := same.trans begins
      exact absurd (congrArg List.head? goes_on) ended
  | cons fields items ih =>
    obtain ⟨first, others⟩ := List.forall_mem_cons.1 h
    cases items' with
    | nil =>
      obtain ⟨s, begins⟩ := exists_dash (ne_nil_of_keys ne first) (itemLines items ++ rest)
      rw [itemLines, itemLines, List.flatMap_cons, List.append_assoc] at same
      have goes_on : rest' = '-' :: s := same.symm.trans begins
      exact absurd (congrArg List.head? goes_on) ended'
    | cons fields' items' =>
      obtain ⟨first', others'⟩ := List.forall_mem_cons.1 h'
      rw [itemLines, itemLines, List.flatMap_cons, List.flatMap_cons, List.append_assoc,
        List.append_assoc] at same
      obtain ⟨rfl, further⟩ := yamlItem_append_inj (stops_itemLines stops ne others)
        (stops_itemLines stops' ne others') (ne_nil_of_keys ne first) (first'.trans first.symm)
        (first ▸ named) same
      obtain ⟨rfl, ended⟩ := ih others others' further
      exact ⟨rfl, ended⟩

end Items

def columns (category : String) : List String :=
  if category = "core_modules" then ["name", "type", "file", "description"]
  else ["name", "file", "description"]

theorem columns_ne_nil (category : String) : columns category ≠ [] := by
  unfold columns
  split <;> exact List.cons_ne_nil _ _

theorem isName_of_mem_columns {category key : String} (h : key ∈ columns category) :
    IsName key := by
  have all : ∀ key ∈ ["name", "type", "file", "description"], IsName key := by decide
  refine all key ?_
  unfold columns at h
  split at h
  · exact h
  · exact List.Sublist.subset (by decide) h

abbrev Categories := List (String × List (List (String × String)))

def Categories.Regular (cs : Categories) : Prop :=
  ∀ c ∈ cs, IsName c.1 ∧ ∀ fields ∈ c.2, fields.map Prod.fst = columns c.1

def categoryLines (cs : Categories) : List Char :=
  cs.flatMap fun c => (yamlCategory c.1 c.2).toList

theorem toList_yamlCategory {key : String} {items : List (List (String × String))}
    (filled : items ≠ []) (rest : List Char) :
    (yamlCategory key items).toList ++ rest =
      key.toList ++ ':' :: '\n' :: (itemLines items ++ rest) := by
  have unempty : items.isEmpty = false := by simpa using filled
  rw [yamlCategory, unempty]
  simp [String.toList_join, List.flatMap_map, itemLines]

section Categories
variable {cs : Categories} (regular : cs.Regular)
include regular

theorem exists_key : categoryLines cs = [] ∨
    ∃ c ∈ cs, ∃ rest, categoryLines cs = c.1.toList ++ ':' :: rest := by
  induction cs with
  | nil => exact .inl rfl
  | cons c cs ih =>
    obtain ⟨-, regular⟩ := List.forall_mem_cons.1 regular
    rw [categoryLines, List.flatMap_cons]
    by_cases filled : c.2 = []
    · have nothing : (yamlCategory c.1 c.2).toList = [] := by rw [yamlCategory, filled]; rfl
      rw [nothing, List.nil_append]
      refine (ih regular).imp_right ?_
      rintro ⟨c', hc', rest, begins⟩
      exact ⟨c', List.mem_cons_of_mem _ hc', rest, begins⟩
    · exact .inr ⟨c, List.mem_cons_self, _, toList_yamlCategory filled _⟩

theorem mem_keys {key rest : List Char} (no_colon : ':' ∉ key)
    (begins : categoryLines cs = key ++ ':' :: rest) : ∃ c ∈ cs, c.1.toList = key := by
  obtain nothing | ⟨c, hc, rest', begins'⟩ := exists_key regular
  · simp [nothing] at begins
  · refine ⟨c, hc, ?_⟩
    have no_colon' := (regular c hc).1.not_mem (c := ':') (by decide)
    have same := congrArg (List.takeWhile (· != ':')) (begins'.symm.trans begins)
    rwa [Text.takeWhile_until no_colon', Text.takeWhile_until no_colon] at same

theorem stops_categoryLines : Stops 4 (categoryLines cs) ∧ (categoryLines cs).head? ≠ some '-' := by
  obtain nothing | ⟨c, hc, rest, begins⟩ := exists_key regular
  · rw [nothing]
    exact ⟨⟨rfl, rfl⟩, by simp⟩
  · obtain ⟨a, s, hkey, no_break, no_space, no_dash⟩ := (regular c hc).1.exists_head
    rw [begins, hkey]
    exact ⟨stops_cons no_break no_space _, by simpa using no_dash⟩

end Categories

/-- Where a list of categories goes on without one of them, its key begins no line. -/
theorem categoryLines_ne {cs : Categories} (regular : cs.Regular) {key : String} (h : IsName key)
    (fresh : key ∉ cs.map Prod.fst) {items : List (List (String × String))} (filled : items ≠ [])
    (rest : List Char) : (yamlCategory key items).toList ++ rest ≠ categoryLines cs := by
  intro same
  rw [toList_yamlCategory filled] at same
  obtain ⟨c, hc, begins⟩ := mem_keys regular (h.not_mem (by decide)) same.symm
  exact fresh (List.mem_map.2 ⟨c, hc, String.toList_inj.1 begins⟩)

theorem categoryLines_inj {cs cs' : Categories} (regular : cs.Regular) (regular' : cs'.Regular)
    (keys : cs'.map Prod.fst = cs.map Prod.fst) (distinct : (cs.map Prod.fst).Nodup)
    (same : categoryLines cs = categoryLines cs') : cs = cs' := by
  induction cs generalizing cs' with
  | nil => exact (List.map_eq_nil_iff.1 keys).symm
  | cons c cs ih =>
    obtain ⟨key, items⟩ := c
    obtain ⟨⟨key', items'⟩, rest', rfl, first, keys'⟩ := List.map_eq_cons_iff.1 keys
    obtain rfl : key' = key := first
    obtain ⟨⟨named, rows⟩, others⟩ := List.forall_mem_cons.1 regular
    obtain ⟨⟨-, rows'⟩, others'⟩ := List.forall_mem_cons.1 regular'
    obtain ⟨fresh, distinct'⟩ := List.nodup_cons.1 distinct
    have nothing : ∀ key, (yamlCategory key []).toList = [] := fun _ => rfl
    rw [categoryLines, categoryLines, List.flatMap_cons, List.flatMap_cons] at same
    by_cases filled : items = []
    · by_cases filled' : items' = []
      · simp only [filled, filled', nothing, List.nil_append] at same ⊢
        rw [ih others others' keys' distinct' same]
      · simp only [filled, nothing, List.nil_append] at same
        exact absurd same.symm (categoryLines_ne others named fresh filled' _)
    · by_cases filled' : items' = []
      · simp only [filled', nothing, List.nil_append] at same
        exact absurd same (categoryLines_ne others' named (keys' ▸ fresh) filled _)
      · simp only [toList_yamlCategory filled, toList_yamlCategory filled'] at same
        obtain ⟨stops, ended⟩ := stops_categoryLines others
        obtain ⟨stops', ended'⟩ := stops_categoryLines others'
        have lines := (List.cons.inj (List.cons.inj (List.append_cancel_left same)).2).2
        obtain ⟨same_items, further⟩ := itemLines_append_inj stops stops' (columns_ne_nil _)
          (fun _ => isName_of_mem_columns) ended ended' rows rows' lines
        rw [ih others others' keys' distinct' further]
        exact congrArg (fun items => (key', items) :: rest') same_items

def categoryRows (r : Report) : Categories :=
  [("core_modules", r.coreModules.map CoreModule.fields),
    ("components", r.components.map Entry.fields), ("hooks", r.hooks.map Entry.fields),
    ("utilities", r.utilities.map Entry.fields), ("types", r.types.map Entry.fields)]

theorem regular_categoryRows (r : Report) : r.categoryRows.Regular := by
  have entries : ∀ (key : String) (es : List Entry),
      key ∈ ["components", "hooks", "utilities", "types"] →
        IsName key ∧ ∀ fields ∈ es.map Entry.fields, fields.map Prod.fst = columns key := by
    intro key es hkey
    have known : ∀ key ∈ ["components", "hooks", "utilities", "types"],
        IsName key ∧ key ≠ "core_modules" := by decide
    refine ⟨(known key hkey).1, fun fields hfields => ?_⟩
    obtain ⟨e, -, rfl⟩ := List.mem_map.1 hfields
    rw [columns, if_neg (known key hkey).2]
    rfl
  have modules : IsName "core_modules" ∧ ∀ fields ∈ r.coreModules.map CoreModule.fields,
      fields.map Prod.fst = columns "core_modules" := by
    refine ⟨by decide, fun fields hfields => ?_⟩
    obtain ⟨m, -, rfl⟩ := List.mem_map.1 hfields
    rfl
  intro c hc
  simp only [categoryRows, List.mem_cons, List.not_mem_nil, or_false] at hc
  rcases hc with rfl | rfl | rfl | rfl | rfl
  · exact modules
  all_goals exact entries _ _ (by simp)

theorem categoryRows_inj {r r' : Report} (same : r.categoryRows = r'.categoryRows) : r = r' := by
  have modules : ∀ m m' : CoreModule, m.fields = m'.fields → m = m' := by
    rintro ⟨⟩ ⟨⟩ h
    simpa [CoreModule.fields] using h
  have entries : ∀ e e' : Entry, e.fields = e'.fields → e = e' := by
    rintro ⟨⟩ ⟨⟩ h
    simpa [Entry.fields] using h
  simp only [categoryRows, List.cons.injEq, Prod.mk.injEq, true_and, and_true,
    List.map_inj_right modules, List.map_inj_right entries] at same
  obtain ⟨coreModules, components, hooks, utilities, types⟩ := same
  cases r
  cases r'
  simp_all

theorem toList_yamlText (r : Report) :
    r.yamlText.toList =
      if r.isEmpty then ['\x7b', '\x7d', '\n'] else categoryLines r.categoryRows := by
  unfold yamlText
  split
  · rfl
  · simp [categoryLines, categoryRows]

/-- Reports with the same text are the same: no text in a report passes for a key, a list item or a
category. -/
theorem yamlText_inj (r r' : Report) : r.yamlText = r'.yamlText ↔ r = r' := by
  refine ⟨fun same => ?_, fun same => same ▸ rfl⟩
  have chars := congrArg String.toList same
  rw [toList_yamlText, toList_yamlText] at chars
  -- The braces of an empty report stand in front of no colon.
  have no_braces : ∀ r : Report, categoryLines r.categoryRows ≠ ['\x7b', '\x7d', '\n'] := by
    intro r braces
    obtain nothing | ⟨c, -, rest, begins⟩ := exists_key r.regular_categoryRows
    · simp [nothing] at braces
    · have colon : ':' ∈ categoryLines r.categoryRows := by simp [begins]
      rw [braces] at colon
      exact absurd colon (by decide)
  have no_rows : ∀ r : Report, r.isEmpty = true → r = {} := by
    intro r empty
    simp only [isEmpty, entryCount, beq_iff_eq, Nat.add_eq_zero_iff,
      List.length_eq_zero_iff] at empty
    obtain ⟨⟨⟨⟨coreModules, components⟩, hooks⟩, utilities⟩, types⟩ := empty
    cases r
    simp_all
  cases empty : r.isEmpty with
  | true =>
    cases empty' : r'.isEmpty with
    | true => rw [no_rows r empty, no_rows r' empty']
    | false =>
      simp only [empty, empty', if_true, Bool.false_eq_true, if_false] at chars
      exact absurd chars.symm (no_braces r')
  | false =>
    cases empty' : r'.isEmpty with
    | true =>
      simp only [empty, empty', if_true, Bool.false_eq_true, if_false] at chars
      exact absurd chars (no_braces r)
    | false =>
      simp only [empty, empty', Bool.false_eq_true, if_false] at chars
      have distinct : (r.categoryRows.map Prod.fst).Nodup := by simp [categoryRows]
      exact categoryRows_inj (categoryLines_inj r.regular_categoryRows r'.regular_categoryRows rfl
        distinct chars)

end Snapshot.Report
