import WideGraph.Proofs.GraphTable.Answer
import WideGraph.Proofs.GraphTable.IndexRows
import WideGraph.Proofs.GraphTable.PlanRuns

/-!
# What index operations stage

Appending and eliminating stage one update, for the key that the entry is about, or nothing if the
entry is refused. Deleting by label reads the rows of the label and stages one delete for the key of
each.
-/

namespace WideGraph

/-- In increasing bindings that are all for one column there is at most one. -/
theorem Bindings.eq_toList_find? {α : Type} {bindings : List (Column × α)}
    (hincreasing : Increasing bindings) {column : Column} (h : ∀ b ∈ bindings, b.1 = column) :
    bindings = ((Bindings.find? column bindings).map (column, ·)).toList := by
  cases bindings with
  | nil => rfl
  | cons first rest =>
    obtain ⟨found, value⟩ := first
    obtain ⟨hfound, hrest⟩ := List.forall_mem_cons.mp h
    change found = column at hfound
    subst hfound
    have hself : compare found found = .eq := Std.ReflCmp.compare_self
    cases rest with
    | nil => simp [Bindings.find?]
    | cons second rest =>
      have hlt := List.rel_of_pairwise_cons hincreasing (List.mem_cons_self (a := second))
      rw [(List.forall_mem_cons.mp hrest).1, hself] at hlt
      cases hlt

namespace GraphTable

variable {table : GraphTable}

/-- An identifier of an index row decodes into the key that it stands for. -/
theorem idKeyValues_toOption (hindex : table.kind.isIndex = true) (id : Identifier) :
    (table.idKeyValues id).toOption = (table.kind.idKey? id).map table.kind.keyPairs := by
  obtain ⟨kind, configuration⟩ := table
  have hparts : kind.idParts id = id.split := by
    obtain rfl | rfl := ElementKind.eq_of_isIndex hindex <;> rfl
  rw [idKeyValues, hparts, ElementKind.idKey?.eq_def]
  obtain rfl | rfl := ElementKind.eq_of_isIndex hindex
  · have hcolumns : idColumns ⟨.secondaryIndex, configuration⟩ = [.fieldValues, .indexLabelName] :=
      rfl
    rw [hcolumns]
    rcases id.split with _ | ⟨first, _ | ⟨second, _ | ⟨third, rest⟩⟩⟩ <;> rfl
  · have hcolumns : idColumns ⟨.searchIndex, configuration⟩ = [.indexLabelName, .fieldValues] :=
      rfl
    have hvalue : ∀ part, idPartValue? ⟨.searchIndex, configuration⟩ .fieldValues part =
      (Decimal.literal? (Text.trim part.toList)).map .decimal := fun _ => rfl
    have hlabel : ∀ part, idPartValue? ⟨.searchIndex, configuration⟩ .indexLabelName part =
      some (.text part) := fun _ => rfl
    rw [hcolumns]
    rcases id.split with _ | ⟨first, _ | ⟨second, _ | ⟨third, rest⟩⟩⟩ <;>
      simp only [idPartValues?, hvalue, hlabel]
    · rfl
    · rfl
    · cases Decimal.literal? (Text.trim second.toList) <;> rfl
    · cases Decimal.literal? (Text.trim second.toList) <;> rfl

/-- An entry is addressed by the key that it states, and refused if it states none. -/
theorem keyClauses_toOption (hindex : table.kind.isIndex = true) (row : EntryRow) :
    (table.keyClauses row).toOption =
      (table.kind.statedKey? row).map fun stated => equalities (table.kind.keyPairs stated) := by
  rw [keyClauses, ElementKind.statedKey?]
  cases row.id with
  | some id =>
    rw [toOption_map, idKeyValues_toOption hindex, Option.map_map]
    rfl
  | none =>
    have hcolumns : table.idColumns = table.kind.idColumns := rfl
    rw [hcolumns]
    obtain hkind | hkind := ElementKind.eq_of_isIndex hindex <;>
    · rw [hkind]
      simp only [ElementKind.idColumns, mapExcept, idColumnValue, ElementKind.keyPairs]
      cases row.find? .fieldValues <;> cases row.find? .indexLabelName <;> rfl

/-- The id columns of an index are those of its key. -/
theorem mem_idColumns_iff (hindex : table.kind.isIndex = true) (column : Column) :
    column ∈ table.idColumns ↔ column = .fieldValues ∨ column = .indexLabelName := by
  have hcolumns : table.idColumns = table.kind.idColumns := rfl
  rw [hcolumns]
  obtain hkind | hkind := ElementKind.eq_of_isIndex hindex <;>
    simp [hkind, ElementKind.idColumns, or_comm]

/-- The columns that are looked at are element identifiers if there are no columns but those of an
index. -/
theorem dataColumns_iff (hindex : table.kind.isIndex = true) (row : EntryRow) :
    (∀ b ∈ table.dataColumns row, b.1 = .elementIds) ↔ row.hasIndexColumnsOnly = true := by
  rw [EntryRow.hasIndexColumnsOnly, ColumnValues.columns, List.all_map, List.all_eq_true]
  simp only [dataColumns, List.mem_filter, and_imp]
  refine forall₂_congr fun b _ => ?_
  simp only [Bool.not_eq_true', List.contains_eq_mem, decide_eq_false_iff_not,
    mem_idColumns_iff hindex, Function.comp_apply, decide_eq_true_eq, List.mem_cons,
    List.not_mem_nil, or_false]
  grind

/-- An entry may change an index if it has no columns but those of an index. -/
theorem checkModifiable_toOption (hindex : table.kind.isIndex = true) (row : EntryRow) :
    (table.checkModifiable row).toOption =
      if row.hasIndexColumnsOnly then some () else none := by
  rw [checkModifiable, hindex]
  have hiff := dataColumns_iff hindex row
  cases hfind : (table.dataColumns row).find? fun b => b.1 != .elementIds with
  | none =>
    rw [List.find?_eq_none] at hfind
    have hall : ∀ b ∈ table.dataColumns row, b.1 = .elementIds := fun b hb => by
      simpa using hfind b hb
    rw [if_pos (hiff.mp hall)]
    rfl
  | some b =>
    have hnot : ¬ ∀ b ∈ table.dataColumns row, b.1 = .elementIds := fun hall => by
      simpa [hall b (List.mem_of_find?_eq_some hfind)] using List.find?_some hfind
    rw [if_neg fun hcolumns => hnot (hiff.mpr hcolumns)]
    rfl

/-- The columns of such an entry outside its key are its element identifiers, if it has any. -/
theorem dataColumns_eq (hindex : table.kind.isIndex = true) {row : EntryRow}
    (h : row.hasIndexColumnsOnly = true) :
    table.dataColumns row = ((row.find? .elementIds).map (Column.elementIds, ·)).toList := by
  have hincreasing : Increasing (table.dataColumns row) :=
    Bindings.increasing_filter _ row.columns.increasing
  have hkept : Bindings.find? .elementIds (table.dataColumns row) = row.find? .elementIds := by
    have hp : ∀ i j : Column, compare i j = .eq →
        (!table.idColumns.contains i) = !table.idColumns.contains j := fun i j heq => by
      rw [Column.eq_of_compare heq]
    have hout : Column.elementIds ∉ table.idColumns := by simp [mem_idColumns_iff hindex]
    rw [dataColumns, Bindings.find?_filter (fun column => !table.idColumns.contains column) hp]
    simp [hout, EntryRow.find?, ColumnValues.find?]
  rw [Bindings.eq_toList_find? hincreasing ((dataColumns_iff hindex row).mpr h), hkept]

/-- An entry that changes an index is planned as one update of the element identifiers of the key
that it is about, and it is refused if it makes no request. -/
theorem changePlan_toOption (hindex : table.kind.isIndex = true) (operation : String)
    (row : EntryRow) (assign : Column × Value → Assignment) :
    (do
      table.checkModifiable row
      table.updatePlan operation row ((table.dataColumns row).map assign)).toOption =
      (table.kind.indexRequest? row).map fun request => .stage (.update ⟨table.name,
        [assign (.elementIds, request.2)], equalities (table.kind.keyPairs request.1)⟩) := by
  rw [toOption_bind, checkModifiable_toOption hindex, ElementKind.indexRequest?]
  split
  · rename_i hcolumns
    rw [Option.bind_some, updatePlan, dataColumns_eq hindex hcolumns]
    cases row.find? .elementIds with
    | none => cases table.kind.statedKey? row <;> rfl
    | some ids =>
      rw [if_neg (by simp), toOption_map, keyClauses_toOption hindex]
      cases table.kind.statedKey? row <;> rfl
  · rfl

/-- The update that changes the element identifiers of the key that an entry states. -/
def keyUpdate (table : GraphTable) (stated : Value × Value) (assignment : Assignment) : Statement :=
  .update ⟨table.name, [assignment], equalities (table.kind.keyPairs stated)⟩

/-- A plan that is one statement stages it. -/
theorem carryOut_stage {plan : Except BackendError ChangePlan} {statement : Statement}
    (h : plan.toOption = some (.stage statement)) (c : Connection) :
    carryOut plan c = (.ok (), c.add statement) := by
  rw [toOption_eq_some_iff.mp h, carryOut_ok]
  rfl

/-- An operation without plan fails and leaves the session as it is. -/
theorem carryOut_refused {plan : Except BackendError ChangePlan} (h : plan.toOption = none)
    (c : Connection) : ∃ e, carryOut plan c = (.error e, c) := by
  cases plan with
  | error e => exact ⟨e, carryOut_error e c⟩
  | ok plan => cases h

/-- What is appended for an entry that makes a request. -/
theorem append_of_request (hindex : table.kind.isIndex = true) {row : EntryRow}
    {stated : Value × Value} {ids : Value}
    (h : table.kind.indexRequest? row = some (stated, ids)) (c : Connection) :
    table.append row c = (.ok (), c.add (table.keyUpdate stated
      (.append Column.elementIds.nativeName (addition ids)))) := by
  apply carryOut_stage
  have hplan := changePlan_toOption hindex "append" row fun b =>
    .append b.1.nativeName (addition b.2)
  rw [h] at hplan
  exact hplan

/-- Nothing is appended for an entry that makes no request. -/
theorem append_refused (hindex : table.kind.isIndex = true) {row : EntryRow}
    (h : table.kind.indexRequest? row = none) (c : Connection) :
    ∃ e, table.append row c = (.error e, c) := by
  apply carryOut_refused
  have hplan := changePlan_toOption hindex "append" row fun b =>
    .append b.1.nativeName (addition b.2)
  rw [h] at hplan
  exact hplan

/-- What is eliminated for an entry that makes a request. -/
theorem eliminate_of_request (hindex : table.kind.isIndex = true) {row : EntryRow}
    {stated : Value × Value} {ids : Value}
    (h : table.kind.indexRequest? row = some (stated, ids)) (c : Connection) :
    table.eliminate row c = (.ok (), c.add (table.keyUpdate stated
      (removal Column.elementIds.nativeName ids))) := by
  apply carryOut_stage
  have hplan := changePlan_toOption hindex "eliminate" row fun b => removal b.1.nativeName b.2
  rw [h] at hplan
  exact hplan

/-- Nothing is eliminated for an entry that makes no request. -/
theorem eliminate_refused (hindex : table.kind.isIndex = true) {row : EntryRow}
    (h : table.kind.indexRequest? row = none) (c : Connection) :
    ∃ e, table.eliminate row c = (.error e, c) := by
  apply carryOut_refused
  have hplan := changePlan_toOption hindex "eliminate" row fun b => removal b.1.nativeName b.2
  rw [h] at hplan
  exact hplan

/-- An index is only deleted from by a whole label. -/
theorem deletePlan_toOption (hindex : table.kind.isIndex = true) (row : EntryRow) :
    (table.deletePlan row).toOption = row.clearedLabel?.map table.indexLabelPlan := by
  have hplan : table.deletePlan row = table.deleteIndexPlan row := by
    rw [deletePlan]
    obtain hkind | hkind := ElementKind.eq_of_isIndex hindex <;> rw [hkind]
  rw [hplan, deleteIndexPlan, EntryRow.clearedLabel?]
  cases row.find? .fieldValues with
  | some value => rfl
  | none =>
    cases row.text? .indexLabelName with
    | none => rfl
    | some label =>
      by_cases hlabel : label = ""
      · simp [hlabel, Except.toOption]
      · simp [hlabel, Except.toOption]

/-- A label is deleted by a plan for the rows that it has. -/
theorem deletePlan_of_label (hindex : table.kind.isIndex = true) {row : EntryRow} {label : String}
    (h : row.clearedLabel? = some label) :
    table.deletePlan row = .ok (table.indexLabelPlan label) := by
  rw [← toOption_eq_some_iff, deletePlan_toOption hindex, h]
  rfl

/-- The delete of one key. -/
def keyDelete (table : GraphTable) (key : IndexKey) : Statement :=
  .delete ⟨table.name, equalities
    [(.fieldValues, key.fieldValues), (.indexLabelName, key.label)]⟩

/-- The select for the rows of a label. -/
def labelSelect (table : GraphTable) (label : String) : Select where
  table := table.name
  clauses := [Clause.eq Column.indexLabelName.nativeName (.text label)]
  allowFiltering := table.kind == .secondaryIndex

end GraphTable

namespace StoredTable

variable {kind : ElementKind} {stored : StoredTable} {map : IndexMap}

/-- The rows of an index label, in the order of the table. -/
def labelled (stored : StoredTable) (label : String) : List (RowKey × StoredRow) :=
  stored.rows.filter fun entry => decide (entry.2.valueOf .indexLabelName = .text label)

/-- The rows of a label are those of the keys that have it and have a set. -/
theorem KeepsIndex.mem_labelled_iff (h : stored.KeepsIndex kind map) {label : String}
    {entry : RowKey × StoredRow} :
    entry ∈ stored.labelled label ↔
      ∃ (key : IndexKey) (ids : TextSet), key.label = .text label ∧ (map key).Nonempty ∧
        ids.toFinset = map key ∧ entry = (key.rowKey kind, ⟨key.cells ids, false⟩) := by
  rw [labelled, List.mem_filter, decide_eq_true_eq]
  constructor
  · rintro ⟨hrow, hlabel⟩
    obtain ⟨key, ids, hset, hids, rfl⟩ := (h.mem_iff entry).mp hrow
    exact ⟨key, ids, by simpa [StoredRow.valueOf] using hlabel, hset, hids, rfl⟩
  · rintro ⟨key, ids, hlabel, hset, hids, rfl⟩
    refine ⟨(h.mem_iff _).mpr ⟨key, ids, hset, hids, rfl⟩, ?_⟩
    simpa [StoredRow.valueOf] using hlabel

/-- The field values of an index row are among its projected cells. -/
theorem find?_project_fieldValues (hkind : kind.isIndex = true)
    (hdefinition : stored.definition = kind.layout) (key : IndexKey) (ids : TextSet) :
    (stored.project ⟨key.cells ids, false⟩).find? Column.fieldValues.nativeName =
      some key.fieldValues := by
  have hlisted : Column.fieldValues ∈ stored.definition.rowOrder.map (·.column) := by
    rw [hdefinition]
    obtain rfl | rfl := ElementKind.eq_of_isIndex hkind <;> decide
  rw [project, find?_filterMap_cells, if_pos hlisted, IndexKey.find?_cells_fieldValues]

/-- An index row matches the clause for a label if it has the label. -/
theorem KeepsIndex.rowMatches_label (h : stored.KeepsIndex kind map) (hindex : kind.isIndex = true)
    {key : IndexKey} (hset : (map key).Nonempty) (ids : TextSet) (label : String) :
    stored.rowMatches (key.rowKey kind) ⟨key.cells ids, false⟩
        (Clause.eq Column.indexLabelName.nativeName (.text label)) =
      .ok (decide (StoredRow.valueOf ⟨key.cells ids, false⟩ .indexLabelName = .text label)) := by
  have hresolve := ElementKind.resolve_indexLabelName hindex
  rw [← h.definition] at hresolve
  have hstorable := ColumnType.storable_of_bind (IndexKey.bound_iff.mp (h.bound key hset)).2
  have hiff := Value.order_lawfulOn.eq_iff key.label (.text label) hstorable trivial
  have hcell : StoredRow.valueOf ⟨key.cells ids, false⟩ .indexLabelName = key.label := by
    simp [StoredRow.valueOf]
  refine rowMatches_compare_eq_ok_iff.mpr ⟨_, _, .text label, hresolve, rfl, ?_⟩
  rw [hcell, Comparison.accepts]
  by_cases hlabel : key.label = .text label
  · rw [hiff.mpr hlabel, hlabel]
    simp [Value.isNull]
  · have hne : (key.label.order (.text label)).isEq = false := by
      rw [Bool.eq_false_iff, ne_eq, Ordering.isEq_iff_eq_eq, hiff]
      exact hlabel
    rw [hne, Bool.and_false, decide_eq_false hlabel]

/-- The select for a label finds the rows of the label. -/
theorem KeepsIndex.select_label {table : GraphTable} (h : stored.KeepsIndex table.kind map)
    (hindex : table.kind.isIndex = true) (label : String) :
    stored.select (table.labelSelect label) =
      .ok ((stored.labelled label).map fun entry => stored.project entry.2) := by
  have hresolve := ElementKind.resolve_indexLabelName hindex
  have hprimary := (ElementKind.isPrimaryKey_iff hindex .indexLabelName).mpr (.inr rfl)
  rw [← h.definition] at hresolve hprimary
  have htest : ∀ entry ∈ stored.rows,
      stored.rowMatchesAll entry.1 entry.2 (table.labelSelect label).clauses =
        .ok (decide (entry.2.valueOf .indexLabelName = .text label)) := by
    intro entry hentry
    obtain ⟨key, ids, hset, -, rfl⟩ := (h.mem_iff entry).mp hentry
    have hmatch := h.rowMatches_label hindex hset ids label
    simp only [GraphTable.labelSelect, rowMatchesAll, hmatch]
    cases decide (StoredRow.valueOf ⟨key.cells ids, false⟩ .indexLabelName = .text label) <;> rfl
  refine select_eq_ok_iff.mpr ⟨?_, _, [], matchingRows_eq_filter _ htest, rfl, ?_⟩
  · change stored.checkLeaves _ [.compare .eq Column.indexLabelName.nativeName (.text label)] = _
    simp [checkLeaves, checkLeaf, hresolve, hprimary, requireAccess, bind, Except.bind]
  · rw [sortStable_eq_self (fun a b => by simp [compareRows])]
    simp [takeLimit, GraphTable.labelSelect, labelled, Function.comp_def]

end StoredTable

/-- The key that an index row is for. -/
def StoredRow.indexKey (row : StoredRow) : IndexKey :=
  ⟨row.valueOf .fieldValues, row.valueOf .indexLabelName⟩

/-- A row is for the key of its cells. -/
theorem StoredRow.indexKey_cells (key : IndexKey) (ids : TextSet) :
    indexKey ⟨key.cells ids, false⟩ = key := by
  simp [indexKey, valueOf]

namespace GraphTable

variable {table : GraphTable} {c : Connection}

/-- Nothing is deleted for an entry that names no label. -/
theorem delete_refused (hindex : table.kind.isIndex = true) {row : EntryRow}
    (h : row.clearedLabel? = none) (c : Connection) : ∃ e, table.delete row c = (.error e, c) := by
  apply carryOut_refused
  rw [deletePlan_toOption hindex, h]
  rfl

/-- The rows that a label has are answered to the select for it. -/
theorem execute_labelSelect (hindex : table.kind.isIndex = true) {stored : StoredTable}
    {map : IndexMap} (hstored : c.cluster.table c.session.keyspace table.name = .ok stored)
    (hkeeps : stored.KeepsIndex table.kind map) (label : String) :
    c.execute (table.labelSelect label) =
      (.ok ((stored.labelled label).map fun entry => stored.project entry.2),
        (c.execute (table.labelSelect label)).2) := by
  have hread : c.execute (table.labelSelect label) =
      (c.cluster.read c.session.keyspace (table.labelSelect label),
        (c.execute (table.labelSelect label)).2) := rfl
  rw [hread, Cluster.read_of_table hstored, hkeeps.select_label hindex]

/-- Each row of a label that is returned has the delete of its key. -/
theorem indexLabelDelete_labelled (hindex : table.kind.isIndex = true) {stored : StoredTable}
    {map : IndexMap} (hkeeps : stored.KeepsIndex table.kind map) (label : String) :
    List.Forall₂ (fun row statement => table.indexLabelDelete label row = .ok statement)
      ((stored.labelled label).map fun entry => stored.project entry.2)
      (((stored.labelled label).map fun entry => entry.2.indexKey).map table.keyDelete) := by
  rw [List.map_map, List.forall₂_map_left_iff, List.forall₂_map_right_iff, List.forall₂_same]
  intro entry hentry
  obtain ⟨key, ids, hlabel, -, -, rfl⟩ := hkeeps.mem_labelled_iff.mp hentry
  have hfield := StoredTable.find?_project_fieldValues hindex hkeeps.definition key ids
  simp only [Function.comp_apply, StoredRow.indexKey_cells, indexLabelDelete, returnedKey, hfield,
    keyDelete, hlabel]
  rfl

/-- Deleting a label stages a delete of every key that has it and has a set. -/
theorem delete_of_label (hindex : table.kind.isIndex = true) {stored : StoredTable}
    {map : IndexMap} (hstored : c.cluster.table c.session.keyspace table.name = .ok stored)
    (hkeeps : stored.KeepsIndex table.kind map) {row : EntryRow} {label : String}
    (h : row.clearedLabel? = some label) :
    ∃ keys : List IndexKey,
      table.delete row c =
        (.ok (), (c.execute (table.labelSelect label)).2.stageAll (keys.map table.keyDelete)) ∧
      ∀ key, key ∈ keys ↔ key.label = .text label ∧ (map key).Nonempty := by
  refine ⟨(stored.labelled label).map fun entry => entry.2.indexKey, ?_, fun key => ?_⟩
  · have hanswered : (Session.execute (table.labelSelect label) c).1 =
        .ok ((stored.labelled label).map fun entry => stored.project entry.2) :=
      congrArg Prod.fst (execute_labelSelect hindex hstored hkeeps label)
    rw [delete, deletePlan_of_label hindex h, carryOut_ok]
    refine (ChangePlan.run_perRow (table.labelSelect label) _ _ c).trans ?_
    rw [hanswered, ← Connection.addAll_eq]
    exact ChangePlan.stageRows_of_statements (indexLabelDelete_labelled hindex hkeeps label) _
  · rw [List.mem_map]
    constructor
    · rintro ⟨entry, hentry, rfl⟩
      obtain ⟨key, ids, hlabel, hset, -, rfl⟩ := hkeeps.mem_labelled_iff.mp hentry
      rw [StoredRow.indexKey_cells]
      exact ⟨hlabel, hset⟩
    · rintro ⟨hlabel, hset⟩
      obtain ⟨ids, hids⟩ := TextSet.exists_toFinset_eq (map key)
      exact ⟨_, hkeeps.mem_labelled_iff.mpr ⟨key, ids, hlabel, hset, hids, rfl⟩,
        StoredRow.indexKey_cells key ids⟩

end GraphTable

end WideGraph
