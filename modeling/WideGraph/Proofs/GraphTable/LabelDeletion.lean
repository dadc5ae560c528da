import WideGraph.Proofs.GraphTable.Creation
import WideGraph.Proofs.GraphTable.IndexRows
import WideGraph.Proofs.GraphTable.PlanRuns
import WideGraph.Proofs.Store.Answer
import WideGraph.Proofs.Store.Deletion

/-!
# Deleting by label

The rows of a label are deleted in two steps: a scan finds them and stages, for each, the delete of
all rows that share its group and the label; a commit carries the deletes out later. Whatever other
sessions commit in between, the deletes take out rows of the label only, and every row that the scan
found and that is addressed by its key.
-/

namespace WideGraph

namespace ElementKind

/-- The column that keeps the label of a row. -/
def labelColumn : ElementKind → Column
  | .edge => .label
  | _ => .indexLabelName

/-- The columns that are shared by the rows of a label that are deleted at once. -/
def groupColumns : ElementKind → List Column
  | .edge => [.ownerVertex, .direction]
  | _ => [.fieldValues]

end ElementKind

/-- An entry stands for a whole label: of edges if it is nothing but an identifier of this one part,
and of an index if it names the label and no field values. -/
def EntryRow.NamesLabel (row : EntryRow) (kind : ElementKind) (label : String) : Prop :=
  match kind with
  | .edge => row.hasColumns = false ∧ ∃ id, row.id = some id ∧ id.split = [label]
  | .secondaryIndex | .searchIndex =>
    row.find? .indexLabelName = some (.text label) ∧ row.find? .fieldValues = none
  | _ => False

/-- A row has a label. -/
def StoredRow.hasLabel (kind : ElementKind) (label : String) (row : StoredRow) : Bool :=
  decide (row.cells.find? kind.labelColumn = some (.text label))

/-- A key column is returned if the row has it. -/
theorem GraphTable.returnedKey_eq_ok_iff {description : String} {column : Column} {row : Row}
    {value : Value} :
    returnedKey description column row = .ok value ↔
      row.find? column.nativeName = some value := by
  rw [returnedKey]
  cases row.find? column.nativeName <;> simp

namespace GraphTable

variable {table : GraphTable} {label : String}

/-- The delete for a row whose columns are looked up in a certain way: it names the row's group and
the label. -/
def IsGroupDelete (table : GraphTable) (label : String) (cell? : Column → Option Value)
    (delete : Delete) : Prop :=
  ∃ pairs : List (Column × Value), pairs.map (·.1) = table.kind.groupColumns ∧
    (∀ pair ∈ pairs, cell? pair.1 = some pair.2) ∧
    delete = ⟨table.name, equalities (pairs ++ [(table.kind.labelColumn, .text label)])⟩

/-- The scan for a label, with or without filtering. -/
def labelScan (table : GraphTable) (label : String) (allowFiltering : Bool) : Select :=
  .mk table.name [Clause.eq table.kind.labelColumn.nativeName (.text label)] [] none allowFiltering

/-- The delete for a returned edge is that of its group. -/
theorem isGroupDelete_of_edgeLabelDelete (hkind : table.kind = .edge) {returned : Row}
    {statement : Statement} (h : table.edgeLabelDelete label returned = .ok statement) :
    ∃ delete, statement = .delete delete ∧
      table.IsGroupDelete label (fun column => returned.find? column.nativeName) delete := by
  obtain ⟨owner, howner, h⟩ := bind_ok_iff.mp h
  obtain ⟨direction, hdirection, h⟩ := bind_ok_iff.mp h
  cases h
  rw [returnedKey_eq_ok_iff] at howner hdirection
  refine ⟨_, rfl, [(.ownerVertex, owner), (.direction, direction)], ?_, ?_, ?_⟩
  · rw [hkind]
    rfl
  · simp [howner, hdirection]
  · rw [hkind]
    rfl

/-- The delete for a returned index row is that of its group. -/
theorem isGroupDelete_of_indexLabelDelete (hindex : table.kind.isIndex = true) {returned : Row}
    {statement : Statement} (h : table.indexLabelDelete label returned = .ok statement) :
    ∃ delete, statement = .delete delete ∧
      table.IsGroupDelete label (fun column => returned.find? column.nativeName) delete := by
  obtain ⟨fieldValues, hfieldValues, h⟩ := bind_ok_iff.mp h
  cases h
  rw [returnedKey_eq_ok_iff] at hfieldValues
  refine ⟨_, rfl, [(.fieldValues, fieldValues)], ?_, by simpa using hfieldValues, ?_⟩ <;>
  · obtain hkind | hkind := ElementKind.eq_of_isIndex hindex <;> rw [hkind] <;> rfl

/-- An entry that is nothing but a one-part identifier is planned as the delete of its label. -/
theorem deleteEdgePlan_of_namesLabel {row : EntryRow} (hrow : row.NamesLabel .edge label) :
    table.deleteEdgePlan row = .ok (table.edgeLabelPlan label) := by
  obtain ⟨hcolumns, id, hid, hsplit⟩ := hrow
  have hparts : id.edgeParts .outgoing = [label] := by rw [Identifier.edgeParts, hsplit]
  rw [deleteEdgePlan, hid]
  simp [hparts, hcolumns]

/-- An entry with a label and no field values is planned as the delete of its label or refused. -/
theorem eq_of_deleteIndexPlan {row : EntryRow}
    (hlabel : row.find? .indexLabelName = some (.text label))
    (hvalues : row.find? .fieldValues = none) {plan : ChangePlan} (hplan : table.deleteIndexPlan row = .ok plan) :
    plan = table.indexLabelPlan label := by
  have htext : row.text? .indexLabelName = some label := by
    rw [EntryRow.text?, hlabel]
    rfl
  rw [deleteIndexPlan, hvalues, htext] at hplan
  dsimp only at hplan
  split at hplan <;> cases hplan
  rfl

/-- An entry that stands for a label is planned as a scan for the label and a delete of the group of
each row found. -/
theorem deletePlan_of_namesLabel {row : EntryRow} (hrow : row.NamesLabel table.kind label)
    {plan : ChangePlan} (hplan : table.deletePlan row = .ok plan) :
    ∃ filtering context toStatement,
      plan = .perRow (table.labelScan label filtering) context toStatement ∧
      ∀ returned statement, toStatement returned = .ok statement →
        ∃ delete, statement = .delete delete ∧
          table.IsGroupDelete label (fun column => returned.find? column.nativeName) delete := by
  obtain ⟨kind, configuration⟩ := table
  cases kind with
  | edge =>
    change deleteEdgePlan _ row = .ok plan at hplan
    rw [deleteEdgePlan_of_namesLabel hrow, Except.ok.injEq] at hplan
    subst hplan
    exact ⟨_, _, _, rfl, fun _ _ h => isGroupDelete_of_edgeLabelDelete rfl h⟩
  | secondaryIndex =>
    rw [eq_of_deleteIndexPlan hrow.1 hrow.2 hplan]
    exact ⟨_, _, _, rfl, fun _ _ h => isGroupDelete_of_indexLabelDelete rfl h⟩
  | searchIndex =>
    rw [eq_of_deleteIndexPlan hrow.1 hrow.2 hplan]
    exact ⟨_, _, _, rfl, fun _ _ h => isGroupDelete_of_indexLabelDelete rfl h⟩
  | _ => exact hrow.elim

/-- Deleting a label scans for it and stages a delete of the group of each row found. -/
theorem delete_of_namesLabel {row : EntryRow} (hrow : row.NamesLabel table.kind label)
    {c c' : Connection} (hreach : c.cluster.Reachable)
    (hdelete : table.delete row c = (.ok (), c')) :
    ∃ scanned filtering deletes,
      c.cluster.table c.session.keyspace table.name = .ok scanned ∧
      scanned.select (table.labelScan label filtering) =
        .ok ((scanned.rows.filter fun entry => entry.2.hasLabel table.kind label).map
          fun entry => scanned.project entry.2) ∧
      List.Forall₂ (fun entry delete => table.IsGroupDelete label entry.2.cells.find? delete)
        (scanned.rows.filter fun entry => entry.2.hasLabel table.kind label) deletes ∧
      c' = { c with session := { c.session with
        batch := c.session.batch ++ deletes.map .delete
        history := table.labelScan label filtering :: c.session.history } } := by
  obtain ⟨plan, hplan, hrun⟩ := carryOut_eq_ok_iff.mp hdelete
  obtain ⟨filtering, context, toStatement, rfl, hdeletes⟩ := deletePlan_of_namesLabel hrow hplan
  obtain ⟨rows, statements, hexecute, hstatements, rfl⟩ := ChangePlan.statements_of_run_perRow hrun
  obtain ⟨scanned, hscanned, hselect⟩ := bind_ok_iff.mp hexecute
  have hcoherent := hreach.coherent hscanned
  obtain rfl := hcoherent.eq_of_select_text hselect
  rw [List.forall₂_map_left_iff] at hstatements
  have hgroups : List.Forall₂ (fun entry statement => ∃ delete, statement = .delete delete ∧
      table.IsGroupDelete label entry.2.cells.find? delete)
      (scanned.rows.filter fun entry => entry.2.hasLabel table.kind label) statements := by
    refine ((List.forall₂_and_left _ _).mpr ⟨fun _ h => h, hstatements⟩).imp ?_
    rintro entry statement ⟨hentry, hstatement⟩
    obtain ⟨delete, hdelete, hgroup⟩ := hdeletes _ _ hstatement
    have hfits := (hcoherent.rows entry (List.mem_filter.mp hentry).1).fits
    simp only [StoredTable.find?_project hfits] at hgroup
    exact ⟨delete, hdelete, hgroup⟩
  obtain ⟨deletes, rfl, hall⟩ := exists_map_of_forall₂ hgroups
  exact ⟨scanned, filtering, deletes, hscanned, hselect, hall,
    (Connection.addAll_eq _ _).trans (Connection.stageAll_eq _ _)⟩

namespace IsGroupDelete

variable {d : TableDefinition} {row other : StoredRow} {delete : Delete}

/-- The delete of a group is of the table. -/
theorem table_eq {cell? : Column → Option Value} (h : table.IsGroupDelete label cell? delete) :
    delete.table = table.name := by
  obtain ⟨pairs, -, -, rfl⟩ := h
  rfl

/-- When the delete of a row's group takes out a row. -/
theorem takes_iff (h : table.IsGroupDelete label row.cells.find? delete) (hrow : row.cells.Fits d)
    (hother : other.cells.Fits d) (hbind : delete.Bindable d) :
    ∃ pairs : List (Column × Value), pairs.map (·.1) = table.kind.groupColumns ∧
      (∀ pair ∈ pairs, row.cells.find? pair.1 = some pair.2) ∧
      (delete.takes d other = true ↔ ∀ column value,
        (ColumnValues.ofList (pairs ++ [(table.kind.labelColumn, .text label)])).find? column =
          some value → other.cells.find? column = some value) := by
  obtain ⟨pairs, hcolumns, hcells, rfl⟩ := h
  refine ⟨pairs, hcolumns, hcells, Delete.takes_ofList_iff hother ?_ hbind⟩
  rw [List.forall_mem_append, List.forall_mem_singleton]
  exact ⟨fun pair hpair => (hrow pair.1 pair.2 (hcells pair hpair)).2, trivial⟩

/-- The delete of a group takes out rows of the label only. -/
theorem hasLabel_of_takes (h : table.IsGroupDelete label row.cells.find? delete)
    (hrow : row.cells.Fits d) (hother : other.cells.Fits d) (hbind : delete.Bindable d)
    (htakes : delete.takes d other = true) : other.hasLabel table.kind label = true := by
  obtain ⟨pairs, -, -, hiff⟩ := h.takes_iff hrow hother hbind
  exact decide_eq_true
    (hiff.mp htakes _ _ (ColumnValues.find?_ofList_concat pairs table.kind.labelColumn _))

/-- The delete of a row's group takes out the rows of the label that are in the group. -/
theorem takes_of_group (h : table.IsGroupDelete label row.cells.find? delete)
    (hrow : row.cells.Fits d) (hother : other.cells.Fits d) (hbind : delete.Bindable d)
    (hlabel : other.hasLabel table.kind label = true)
    (hgroup : ∀ column ∈ table.kind.groupColumns,
      other.cells.find? column = row.cells.find? column) : delete.takes d other = true := by
  obtain ⟨pairs, hcolumns, hcells, hiff⟩ := h.takes_iff hrow hother hbind
  refine hiff.mpr fun column value hvalue => ?_
  rcases List.mem_append.mp (ColumnValues.mem_of_find?_ofList hvalue) with hpair | hpair
  · have hcolumn : column ∈ table.kind.groupColumns :=
      hcolumns ▸ List.mem_map_of_mem (f := (·.1)) hpair
    rw [hgroup column hcolumn, hcells _ hpair]
  · rw [List.mem_singleton, Prod.mk.injEq] at hpair
    obtain ⟨rfl, rfl⟩ := hpair
    exact of_decide_eq_true hlabel

end IsGroupDelete

/-- The group and the label of a row are in its key if the table has the layout of its kind. -/
theorem isPrimaryKey_of_namesLabel {kind : ElementKind} {row : EntryRow}
    (hrow : row.NamesLabel kind label) :
    ∀ column ∈ kind.labelColumn :: kind.groupColumns, kind.layout.isPrimaryKey column = true := by
  cases kind with
  | edge => decide
  | secondaryIndex => decide
  | searchIndex => decide
  | _ => exact hrow.elim

section Groups

/-- The rows of a table that none of several deletes takes out. -/
def rowsKept (table : StoredTable) (deletes : List Delete) : List (RowKey × StoredRow) :=
  table.rows.filter fun entry => deletes.all fun delete => !delete.takes table.definition entry.2

variable {scanned before : StoredTable} {deletes : List Delete}
  (hscanned : scanned.Coherent) (hbefore : before.Coherent)
  (hgroups : List.Forall₂ (fun entry delete => table.IsGroupDelete label entry.2.cells.find? delete)
    (scanned.rows.filter fun entry => entry.2.hasLabel table.kind label) deletes)
  (hbind : ∀ delete ∈ deletes, delete.Bindable before.definition)
  (hdefinition : before.definition = scanned.definition)

include hscanned hbefore hgroups hbind hdefinition

/-- Only rows of the label are taken out by the deletes of its groups. -/
theorem hasLabel_of_not_kept {entry : RowKey × StoredRow} (hentry : entry ∈ before.rows)
    (htaken : (deletes.all fun delete => !delete.takes before.definition entry.2) = false) :
    entry.2.hasLabel table.kind label = true := by
  rw [List.all_eq_false] at htaken
  obtain ⟨delete, hdelete, htakes⟩ := htaken
  obtain ⟨found, hfound, hgroup⟩ := exists_mem_of_forall₂ hgroups hdelete
  have hrow := (hscanned.rows found (List.mem_filter.mp hfound).1).fits
  rw [← hdefinition] at hrow
  exact hgroup.hasLabel_of_takes hrow (hbefore.rows entry hentry).fits (hbind delete hdelete)
    (by simpa using htakes)

/-- A row of the label is taken out if it is in the group of a row that was found. -/
theorem not_mem_rowsKept {entry found : RowKey × StoredRow}
    (hfound : found ∈ scanned.rows.filter fun entry => entry.2.hasLabel table.kind label)
    (hlabel : entry.2.hasLabel table.kind label = true)
    (hgroup : ∀ column ∈ table.kind.groupColumns,
      entry.2.cells.find? column = found.2.cells.find? column) :
    entry ∉ rowsKept before deletes := by
  intro hkept
  obtain ⟨hentry, hall⟩ := List.mem_filter.mp hkept
  obtain ⟨delete, hdelete, hof⟩ : ∃ delete ∈ deletes,
      table.IsGroupDelete label found.2.cells.find? delete :=
    exists_mem_of_forall₂ hgroups.flip hfound
  have hrow := (hscanned.rows found (List.mem_filter.mp hfound).1).fits
  rw [← hdefinition] at hrow
  have htakes := hof.takes_of_group hrow (hbefore.rows entry hentry).fits (hbind delete hdelete)
    hlabel hgroup
  have hnot := List.all_eq_true.mp hall delete hdelete
  rw [htakes] at hnot
  cases hnot

/-- No row is kept under the key of a row that was found and has no null in its key. -/
theorem ne_key_of_mem_rowsKept {row : EntryRow} (hrow : row.NamesLabel table.kind label)
    (hlayout : scanned.definition = table.definition) {found left : RowKey × StoredRow}
    (hfound : found ∈ scanned.rows.filter fun entry => entry.2.hasLabel table.kind label)
    (hkey : ∀ column, table.definition.isPrimaryKey column = true →
      (found.2.valueOf column).isNull = false)
    (hleft : left ∈ rowsKept before deletes) : left.1 ≠ found.1 := by
  intro heq
  obtain ⟨hfoundRow, hfoundLabel⟩ := List.mem_filter.mp hfound
  have hcoherent := hscanned.rows found hfoundRow
  have hother := hbefore.rows left (List.mem_filter.mp hleft).1
  rw [hdefinition, heq] at hother
  -- The columns of group and label are in the key, which the two rows share.
  have hsame : ∀ column ∈ table.kind.labelColumn :: table.kind.groupColumns,
      left.2.cells.find? column = found.2.cells.find? column := by
    intro column hcolumn
    have hprimary : table.definition.isPrimaryKey column = true :=
      isPrimaryKey_of_namesLabel hrow column hcolumn
    exact hcoherent.find?_eq_of_key hother (hlayout ▸ hprimary) (hkey column hprimary)
  obtain ⟨hlabel, hgroup⟩ := List.forall_mem_cons.mp hsame
  refine not_mem_rowsKept hscanned hbefore hgroups hbind hdefinition hfound ?_ hgroup hleft
  rwa [StoredRow.hasLabel, hlabel]

/-- If the rows are still those that were scanned, all others than those of the label are kept. -/
theorem rowsKept_of_same_rows (hrows : before.rows = scanned.rows) :
    rowsKept before deletes =
      scanned.rows.filter fun entry => !entry.2.hasLabel table.kind label := by
  rw [rowsKept, ← hrows]
  refine List.filter_congr fun entry hentry => ?_
  cases hlabel : entry.2.hasLabel table.kind label with
  | false =>
    cases hall : deletes.all fun delete => !delete.takes before.definition entry.2 with
    | true => rfl
    | false =>
      rw [hasLabel_of_not_kept hscanned hbefore hgroups hbind hdefinition hentry hall] at hlabel
      cases hlabel
  | true =>
    have hfound : entry ∈ scanned.rows.filter fun entry => entry.2.hasLabel table.kind label :=
      List.mem_filter.mpr ⟨hrows ▸ hentry, hlabel⟩
    have hnot := not_mem_rowsKept hscanned hbefore hgroups hbind hdefinition hfound hlabel
      fun _ _ => rfl
    rw [rowsKept, List.mem_filter] at hnot
    simpa using fun h => hnot ⟨hentry, h⟩

end Groups

/-- Deleting by label takes out exactly the rows of the label, whatever other sessions do between
the scan and the commit, as long as they do not drop the table. The scan finds the rows of the
label. What the commit removes are rows with the label at that moment; every other row and table is
as it was; and no row is left under the key of a row that was found and has no null in its key. If
nothing is committed in between, the rows left are those that were scanned without the label. -/
theorem delete_label_exact (table : GraphTable) {world : World}
    (hreach : world.cluster.Reachable) {me : String} {session : SessionState}
    (hsession : world.session? me = some session) (hempty : session.batch = [])
    {row : EntryRow} {label : String} (hrow : row.NamesLabel table.kind label) {deleted : World}
    (hdelete : world.onSession me (table.delete row) = some (.ok (), deleted))
    {others : List (String × Request)} (hothers : ∀ r ∈ others, r.1 ≠ me)
    (hkeep : ∀ r ∈ others, r.2.SchemaSatisfies (· ≠ .dropTable table.name))
    {n : Nat} {committed : World}
    (hcommit : (deleted.run others).answer me .commit = (.number n, committed)) :
    ∃ scanned before after select,
      world.cluster.table session.keyspace table.name = .ok scanned ∧
      (deleted.run others).cluster.table session.keyspace table.name = .ok before ∧
      committed.cluster.table session.keyspace table.name = .ok after ∧
      ((deleted.session? me).map (·.history) = some (select :: session.history) ∧
        scanned.select select = .ok
          ((scanned.rows.filter fun entry => entry.2.hasLabel table.kind label).map
            fun entry => scanned.project entry.2)) ∧
      (∀ keyspace name, (keyspace, name) ≠ (session.keyspace, table.name) →
        committed.cluster.table keyspace name = (deleted.run others).cluster.table keyspace name) ∧
      (∃ keep, after = { before with rows := before.rows.filter keep } ∧
        ∀ entry ∈ before.rows, keep entry = false → entry.2.hasLabel table.kind label = true) ∧
      (scanned.definition = table.definition →
        ∀ found ∈ scanned.rows, found.2.hasLabel table.kind label = true →
          (∀ column, table.definition.isPrimaryKey column = true →
            (found.2.valueOf column).isNull = false) →
          ∀ left ∈ after.rows, left.1 ≠ found.1) ∧
      ((∀ r ∈ others, r.2 ≠ .commit) →
        after.rows = scanned.rows.filter fun entry => !entry.2.hasLabel table.kind label) := by
  obtain ⟨found, c, hfound, hrun, rfl⟩ := world.onSession_eq_some_iff.mp hdelete
  rw [hsession, Option.some.injEq] at hfound
  subst hfound
  obtain ⟨scanned, filtering, deletes, hscanned, hselect, hgroups, rfl⟩ :=
    delete_of_namesLabel hrow hreach hrun
  rw [hempty, List.nil_append] at hcommit ⊢
  set state : SessionState := ⟨session.keyspace, deletes.map .delete,
    table.labelScan label filtering :: session.history⟩
  set deleted := world.store me ⟨world.cluster, state⟩
  have hstate : deleted.session? me = some state := world.session?_store_self _
  have hdeletedScanned : deleted.cluster.table session.keyspace table.name = .ok scanned := hscanned
  obtain ⟨before, hbefore, hdefinition⟩ := World.table_run_kept hdeletedScanned others hkeep
  have hdeletedReach : deleted.cluster.Reachable := hreach
  have hcoherent := hdeletedReach.coherent_run others hbefore
  obtain ⟨reached, happlies, hcommitted⟩ := World.applies_of_answer_commit _
    ((World.session?_run_of_ne hothers deleted).trans hstate) hcommit
  have htable : ∀ delete ∈ deletes, delete.table = table.name := fun delete hmem =>
    let ⟨_, _, hgroup⟩ := exists_mem_of_forall₂ hgroups hmem
    hgroup.table_eq
  obtain ⟨hbind, hafter⟩ := happlies.find?_of_deletes htable (Cluster.table_eq_ok_iff.mp hbefore)
  have hcommittedTable : committed.cluster.table session.keyspace table.name =
      .ok { before with rows := rowsKept before deletes } := by
    rw [Cluster.table_eq_ok_iff, hcommitted, Cluster.tables_setTables_self]
    exact hafter
  have hscannedCoherent := hreach.coherent hscanned
  refine ⟨scanned, before, _, _, hscanned, hbefore, hcommittedTable,
    ⟨by rw [hstate]; rfl, hselect⟩, ?_, ⟨_, rfl, fun entry hentry htaken => ?_⟩, ?_, ?_⟩
  · intro keyspace name hne
    have hbatch : ∀ s ∈ state.batch, s.table = table.name := fun s hs => by
      obtain ⟨delete, hmem, rfl⟩ := List.mem_map.mp hs
      exact htable delete hmem
    rw [hcommitted]
    exact Cluster.table_setTables_of_applies happlies hbatch hne
  · exact hasLabel_of_not_kept hscannedCoherent hcoherent hgroups hbind hdefinition hentry htaken
  · intro hlayout found hfound hlabel hkey left hleft
    exact ne_key_of_mem_rowsKept hscannedCoherent hcoherent hgroups hbind hdefinition hrow hlayout
      (List.mem_filter.mpr ⟨hfound, hlabel⟩) hkey hleft
  · intro hquiet
    obtain ⟨indexes, hsame⟩ := World.table_run_of_no_commit hdeletedScanned hkeep hquiet
    rw [hbefore, Except.ok.injEq] at hsame
    exact rowsKept_of_same_rows hscannedCoherent hcoherent hgroups hbind hdefinition
      (by rw [hsame])

/-- The statement that writes an edge whole. -/
def writeEdge (owner direction label other : String) : Statement :=
  .insert ⟨"edges", [("OWNER_VERTEX", .text owner), ("DIRECTION", .text direction),
    ("LABEL", .text label), ("SORT_VALUES", .text ""), ("OTHER_VERTEX", .text other)]⟩

/-- A session creates the edge table and writes three edges, two of them with one label. -/
def writeThreeEdges : List (String × Request) :=
  ("writer", .connect "graph") ::
    (ElementKind.edge.layout.createTable :: ElementKind.edge.layout.createIndexes).map
      (fun statement => ("writer", .changeSchema statement)) ++
  [("writer", .add (writeEdge "marko" "OUT" "knows" "josh")),
    ("writer", .add (writeEdge "josh" "IN" "knows" "marko")),
    ("writer", .add (writeEdge "marko" "OUT" "likes" "josh")), ("writer", .commit)]

/-- Another session writes an edge in the group of one of them, and one in a group of its own. -/
def writeTwoMore : List (String × Request) :=
  [("other", .connect "graph"), ("other", .add (writeEdge "marko" "OUT" "knows" "peter")),
    ("other", .add (writeEdge "peter" "OUT" "knows" "josh")), ("other", .commit)]

/-- The world after the label was deleted and before the deletes are committed. -/
def knowsDeleted : World :=
  (((World.run {} writeThreeEdges).onSession "writer"
    (delete ⟨.edge, {}⟩ { kind := .edge, id := some ⟨"knows"⟩ })).map (·.2)).getD {}

/-- Of the edges of a label those written meanwhile go if their group was found, and stay if not. -/
theorem delete_label_exact_knows :
    ∃ committed scanned after,
      ((knowsDeleted.run writeTwoMore).answer "writer" .commit) = (.number 2, committed) ∧
      (World.run {} writeThreeEdges).cluster.table "graph" "edges" = .ok scanned ∧
      committed.cluster.table "graph" "edges" = .ok after ∧
      scanned.rows.length = 3 ∧ after.rows.length = 2 ∧
      ∀ found ∈ scanned.rows, found.2.hasLabel .edge "knows" = true →
        (∀ column, ElementKind.edge.layout.isPrimaryKey column = true →
          (found.2.valueOf column).isNull = false) →
        ∀ left ∈ after.rows, left.1 ≠ found.1 := by
  have hok : ((World.run {} writeThreeEdges).onSession "writer"
      (delete ⟨.edge, {}⟩ { kind := .edge, id := some ⟨"knows"⟩ })).map
        (fun r => r.1.toOption) = some (some ()) := by decide +kernel
  obtain ⟨⟨result, deleted⟩, hdelete, hresult⟩ := Option.map_eq_some_iff.mp hok
  obtain rfl := toOption_eq_some_iff.mp hresult
  have hdeleted : knowsDeleted = deleted := by
    rw [knowsDeleted, hdelete]
    rfl
  rw [← hdeleted] at hdelete
  have hreply : ((knowsDeleted.run writeTwoMore).answer "writer" .commit).1 = .number 2 := by
    decide +kernel
  have hbefore : (((World.run {} writeThreeEdges).cluster.table "graph" "edges").toOption.map
      fun stored => (stored.definition, stored.rows.length)) =
        some (ElementKind.edge.layout, 3) := by decide +kernel
  have hafter : ((((knowsDeleted.run writeTwoMore).answer "writer" .commit).2.cluster.table "graph"
      "edges").toOption.map fun stored => stored.rows.length) = some 2 := by decide +kernel
  have hopen : (World.run {} writeThreeEdges).session? "writer" = some ⟨"graph", [], []⟩ := by
    decide +kernel
  have hrow : EntryRow.NamesLabel { kind := .edge, id := some ⟨"knows"⟩ } .edge "knows" :=
    ⟨rfl, _, rfl, by decide +kernel⟩
  obtain ⟨committed, hcommit⟩ : ∃ committed,
      (knowsDeleted.run writeTwoMore).answer "writer" .commit = (.number 2, committed) :=
    ⟨_, Prod.ext hreply rfl⟩
  obtain ⟨scanned, before, after, -, hscanned, -, hcommitted, -, -, -, hgone, -⟩ :=
    delete_label_exact ⟨.edge, {}⟩ ⟨writeThreeEdges, rfl⟩ hopen rfl hrow hdelete (by decide)
      (by simp [writeTwoMore, Request.SchemaSatisfies]) hcommit
  obtain ⟨found, hfound, hlayout⟩ := exists_ok_of_map_toOption hbefore
  obtain ⟨left, hleft, hrows⟩ := exists_ok_of_map_toOption hafter
  change (World.run {} writeThreeEdges).cluster.table "graph" "edges" = .ok scanned at hscanned
  change committed.cluster.table "graph" "edges" = .ok after at hcommitted
  rw [hcommit, hcommitted, Except.ok.injEq] at hleft
  rw [hscanned, Except.ok.injEq] at hfound
  subst hfound hleft
  rw [Prod.mk.injEq] at hlayout
  exact ⟨committed, scanned, after, hcommit, hscanned, hcommitted, hlayout.2, hrows,
    hgone hlayout.1⟩

end GraphTable

end WideGraph
