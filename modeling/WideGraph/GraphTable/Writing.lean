import WideGraph.GraphTable.Selects
import WideGraph.Session

/-!
# Changing graph tables

A change of an element is planned before it runs. Most plans stage one statement. Deleting by a
label is planned as a select and one delete for every row it returns, because the store can only
delete by its key columns.
-/

namespace WideGraph

/-- How a change is carried out. -/
inductive ChangePlan where
  /-- Stage one statement. -/
  | stage (statement : Statement)
  /-- Stage one statement for each row of a select. -/
  | perRow (select : Select) (context : String) (toStatement : Row → Except BackendError Statement)

namespace ChangePlan

variable {σ : Type} [Session σ]

/-- Stage the statements of the rows, up to the first row that has none. -/
def stageRows (toStatement : Row → Except BackendError Statement) : List Row → SessionM σ Unit
  | [] => pure ()
  | row :: rest => do
    SessionM.stage (← SessionM.ofExcept (toStatement row))
    stageRows toStatement rest

/-- Carry out a planned change. -/
def run : ChangePlan → SessionM σ Unit
  | .stage statement => SessionM.stage statement
  | .perRow select context toStatement => do
    stageRows toStatement (← SessionM.ofStore context (Session.execute select))

end ChangePlan

namespace GraphTable

/-- Name the values of columns as equality clauses. -/
def equalities (values : List (Column × Value)) : List Clause :=
  values.map fun b => Clause.eq b.1.nativeName b.2

/-- The value that an element's row gives for one id column. -/
def idColumnValue (table : GraphTable) (row : EntryRow) (column : Column) :
    Except BackendError (Column × Value) :=
  match row.find? column with
  | some value => .ok (column, value)
  | none => .error (.contractViolation (.missingKey table.name column))

/-- The clauses that address an element: the parts of its identifier or, without one, its id
columns. -/
def keyClauses (table : GraphTable) (row : EntryRow) : Except BackendError (List Clause) :=
  (match row.id with
    | some id => table.idKeyValues id
    | none => mapExcept (table.idColumnValue row) table.idColumns).map equalities

/-- The columns of an element outside its id columns. -/
def dataColumns (table : GraphTable) (row : EntryRow) : List (Column × Value) :=
  row.columns.bindings.filter fun b => !table.idColumns.contains b.1

/-- What appending a value adds: a collection itself, a list as the set of its texts, and any other
value as a set of its text. -/
def addition : Value → Value
  | .set s => .set s
  | .map m => .map m
  | .list items => .set (.ofList (items.map Value.plain))
  | scalar => .set (.ofList [scalar.plain])

/-- What eliminating a value takes out: a map's keys, the members of a set or list, and any other
value as one element. -/
def removal (column : String) : Value → Assignment
  | .map m => .removeAll column (.set m.keySet)
  | .set s => .removeAll column (.set s)
  | .list items => .removeAll column (.set (.ofList (items.map Value.plain)))
  | scalar => .remove column scalar

/-- The plan that changes collections of the addressed element. -/
def updatePlan (table : GraphTable) (operation : String) (row : EntryRow)
    (assignments : List Assignment) : Except BackendError ChangePlan :=
  if assignments = [] then
    .error (.contractViolation (.nothingToModify operation table.name))
  else
    (table.keyClauses row).map fun clauses => .stage (.update ⟨table.name, assignments, clauses⟩)

/-- Index rows only take changes of their element ids; the first other column is reported. -/
def checkModifiable (table : GraphTable) (row : EntryRow) : Except BackendError Unit :=
  if !table.kind.isIndex then .ok ()
  else
    match (table.dataColumns row).find? fun b => b.1 != .elementIds with
    | some (column, _) => .error (.invalidIndexMutation table.name (.unmodifiableColumn column))
    | none => .ok ()

/-- The plan that writes an element whole. -/
def insertPlan (table : GraphTable) (row : EntryRow) : Except BackendError ChangePlan :=
  if table.kind.isIndex then .error (.invalidIndexMutation table.name .insertion)
  else if !row.hasColumns then .error (.contractViolation (.insertWithoutColumns table.name))
  else .ok (.stage (.insert ⟨table.name, row.assignments⟩))

/-- The plan that adds to the collections of an element. -/
def appendPlan (table : GraphTable) (row : EntryRow) : Except BackendError ChangePlan := do
  table.checkModifiable row
  table.updatePlan "append" row
    ((table.dataColumns row).map fun b => .append b.1.nativeName (addition b.2))

/-- The plan that takes out of the collections of an element. -/
def eliminatePlan (table : GraphTable) (row : EntryRow) : Except BackendError ChangePlan := do
  table.checkModifiable row
  table.updatePlan "eliminate" row
    ((table.dataColumns row).map fun b => removal b.1.nativeName b.2)

/-- The plan that deletes by identifier an element without columns, or by its columns one without an
identifier. -/
def deleteRowPlan (table : GraphTable) (row : EntryRow) : Except BackendError ChangePlan :=
  if !row.hasColumns then
    (table.keyClauses row).map fun clauses => .stage (.delete ⟨table.name, clauses⟩)
  else if row.id = none then
    .ok (.stage (.delete ⟨table.name, equalities row.columns.bindings⟩))
  else .error (.unsupported (.deleteByIdWithColumns table.name))

/-- The value of a key column in a returned row; what describes the row is named in the failure. -/
def returnedKey (description : String) (column : Column) (row : Row) : Except BackendError Value :=
  match row.find? column.nativeName with
  | some value => .ok value
  | none => .error
    (.store (description ++ " row returned without " ++ column.nativeName) .missingKeyColumn)

/-- The delete of the edges of a label that share a returned row's owner and direction. -/
def edgeLabelDelete (table : GraphTable) (label : String) (row : Row) :
    Except BackendError Statement := do
  let owner ← returnedKey "edge" .ownerVertex row
  let direction ← returnedKey "edge" .direction row
  .ok (.delete ⟨table.name, equalities
    [(.ownerVertex, owner), (.direction, direction), (.label, .text label)]⟩)

/-- The plan that deletes every edge of a label. -/
def edgeLabelPlan (table : GraphTable) (label : String) : ChangePlan :=
  .perRow
    { table := table.name, clauses := [Clause.eq Column.label.nativeName (.text label)],
      allowFiltering := true }
    ("failed to query edges with label '" ++ label ++ "' for deleting")
    (table.edgeLabelDelete label)

/-- The plan that deletes edges: an entry that is nothing but a one-part identifier names a label,
and any other entry is deleted as a row. -/
def deleteEdgePlan (table : GraphTable) (row : EntryRow) : Except BackendError ChangePlan :=
  match row.id with
  | none => table.deleteRowPlan row
  | some id =>
    match id.edgeParts .outgoing with
    | [label] => if row.hasColumns then table.deleteRowPlan row else .ok (table.edgeLabelPlan label)
    | _ => table.deleteRowPlan row

/-- The delete of the rows of an index label that share a returned row's field values. -/
def indexLabelDelete (table : GraphTable) (label : String) (row : Row) :
    Except BackendError Statement := do
  let fieldValues ← returnedKey table.name .fieldValues row
  .ok (.delete ⟨table.name, equalities
    [(.fieldValues, fieldValues), (.indexLabelName, .text label)]⟩)

/-- The plan that deletes every row of an index label. The search index keeps a label in one
partition, so that only the secondary index has to be filtered. -/
def indexLabelPlan (table : GraphTable) (label : String) : ChangePlan :=
  .perRow
    { table := table.name, clauses := [Clause.eq Column.indexLabelName.nativeName (.text label)],
      allowFiltering := table.kind == .secondaryIndex }
    ("failed to query " ++ table.name ++ " with index label '" ++ label ++ "' for deleting")
    (table.indexLabelDelete label)

/-- The plan that deletes index rows, which is only possible by a whole label. -/
def deleteIndexPlan (table : GraphTable) (row : EntryRow) : Except BackendError ChangePlan :=
  match row.find? .fieldValues with
  | some value => .error (.invalidIndexMutation table.name (.fieldValuesGiven value.plain))
  | none =>
    match row.text? .indexLabelName with
    | some label =>
      if label = "" then .error (.invalidIndexMutation table.name .labelMissing)
      else .ok (table.indexLabelPlan label)
    | none => .error (.invalidIndexMutation table.name .labelMissing)

/-- The plan that deletes elements by the rule of their kind. -/
def deletePlan (table : GraphTable) (row : EntryRow) : Except BackendError ChangePlan :=
  match table.kind with
  | .edge => table.deleteEdgePlan row
  | .secondaryIndex | .searchIndex => table.deleteIndexPlan row
  | _ => table.deleteRowPlan row

variable {σ : Type} [Session σ]

/-- Carry out a plan, if there is one. -/
def carryOut (plan : Except BackendError ChangePlan) : SessionM σ Unit := do
  (← SessionM.ofExcept plan).run

/-- A plan is carried out by running it. -/
theorem carryOut_ok (plan : ChangePlan) (s : σ) : carryOut (.ok plan) s = plan.run s := by
  rw [carryOut, SessionM.bind_apply, SessionM.ofExcept]

/-- Without plan an operation fails and leaves the session as it is. -/
theorem carryOut_error (e : BackendError) (s : σ) : carryOut (.error e) s = (.error e, s) := by
  rw [carryOut, SessionM.bind_apply, SessionM.ofExcept]

/-- An operation succeeds if it has a plan that is carried out. -/
theorem carryOut_eq_ok_iff {plan : Except BackendError ChangePlan} {s s' : σ} :
    carryOut plan s = (.ok (), s') ↔ ∃ p, plan = .ok p ∧ p.run s = (.ok (), s') := by
  cases plan with
  | error e =>
    rw [carryOut_error]
    constructor
    · intro h
      cases h
    · rintro ⟨p, hplan, -⟩
      cases hplan
  | ok p =>
    rw [carryOut_ok]
    constructor
    · exact fun hrun => ⟨p, rfl, hrun⟩
    · rintro ⟨_, hplan, hrun⟩
      cases hplan
      exact hrun

/-- Write an element whole. -/
def insert (table : GraphTable) (row : EntryRow) : SessionM σ Unit :=
  carryOut (table.insertPlan row)

/-- Add to the collections of an element. -/
def append (table : GraphTable) (row : EntryRow) : SessionM σ Unit :=
  carryOut (table.appendPlan row)

/-- Take out of the collections of an element. -/
def eliminate (table : GraphTable) (row : EntryRow) : SessionM σ Unit :=
  carryOut (table.eliminatePlan row)

/-- Delete elements. -/
def delete (table : GraphTable) (row : EntryRow) : SessionM σ Unit :=
  carryOut (table.deletePlan row)

end GraphTable

end WideGraph
