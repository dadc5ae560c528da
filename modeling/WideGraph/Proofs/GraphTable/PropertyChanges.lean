import WideGraph.Proofs.GraphTable.IdDeletion
import WideGraph.Proofs.GraphTable.InsertedElement
import WideGraph.Proofs.Store.UpdatedRow

/-!
# Properties added to an element and taken away

Vertices and edges have a map of properties. One operation puts the pairs of a map over it, and the
other takes the keys of a map out of it. Either changes one cell of one row; only whether the row is
there may change with it, since an update creates the row that it does not find and takes out the
one that has nothing but its key.
-/

namespace WideGraph

namespace ColumnValues

/-- Values given for distinct columns, one each, are found there. -/
theorem map_find?_ofList_zip {columns : List Column} (hdistinct : columns.Nodup)
    {values : List Value} (hlength : values.length = columns.length) :
    columns.map (ofList (columns.zip values)).find? = values.map some := by
  have hpairs : ((columns.zip values).map (·.1)).Nodup := by
    rwa [List.map_fst_zip hlength.ge]
  calc columns.map (ofList (columns.zip values)).find?
      = ((columns.zip values).map (·.1)).map (ofList (columns.zip values)).find? := by
        rw [List.map_fst_zip hlength.ge]
    _ = (columns.zip values).map fun pair => some pair.2 := by
        rw [List.map_map]
        exact List.map_congr_left fun pair hpair => (find?_ofList_iff hpairs).mpr hpair
    _ = ((columns.zip values).map (·.2)).map some := by
        rw [List.map_map]
        rfl
    _ = values.map some := by rw [List.map_snd_zip hlength.le]

/-- There is no value for a column that is not among those with one each. -/
theorem find?_ofList_zip_of_not_mem {columns : List Column} {column : Column}
    (h : column ∉ columns) (values : List Value) :
    (ofList (columns.zip values)).find? column = none := by
  rw [Option.eq_none_iff_forall_ne_some]
  exact fun value hvalue => h (List.of_mem_zip (mem_of_find?_ofList hvalue)).1

end ColumnValues

/-- What is bound to a column of text is bound as it is. -/
theorem ColumnType.eq_of_bind_text {value bound : Value}
    (h : ColumnType.text.bind value = .ok bound) : bound = value := by
  cases value <;> cases h <;> rfl

namespace ElementKind

/-- The elements of the kind have a map of properties, which vertices and edges do. -/
def HasProperties (kind : ElementKind) : Prop :=
  kind = .vertex ∨ kind = .edge

namespace HasProperties

variable {kind : ElementKind} (h : kind.HasProperties)

include h

/-- No index has properties. -/
theorem isIndex_eq_false : kind.isIndex = false := by
  obtain rfl | rfl := h <;> rfl

/-- The columns into which an identifier decodes are declared for texts. -/
theorem typeOf?_of_mem_idColumns {column : Column} (hcolumn : column ∈ kind.idColumns) :
    kind.layout.typeOf? column = some .text := by
  revert column
  obtain rfl | rfl := h <;> decide

/-- The properties are kept as a map outside the primary key. -/
theorem properties_declared : kind.layout.typeOf? .properties = some .textMap ∧
    kind.layout.isPrimaryKey .properties = false := by
  obtain rfl | rfl := h <;> decide

/-- No identifier decodes into properties. -/
theorem properties_not_mem_idColumns : Column.properties ∉ kind.idColumns := by
  obtain rfl | rfl := h <;> decide

/-- The columns into which an identifier decodes make the primary key. -/
theorem isPrimaryKey_iff (column : Column) :
    kind.layout.isPrimaryKey column = true ↔ column ∈ kind.idColumns :=
  isPrimaryKey_iff_mem_idColumns (by obtain rfl | rfl := h <;> decide) column

/-- Rows have the same key if they have the same values in the id columns. -/
theorem keyIn_eq_iff {row other : StoredRow} : row.keyIn kind.layout = other.keyIn kind.layout ↔
    kind.idColumns.map row.valueOf = kind.idColumns.map other.valueOf := by
  rw [StoredRow.keyIn_eq_iff, List.map_inj_left]
  simp only [isPrimaryKey_iff h]

end HasProperties

end ElementKind

/-- The entry of a vertex or an edge addresses the row that has some values in the id columns. Its
identifier counts, if it has one: the text of it for a vertex, and for an edge the five texts that it
joins, or four of them if the edge is outgoing. Otherwise the values are those of its own columns. -/
inductive EntryRow.Addresses (row : EntryRow) : ElementKind → List Value → Prop where
  | columns {kind : ElementKind} {values : List Value} (hid : row.id = none)
      (hvalues : kind.idColumns.map row.find? = values.map some) : row.Addresses kind values
  | vertex {id : Identifier} (hid : row.id = some id) : row.Addresses .vertex [.text id.text]
  | edge {id : Identifier} {owner direction label sortValues other : String}
      (hid : row.id = some id) (hparts : id.split = [owner, direction, label, sortValues, other]) :
      row.Addresses .edge
        [.text owner, .text direction, .text label, .text sortValues, .text other]
  | outgoingEdge {id : Identifier} {owner label sortValues other : String} (hid : row.id = some id)
      (hparts : id.split = [owner, label, sortValues, other]) :
      row.Addresses .edge [.text owner, .text "OUT", .text label, .text sortValues, .text other]

namespace EntryRow

variable {row : EntryRow} {kind : ElementKind} {values : List Value}

/-- There is one value for each id column of an addressed row. -/
theorem Addresses.length_eq (h : row.Addresses kind values) :
    values.length = kind.idColumns.length := by
  cases h with
  | columns hid hvalues => simpa using (congrArg List.length hvalues).symm
  | vertex | edge | outgoingEdge => rfl

/-- An entry without an identifier addresses a row by its id columns. -/
theorem addresses_iff_of_id_eq_none (hid : row.id = none) :
    row.Addresses kind values ↔ kind.idColumns.map row.find? = values.map some := by
  refine ⟨fun h => ?_, .columns hid⟩
  cases h with
  | columns _ hvalues => exact hvalues
  | vertex hsome | edge hsome | outgoingEdge hsome =>
    rw [hid] at hsome
    cases hsome

end EntryRow

namespace GraphTable

section KeyClauses

variable {table : GraphTable} {row : EntryRow}

/-- The id columns of an entry are taken as they are, if it has all of them. -/
theorem mapExcept_idColumnValue_eq_ok_iff {columns : List Column} {pairs : List (Column × Value)} :
    mapExcept (table.idColumnValue row) columns = .ok pairs ↔
      ∃ values, columns.map row.find? = values.map some ∧ columns.zip values = pairs := by
  rw [mapExcept_eq_ok_iff]
  constructor
  · intro h
    induction h with
    | nil => exact ⟨[], rfl, rfl⟩
    | @cons column pair columns pairs hfirst _ ih =>
      obtain ⟨values, hvalues, rfl⟩ := ih
      rw [idColumnValue] at hfirst
      split at hfirst
      · rename_i value hvalue
        cases hfirst
        exact ⟨value :: values, by simp [hvalue, hvalues], rfl⟩
      · cases hfirst
  · rintro ⟨values, hvalues, rfl⟩
    induction columns generalizing values with
    | nil => exact .nil
    | cons column columns ih =>
      cases values with
      | nil => cases hvalues
      | cons value values =>
        obtain ⟨hfirst, hrest⟩ := List.cons.inj hvalues
        exact .cons (by rw [idColumnValue, hfirst]) (ih values hrest)

/-- An identifier that decodes for edges names five key parts. -/
theorem exists_edgeParts {configuration : Configuration} {id : Identifier}
    {key : List (Column × Value)} (h : idKeyValues ⟨.edge, configuration⟩ id = .ok key) :
    ∃ owner direction label sortValues other,
      id.edgeParts .outgoing = [owner, direction, label, sortValues, other] := by
  rw [idKeyValues, ElementKind.idParts] at h
  generalize id.edgeParts .outgoing = parts at h ⊢
  rcases parts with
    _ | ⟨owner, _ | ⟨direction, _ | ⟨label, _ | ⟨sortValues, _ | ⟨other, _ | ⟨more, rest⟩⟩⟩⟩⟩⟩
  case cons.cons.cons.cons.cons.nil => exact ⟨owner, direction, label, sortValues, other, rfl⟩
  all_goals cases h

/-- An identifier that decodes gives the values by which the entries with it address a row. -/
theorem idKeyValues_eq_ok_iff_addresses (hkind : table.kind.HasProperties) {id : Identifier}
    (hid : row.id = some id) {pairs : List (Column × Value)} :
    table.idKeyValues id = .ok pairs ↔
      ∃ values, row.Addresses table.kind values ∧ table.idColumns.zip values = pairs := by
  obtain ⟨kind, configuration⟩ := table
  constructor
  · intro hpairs
    obtain rfl | rfl := hkind
    · rw [idKeyValues_vertex, Except.ok.injEq] at hpairs
      exact ⟨_, .vertex hid, hpairs⟩
    · obtain ⟨owner, direction, label, sortValues, other, hparts⟩ := exists_edgeParts hpairs
      rw [idKeyValues_edge configuration hparts, Except.ok.injEq] at hpairs
      rw [Identifier.edgeParts] at hparts
      split at hparts
      · rename_i hsplit
        cases hparts
        exact ⟨_, .outgoingEdge hid hsplit, hpairs⟩
      · exact ⟨_, .edge hid hparts, hpairs⟩
  · rintro ⟨values, haddresses, rfl⟩
    cases haddresses with
    | columns hnone =>
      rw [hid] at hnone
      cases hnone
    | vertex hsome =>
      rw [hid, Option.some.injEq] at hsome
      rw [hsome]
      exact idKeyValues_vertex configuration _
    | edge hsome hsplit | outgoingEdge hsome hsplit =>
      rw [hid, Option.some.injEq] at hsome
      refine idKeyValues_edge configuration ?_
      simp [hsome, Identifier.edgeParts, hsplit, Direction.name]

/-- The clauses for an entry are equalities with the values by which it addresses a row. -/
theorem keyClauses_eq_ok_iff (hkind : table.kind.HasProperties) {clauses : List Clause} :
    table.keyClauses row = .ok clauses ↔
      ∃ values, row.Addresses table.kind values ∧
        equalities (table.idColumns.zip values) = clauses := by
  rw [keyClauses, map_ok_iff]
  cases hid : row.id with
  | some id => simp only [idKeyValues_eq_ok_iff_addresses hkind hid, exists_exists_and_eq_and]
  | none =>
    simp only [mapExcept_idColumnValue_eq_ok_iff, exists_exists_and_eq_and]
    exact exists_congr fun values =>
      and_congr_left fun _ => (EntryRow.addresses_iff_of_id_eq_none hid).symm

end KeyClauses

/-- What may be done to the properties of an element with a map of properties. -/
inductive PropertyChange where
  /-- The pairs of the map are put over the properties. -/
  | append
  /-- The keys of the map are taken out of the properties. -/
  | eliminate
deriving DecidableEq, Repr

namespace PropertyChange

/-- The operation on a graph table. -/
def run (change : PropertyChange) (table : GraphTable) (row : EntryRow) :
    SessionM Connection Unit :=
  match change with
  | .append => table.append row
  | .eliminate => table.eliminate row

/-- The value under a key afterwards, by the one that the map gives for it and the old one. -/
def valueAfter (change : PropertyChange) (given old : Option String) : Option String :=
  match change with
  | .append => given.or old
  | .eliminate => if given.isSome then none else old

/-- The properties afterwards. -/
def apply (change : PropertyChange) (m old : TextMap) : TextMap :=
  match change with
  | .append => old.override m
  | .eliminate => old.eraseKeys m.keySet

/-- The assignment that makes the change. -/
def assignment (change : PropertyChange) (m : TextMap) : Assignment :=
  match change with
  | .append => .append Column.properties.nativeName (.map m)
  | .eliminate => .removeAll Column.properties.nativeName (.set m.keySet)

/-- The assignment is made to the properties. -/
theorem column_assignment (change : PropertyChange) (m : TextMap) :
    (change.assignment m).column = Column.properties.nativeName := by
  cases change <;> rfl

/-- The properties change key by key. -/
theorem find?_apply (change : PropertyChange) (m old : TextMap) (key : String) :
    (change.apply m old).find? key = change.valueAfter (m.find? key) (old.find? key) := by
  cases change with
  | append => exact TextMap.find?_override old m key
  | eliminate =>
    rw [apply, TextMap.find?_eraseKeys, TextMap.contains_keySet, TextMap.containsKey_eq_isSome]
    rfl

/-- The change is planned as one update by the values with which an entry addresses a row. -/
theorem run_eq_ok_iff (change : PropertyChange) {table : GraphTable}
    (hkind : table.kind.HasProperties) {row : EntryRow} {m : TextMap}
    (hdata : table.dataColumns row = [(.properties, .map m)]) {c staged : Connection} :
    change.run table row c = (.ok (), staged) ↔
      ∃ values, row.Addresses table.kind values ∧ staged = c.add (.update ⟨table.name,
        [change.assignment m], equalities (table.idColumns.zip values)⟩) := by
  have hmodifiable : table.checkModifiable row = .ok () := by
    rw [checkModifiable, hkind.isIndex_eq_false]
    rfl
  have hplan : change.run table row = carryOut ((table.keyClauses row).map fun clauses =>
      .stage (.update ⟨table.name, [change.assignment m], clauses⟩)) := by
    cases change with
    | append =>
      rw [run, GraphTable.append, appendPlan, hmodifiable, hdata]
      rfl
    | eliminate =>
      rw [run, GraphTable.eliminate, eliminatePlan, hmodifiable, hdata]
      rfl
  rw [hplan, carryOut_eq_ok_iff]
  simp only [map_ok_iff, keyClauses_eq_ok_iff hkind]
  constructor
  · rintro ⟨_, ⟨_, ⟨values, haddresses, rfl⟩, rfl⟩, hstaged⟩
    cases hstaged
    exact ⟨values, haddresses, rfl⟩
  · rintro ⟨values, haddresses, rfl⟩
    exact ⟨_, ⟨_, ⟨values, haddresses, rfl⟩, rfl⟩, rfl⟩

/-- The assignment leaves what the change makes of the old map, nothing if that is empty. -/
theorem map_of_cellAfter (change : PropertyChange) {m : TextMap} {cell kept : Option Value}
    (hcell : ∀ value, cell = some value → ColumnType.textMap.bind value = .ok value)
    (h : (change.assignment m).cellAfter .textMap cell = .ok kept) :
    ∃ old : TextMap, (cell = none ∧ old = .empty ∨ cell = some (.map old)) ∧
      kept = if (change.apply m old).isEmpty then none else some (.map (change.apply m old)) := by
  rw [Assignment.cellAfter] at h
  obtain ⟨collection, hcollection, h⟩ := bind_ok_iff.mp h
  obtain ⟨after, happly, hafter⟩ := bind_ok_iff.mp h
  rw [Except.ok.injEq] at hafter
  obtain ⟨htype, -⟩ | ⟨-, old, rfl⟩ :=
    StoredTable.collection_of_applyTo hcell hcollection happly
  · cases htype
  · refine ⟨old, ?_, ?_⟩
    · cases cell with
      | none =>
        cases hcollection
        exact .inl ⟨rfl, rfl⟩
      | some value =>
        cases hcollection
        exact .inr rfl
    · have hchanged : after = .map (change.apply m old) := by
        cases change <;> cases happly <;> rfl
      rw [← hafter, hchanged]
      rfl

/-- From one state of a table to another a change with a map has been made to the properties of the
row with some values in the id columns, and to nothing else. -/
structure Changes (change : PropertyChange) (m : TextMap) (kind : ElementKind) (values : List Value)
    (before reached : StoredTable) (key : RowKey) (old new : TextMap) (after : StoredRow) : Prop where
  /-- Nothing but the row under the key changes, and it is kept if there is a reason to. -/
  rewrites : before.Rewrites reached key after
  /-- The row under the key is the one with the values. -/
  addressed : ∀ entry, entry ∈ before.rows ∨ entry ∈ reached.rows →
    (entry.1 = key ↔ kind.idColumns.map entry.2.valueOf = values)
  /-- The properties change key by key. -/
  pairs : ∀ text, new.find? text = change.valueAfter (m.find? text) (old.find? text)
  /-- Properties without a key have no cell. -/
  cell : after.cells.find? .properties = if new.isEmpty then none else some (.map new)
  /-- A row that was there keeps its mark and all cells but the properties. -/
  present : ∀ row, (key, row) ∈ before.rows →
    (row.cells.find? .properties = none ∧ old = .empty ∨
      row.cells.find? .properties = some (.map old)) ∧
    after.inserted = row.inserted ∧
    ∀ column, column ≠ .properties → after.cells.find? column = row.cells.find? column
  /-- A new row has nothing but its key and properties, and there is none without properties. -/
  absent : (∀ row, (key, row) ∉ before.rows) →
    old = .empty ∧ after.inserted = false ∧
    kind.idColumns.map after.cells.find? = values.map some ∧
    (∀ column, column ∉ kind.idColumns → column ≠ .properties → after.cells.find? column = none) ∧
    ((key, after) ∈ reached.rows ↔ new.isEmpty = false)

/-- A new row that has nothing but its key and perhaps properties is there if it has these. -/
theorem lasting_new_iff {kind : ElementKind} (hkind : kind.HasProperties) {values : List Value}
    {kept : Option Value} :
    StoredRow.Lasting kind.layout
        ⟨(ColumnValues.ofList (kind.idColumns.zip values)).keep .properties kept, false⟩ ↔
      kept.isSome = true := by
  rw [Option.isSome_iff_exists]
  constructor
  · rintro (hinserted | ⟨column, value, hvalue, hprimary⟩)
    · cases hinserted
    · rw [ColumnValues.find?_keep] at hvalue
      split at hvalue
      · exact ⟨value, hvalue⟩
      · have hnot : column ∉ kind.idColumns := fun hmem => by
          rw [(hkind.isPrimaryKey_iff column).mpr hmem] at hprimary
          cases hprimary
        rw [ColumnValues.find?_ofList_zip_of_not_mem hnot] at hvalue
        cases hvalue
  · rintro ⟨value, rfl⟩
    refine .inr ⟨.properties, value, ?_, hkind.properties_declared.2⟩
    rw [ColumnValues.find?_keep, if_pos rfl]

section Store

variable {kind : ElementKind} (hkind : kind.HasProperties) {table : StoredTable}
  (hdefinition : table.definition = kind.layout)

include hkind hdefinition

/-- The assignment can be made to the properties. -/
theorem assignedColumns_eq (change : PropertyChange) (m : TextMap) :
    table.assignedColumns [change.assignment m] =
      .ok [(.properties, .textMap, change.assignment m)] := by
  obtain ⟨htype, hprimary⟩ := hkind.properties_declared
  rw [← hdefinition] at htype hprimary
  refine StoredTable.assignedColumns_eq_ok_iff.mpr
    (.cons (StoredTable.assignedColumn_eq_ok_iff.mpr ⟨?_, hprimary, rfl⟩) .nil)
  rw [column_assignment, TableDefinition.resolve_nativeName htype]

/-- Values for the id columns are bound as they are, if they can be. -/
theorem eq_of_bindEqualities {otherwise : StoreError} {values : List Value} {bound : ColumnValues}
    (h : table.bindEqualities otherwise .empty (equalities (kind.idColumns.zip values)) =
      .ok bound) : bound = .ofList (kind.idColumns.zip values) := by
  obtain ⟨found, hbinds, rfl⟩ := StoredTable.bindEqualities_native_eq_ok_iff.mp h
  rw [hbinds.eq_of_native fun pair hpair type value htype hbind => ?_]
  · rfl
  · rw [hdefinition, hkind.typeOf?_of_mem_idColumns (List.of_mem_zip hpair).1,
      Option.some.injEq] at htype
    exact ColumnType.eq_of_bind_text (htype ▸ hbind)

/-- A row is under the key of some values for the id columns if it has these values there. -/
theorem key_eq_iff {values : List Value} (hlength : values.length = kind.idColumns.length)
    {key : RowKey} (hkey : table.keyOf (.ofList (kind.idColumns.zip values)) = .ok key)
    {entry : RowKey × StoredRow} (hentry : entry.2.Coherent table.definition entry.1) :
    entry.1 = key ↔ kind.idColumns.map entry.2.valueOf = values := by
  have hfound := ColumnValues.map_find?_ofList_zip kind.idColumns_distinct.1 hlength
  have hvalues : kind.idColumns.map
      (StoredRow.valueOf ⟨.ofList (kind.idColumns.zip values), false⟩) = values := by
    have hdefault := congrArg (List.map fun value? : Option Value => value?.getD .null) hfound
    rw [List.map_map, List.map_map] at hdefault
    exact hdefault.trans (List.map_id values)
  have hnew : key = StoredRow.keyIn table.definition
      ⟨.ofList (kind.idColumns.zip values), false⟩ := by
    refine StoredRow.eq_keyIn_of_keyOf hkey fun column value hvalue => ?_
    rw [StoredRow.valueOf, hvalue, Option.getD_some]
  rw [hentry.key_eq, hnew, hdefinition, hkind.keyIn_eq_iff, hvalues]

/-- The update by the values for the id columns makes the change and no other. -/
theorem changes_of_update (change : PropertyChange) {statements : Statement → Prop}
    (hcoherent : table.Coherent) (horiginates : table.Originates statements) {name : String}
    {m : TextMap} {values : List Value} (hlength : values.length = kind.idColumns.length)
    {reached : StoredTable} (h : table.update
      ⟨name, [change.assignment m], equalities (kind.idColumns.zip values)⟩ = .ok reached) :
    ∃ key old after,
      change.Changes m kind values table reached key old (change.apply m old) after := by
  obtain ⟨bound, key, changes, cells, haddressed, hcells, hrewrites⟩ :=
    hcoherent.rewrites_of_update h
  have hkept : (table.startOf key bound).cells.KeptIn table.definition :=
    StoredTable.keptIn_of_addressed hcoherent horiginates haddressed
  obtain ⟨hbind, hkey, hassigned⟩ := StoredTable.addressed_eq_ok_iff.mp haddressed
  obtain rfl := eq_of_bindEqualities hkind hdefinition hbind
  rw [assignedColumns_eq hkind hdefinition, Except.ok.injEq] at hassigned
  subst hassigned
  rw [StoredTable.assignCells_cons] at hcells
  obtain ⟨kept, hcell, hcells⟩ := bind_ok_iff.mp hcells
  cases hcells
  have htype := hkind.properties_declared.1
  rw [← hdefinition] at htype
  obtain ⟨old, hold, rfl⟩ := change.map_of_cellAfter
    (fun value => hkept .properties .textMap value htype) hcell
  refine ⟨key, old, _, hrewrites, fun entry hentry => ?_, change.find?_apply m old, ?_, ?_, ?_⟩
  · have hentry : entry.2.Coherent table.definition entry.1 := by
      obtain hentry | hentry := hentry
      · exact hcoherent.rows entry hentry
      · have hrow := (hcoherent.update h).rows entry hentry
        rwa [hrewrites.frame] at hrow
    exact key_eq_iff hkind hdefinition hlength hkey hentry
  · rw [ColumnValues.find?_keep, if_pos rfl]
  · intro row hrow
    rw [hcoherent.startOf_of_mem hrow] at hold ⊢
    refine ⟨hold, rfl, fun column hne => ?_⟩
    rw [ColumnValues.find?_keep, if_neg hne]
  · intro hnew
    have hstorable := StoredTable.storable_of_keyOf
      (StoredTable.bindEqualities_fits hbind) hkey
    rw [hcoherent.startOf_of_not_mem hstorable hnew] at hold hrewrites ⊢
    refine ⟨?_, rfl, ?_, fun column hcolumn hne => ?_, ?_⟩
    · rw [ColumnValues.find?_ofList_zip_of_not_mem hkind.properties_not_mem_idColumns] at hold
      obtain ⟨-, hempty⟩ | hsome := hold
      · exact hempty
      · cases hsome
    · rw [← ColumnValues.map_find?_ofList_zip kind.idColumns_distinct.1 hlength]
      refine List.map_congr_left fun column hcolumn => ?_
      rw [ColumnValues.find?_keep, if_neg]
      rintro rfl
      exact hkind.properties_not_mem_idColumns hcolumn
    · rw [ColumnValues.find?_keep, if_neg hne,
        ColumnValues.find?_ofList_zip_of_not_mem hcolumn]
    · rw [hrewrites.row, hdefinition, lasting_new_iff hkind]
      simp

end Store

/-- A map of pairs added to the properties of a vertex or an edge, or its keys taken out of them. In
every reachable cluster that keeps the table, and on a session that has nothing staged, an entry with
properties beside its id columns is accepted exactly if it addresses a row, by an identifier that
decodes or without one by its id columns. If the update is then committed it changes the properties
of that row key by key, creates the row if some are left to it, takes it out if it was never written
whole and has no other cell outside its key, and leaves every other cell, row and table as it was. -/
theorem changes_properties_only (change : PropertyChange) (table : GraphTable)
    (hkind : table.kind.HasProperties) (c : Connection) (hreach : c.cluster.Reachable)
    (hkeeps : c.cluster.Keeps c.session.keyspace table.kind) (hbatch : c.session.batch = [])
    (row : EntryRow) (m : TextMap) (hdata : table.dataColumns row = [(.properties, .map m)]) :
    ((∃ staged, change.run table row c = (.ok (), staged)) ↔
      ∃ values, row.Addresses table.kind values) ∧
    ∀ (values : List Value) (staged after : Connection) (n : Nat),
      row.Addresses table.kind values → change.run table row c = (.ok (), staged) →
      staged.commit = (.ok n, after) →
      ∃ before reached key old new result,
        c.cluster.table c.session.keyspace table.name = .ok before ∧
        after.cluster.table c.session.keyspace table.name = .ok reached ∧
        change.Changes m table.kind values before reached key old new result ∧
        ∀ keyspace name, (keyspace, name) ≠ (c.session.keyspace, table.name) →
          after.cluster.table keyspace name = c.cluster.table keyspace name := by
  constructor
  · constructor
    · rintro ⟨staged, hrun⟩
      obtain ⟨values, haddresses, -⟩ := (change.run_eq_ok_iff hkind hdata).mp hrun
      exact ⟨values, haddresses⟩
    · rintro ⟨values, haddresses⟩
      exact ⟨_, (change.run_eq_ok_iff hkind hdata).mpr ⟨values, haddresses, rfl⟩⟩
  · intro values staged after n haddresses hrun hcommit
    rw [(change.run_eq_ok_iff hkind hdata).mpr ⟨values, haddresses, rfl⟩, Prod.mk.injEq] at hrun
    rw [← hrun.2] at hcommit
    obtain ⟨before, reached, hbefore, happly, -, hreached, hothers⟩ :=
      Connection.apply_of_commit_add hbatch hcommit
    obtain ⟨stored, hstored, hdefinition⟩ := hkeeps
    obtain rfl : before = stored := Except.ok.inj (hbefore.symm.trans hstored)
    have hcoherent := hreach.coherent hbefore
    obtain ⟨requests, hcluster⟩ := hreach
    rw [← hcluster] at hstored
    obtain ⟨key, old, result, hchanges⟩ := change.changes_of_update hkind hdefinition hcoherent
      (CommitLog.originates_run requests hstored) haddresses.length_eq happly
    exact ⟨before, reached, key, old, _, result, hbefore, hreached, hchanges, hothers⟩

/-- A session writes a vertex with its age and creates the table of edges. -/
def writeAged : List (String × Request) :=
  StoredTable.writeAge ++ [("writer", .changeSchema ElementKind.edge.layout.createTable)]

/-- A fresh connection to the vertex and to the table of edges. -/
def toAged : Connection :=
  ⟨(World.run {} writeAged).cluster, { keyspace := "graph" }⟩

/-- The vertex as it is stored. -/
def agedVertex : StoredRow where
  cells := .ofList [(.id, .text "1"), (.label, .text "person"),
    (.properties, .map (.ofList [("age", "27")]))]
  inserted := true

/-- The vertex with another age. -/
def otherAge : EntryRow where
  kind := .vertex
  id := some ⟨"1"⟩
  columns := .ofList [(.properties, .map (.ofList [("age", "0")]))]

/-- An outgoing edge of the vertex with a year. -/
def sinceYear : EntryRow where
  kind := .edge
  id := some (.splice ["1", "knows", "", "2"])
  columns := .ofList [(.properties, .map (.ofList [("since", "2020")]))]

/-- The vertex loses its age when another one is eliminated, and stays without properties since it
was written whole. The edge is there with the year when this is appended. -/
theorem changes_properties_only_aged :
    (∃ staged after reached entry,
      GraphTable.eliminate ⟨.vertex, {}⟩ otherAge toAged = (.ok (), staged) ∧
      staged.commit = (.ok 1, after) ∧ after.cluster.table "graph" "vertices" = .ok reached ∧
      entry ∈ reached.rows ∧ entry.2.cells.find? .label = some (.text "person") ∧
      entry.2.cells.find? .properties = none) ∧
    ∃ staged after reached entry,
      GraphTable.append ⟨.edge, {}⟩ sinceYear toAged = (.ok (), staged) ∧
      staged.commit = (.ok 1, after) ∧ after.cluster.table "graph" "edges" = .ok reached ∧
      entry ∈ reached.rows ∧ entry.2.cells.find? .direction = some (.text "OUT") ∧
      entry.2.cells.find? .properties = some (.map (.ofList [("since", "2020")])) := by
  have hkeepsVertex : toAged.cluster.Keeps "graph" .vertex :=
    Cluster.keeps_iff.mpr (by decide +kernel)
  have hkeepsEdge : toAged.cluster.Keeps "graph" .edge :=
    Cluster.keeps_iff.mpr (by decide +kernel)
  have hvertices : (toAged.cluster.table "graph" "vertices").toOption.map
      (fun table => table.rows.map (·.2)) = some [agedVertex] := by decide +kernel
  have hedges : (toAged.cluster.table "graph" "edges").toOption.map (·.rows) = some [] := by
    decide +kernel
  constructor
  · have hcount : ((PropertyChange.eliminate.run ⟨.vertex, {}⟩ otherAge toAged).2.commit).1 =
        .ok 1 := by decide +kernel
    obtain ⟨haccepted, hchange⟩ := changes_properties_only .eliminate ⟨.vertex, {}⟩ (.inl rfl)
      toAged ⟨writeAged, rfl⟩ hkeepsVertex rfl otherAge (.ofList [("age", "0")])
      (by decide +kernel)
    have haddresses : otherAge.Addresses .vertex [.text "1"] := .vertex rfl
    obtain ⟨staged, hrun⟩ := haccepted.mpr ⟨_, haddresses⟩
    rw [hrun] at hcount
    obtain ⟨before, reached, key, old, new, result, hbefore, hreached, hchanges, -⟩ :=
      hchange _ staged _ 1 haddresses hrun (Prod.ext hcount rfl)
    obtain ⟨found, hfound, hrows⟩ := exists_ok_of_map_toOption hvertices
    obtain rfl : before = found := Except.ok.inj (hbefore.symm.trans hfound)
    obtain ⟨⟨found, row⟩, hentry, rfl⟩ := List.map_eq_singleton_iff.mp hrows
    have hmem : (found, agedVertex) ∈ before.rows := by
      rw [hentry]
      exact List.mem_singleton_self _
    have hvalues : ElementKind.vertex.idColumns.map agedVertex.valueOf = [.text "1"] := by
      decide +kernel
    obtain rfl : found = key := (hchanges.addressed _ (.inl hmem)).mpr hvalues
    obtain ⟨hold, hmark, hcells⟩ := hchanges.present agedVertex hmem
    have hcell : agedVertex.cells.find? .properties = some (.map (.ofList [("age", "27")])) := by
      decide +kernel
    rw [hcell] at hold
    obtain ⟨hmissing, -⟩ | hsome := hold
    · cases hmissing
    rw [Option.some.injEq, Value.map.injEq] at hsome
    have hempty : new = .empty := by
      have happly : PropertyChange.eliminate.apply (.ofList [("age", "0")])
          (.ofList [("age", "27")]) = .empty := by decide +kernel
      rw [← happly]
      refine TextMap.eq_of_find? fun text => ?_
      rw [hchanges.pairs, ← hsome, find?_apply]
    refine ⟨staged, _, reached, (found, result), hrun, Prod.ext hcount rfl, hreached,
      (hchanges.rewrites.row result).mpr ⟨rfl, .inl hmark⟩, ?_, ?_⟩
    · rw [hcells .label (by decide)]
      decide +kernel
    · rw [hchanges.cell, hempty]
      rfl
  · have hcount : ((PropertyChange.append.run ⟨.edge, {}⟩ sinceYear toAged).2.commit).1 =
        .ok 1 := by decide +kernel
    obtain ⟨haccepted, hchange⟩ := changes_properties_only .append ⟨.edge, {}⟩ (.inr rfl)
      toAged ⟨writeAged, rfl⟩ hkeepsEdge rfl sinceYear (.ofList [("since", "2020")])
      (by decide +kernel)
    have haddresses : sinceYear.Addresses .edge
        [.text "1", .text "OUT", .text "knows", .text "", .text "2"] :=
      .outgoingEdge rfl (Identifier.split_splice_cons _ _)
    obtain ⟨staged, hrun⟩ := haccepted.mpr ⟨_, haddresses⟩
    rw [hrun] at hcount
    obtain ⟨before, reached, key, old, new, result, hbefore, hreached, hchanges, -⟩ :=
      hchange _ staged _ 1 haddresses hrun (Prod.ext hcount rfl)
    obtain ⟨found, hfound, hnone⟩ := exists_ok_of_map_toOption hedges
    obtain rfl : before = found := Except.ok.inj (hbefore.symm.trans hfound)
    obtain ⟨hold, -, hvalues, -, hthere⟩ := hchanges.absent (by simp [hnone])
    have hnew : new = .ofList [("since", "2020")] := by
      refine TextMap.eq_of_find? fun text => ?_
      rw [hchanges.pairs, hold]
      exact Option.or_none
    subst hnew
    refine ⟨staged, _, reached, (key, result), hrun, Prod.ext hcount rfl, hreached,
      hthere.mpr (by decide +kernel), ?_, ?_⟩
    · exact (List.cons.inj (List.cons.inj hvalues).2).1
    · rw [hchanges.cell]
      decide +kernel

end PropertyChange

end GraphTable

end WideGraph
