import WideGraph.GraphTable.Writing
import WideGraph.Proofs.GraphTable.IndexMap
import WideGraph.Proofs.Store.Coherence

/-!
# Index rows

An index table keeps a map if its rows are those of the keys that have a set, one row for each such
key. An update of the element identifiers of a key then changes the set of that key as its
assignment does, where a row that is not there stands for the empty set. A delete of a key takes its
set away.
-/

namespace WideGraph

namespace IndexKey

/-- A key is in the form in which an index keeps it. -/
def Bound (kind : ElementKind) (key : IndexKey) : Prop :=
  kind.boundKey? (key.fieldValues, key.label) = some key

/-- The values of the key columns. -/
def columns (key : IndexKey) : ColumnValues :=
  (ColumnValues.empty.set .fieldValues key.fieldValues).set .indexLabelName key.label

/-- The cells of the row of a key: its field values, its label and its set unless that is empty. -/
def cells (key : IndexKey) (ids : TextSet) : ColumnValues :=
  if ids.isEmpty then key.columns else key.columns.set .elementIds (.set ids)

/-- The place of the row of a key. The search index keeps a label in one partition, the secondary
index field values. -/
def rowKey (kind : ElementKind) (key : IndexKey) : RowKey :=
  match kind with
  | .searchIndex => ⟨partitionToken [key.label], [key.label], [key.fieldValues]⟩
  | _ => ⟨partitionToken [key.fieldValues], [key.fieldValues], [key.label]⟩

/-- Rows of different keys have different places. -/
theorem rowKey_injective (kind : ElementKind) : Function.Injective (rowKey kind) := by
  rintro ⟨fieldValues, label⟩ ⟨fieldValues', label'⟩ h
  cases kind <;> simp_all [rowKey]

/-- The parts of a kept key were bound to the types of their columns. -/
theorem bound_iff {kind : ElementKind} {key : IndexKey} :
    key.Bound kind ↔ kind.fieldType.bind key.fieldValues = .ok key.fieldValues ∧
      ColumnType.text.bind key.label = .ok key.label := by
  obtain ⟨fieldValues, label⟩ := key
  rw [Bound, ElementKind.boundKey?]
  cases kind.fieldType.bind fieldValues with
  | error e => simp
  | ok value => cases ColumnType.text.bind label <;> simp

/-- A key that was made by binding is in the form in which it is kept. -/
theorem bound_of_boundKey? {kind : ElementKind} {stated : Value × Value} {key : IndexKey}
    (h : kind.boundKey? stated = some key) : key.Bound kind := by
  rw [ElementKind.boundKey?] at h
  split at h
  · rename_i fieldValues label hvalues hlabel
    cases h
    exact bound_iff.mpr ⟨ColumnType.bind_bound hvalues, ColumnType.bind_bound hlabel⟩
  · cases h

/-- The place of the row of a kept key is storable. -/
theorem Bound.storable {kind : ElementKind} {key : IndexKey} (h : key.Bound kind) :
    (key.rowKey kind).Storable := by
  obtain ⟨hvalues, hlabel⟩ := bound_iff.mp h
  have hvaluesStorable := ColumnType.storable_of_bind hvalues
  have hlabelStorable := ColumnType.storable_of_bind hlabel
  cases kind <;> simp_all [rowKey, RowKey.Storable, Value.AllStorable]

@[simp] theorem find?_cells_fieldValues (key : IndexKey) (ids : TextSet) :
    (key.cells ids).find? .fieldValues = some key.fieldValues := by
  rw [cells]
  split <;> simp [columns]

@[simp] theorem find?_cells_indexLabelName (key : IndexKey) (ids : TextSet) :
    (key.cells ids).find? .indexLabelName = some key.label := by
  rw [cells]
  split <;> simp [columns]

@[simp] theorem find?_cells_elementIds (key : IndexKey) (ids : TextSet) :
    (key.cells ids).find? .elementIds = (Value.set ids).collectionCell := by
  rw [cells, Value.collectionCell]
  split <;> simp [columns]

/-- The row of a kept key has the cells of another one if they are the same key. -/
theorem hasCells_columns {kind : ElementKind} {key other : IndexKey} (hkey : key.Bound kind)
    (hother : other.Bound kind) {ids : TextSet} :
    StoredTable.hasCells ⟨other.cells ids, false⟩ key.columns = true ↔ other = key := by
  obtain ⟨hvalues, hlabel⟩ := bound_iff.mp hkey
  obtain ⟨hvalues', hlabel'⟩ := bound_iff.mp hother
  have hbindings : key.columns.bindings =
      [(.fieldValues, key.fieldValues), (.indexLabelName, key.label)] := rfl
  rw [StoredTable.hasCells, hbindings]
  simp only [List.all_cons, List.all_nil, Bool.and_true, find?_cells_fieldValues,
    find?_cells_indexLabelName, Option.any_some, Bool.and_eq_true,
    Value.same_iff (ColumnType.storable_of_bind hvalues') (ColumnType.storable_of_bind hvalues),
    Value.same_iff (ColumnType.storable_of_bind hlabel') (ColumnType.storable_of_bind hlabel)]
  obtain ⟨fieldValues, label⟩ := key
  obtain ⟨fieldValues', label'⟩ := other
  exact (IndexKey.mk.injEq _ _ _ _).symm.to_iff

end IndexKey

/-- A set of texts is empty if it is the empty set. -/
theorem TextSet.eq_empty_of_isEmpty {s : TextSet} (h : s.isEmpty = true) : s = empty :=
  toFinset_injective (isEmpty_iff.mp h)

/-- Every finite set of texts is kept as some set. -/
theorem TextSet.exists_toFinset_eq (texts : Finset String) : ∃ s : TextSet, s.toFinset = texts :=
  ⟨ofList texts.toList, by rw [toFinset_ofList, Finset.toList_toFinset]⟩

namespace Assignment

/-- An assignment makes of every set of texts the one that a function gives. -/
def Maps (assignment : Assignment) (f : Finset String → Finset String) : Prop :=
  ∀ ids : TextSet, ∃ after : TextSet,
    assignment.cellAfter .textSet (Value.set ids).collectionCell =
      .ok (Value.set after).collectionCell ∧ after.toFinset = f ids.toFinset

/-- An assignment is refused whatever set it is to change. -/
def Refused (assignment : Assignment) : Prop :=
  ∀ ids : TextSet, ∃ e,
    assignment.cellAfter .textSet (Value.set ids).collectionCell = .error e

/-- A cell is read as the set that it keeps. -/
theorem collectionOf_collectionCell (ids : TextSet) :
    ColumnType.textSet.collectionOf (Value.set ids).collectionCell = .ok (.set ids) := by
  rw [Value.collectionCell]
  split
  · rename_i hempty
    rw [TextSet.eq_empty_of_isEmpty hempty]
    rfl
  · rfl

/-- An assignment that gives a set of texts for each leaves the cell of that. -/
theorem maps_of_applyTo {assignment : Assignment} {f : Finset String → Finset String}
    (h : ∀ ids : TextSet, ∃ after : TextSet,
      assignment.applyTo .textSet (.set ids) = .ok (.set after) ∧
        after.toFinset = f ids.toFinset) : assignment.Maps f := by
  intro ids
  obtain ⟨after, happly, hafter⟩ := h ids
  refine ⟨after, ?_, hafter⟩
  rw [cellAfter, collectionOf_collectionCell]
  simp [bind, Except.bind, happly]

/-- Appending adds the texts of a value. -/
theorem maps_append (column : String) {value : Value} {texts : Finset String}
    (h : value.addedTexts? = some texts) :
    (append column (GraphTable.addition value)).Maps (· ∪ texts) := by
  apply maps_of_applyTo
  intro ids
  have hset : ∀ s : TextSet, s.toFinset = texts → ∃ after : TextSet,
      (append column (.set s)).applyTo .textSet (.set ids) = .ok (.set after) ∧
        after.toFinset = ids.toFinset ∪ texts := by
    rintro s rfl
    exact ⟨ids.union s, rfl, TextSet.toFinset_union ids s⟩
  cases value with
  | map m => cases h
  | set s =>
    cases h
    exact hset s rfl
  | list items =>
    cases h
    exact hset _ (TextSet.toFinset_ofList _)
  | _ =>
    cases h
    exact hset _ (TextSet.toFinset_ofList _)

/-- A map cannot be appended to a set. -/
theorem refused_append (column : String) {value : Value} (h : value.addedTexts? = none) :
    (append column (GraphTable.addition value)).Refused := by
  intro ids
  cases value with
  | map m =>
    rw [cellAfter, collectionOf_collectionCell]
    exact ⟨_, rfl⟩
  | _ => cases h

/-- Eliminating takes the texts of a value out. -/
theorem maps_removal (column : String) (value : Value) :
    (GraphTable.removal column value).Maps (· \ value.texts) := by
  apply maps_of_applyTo
  intro ids
  have hset : ∀ s : TextSet, ∃ after : TextSet,
      (removeAll column (.set s)).applyTo .textSet (.set ids) = .ok (.set after) ∧
        after.toFinset = ids.toFinset \ s.toFinset := by
    intro s
    exact ⟨ids.diff s, rfl, TextSet.toFinset_diff ids s⟩
  cases value with
  | set s => exact hset s
  | map m =>
    have hkeys := hset m.keySet
    rwa [TextMap.keySet, TextSet.toFinset_ofList] at hkeys
  | list items =>
    have hitems := hset (.ofList (items.map Value.plain))
    rwa [TextSet.toFinset_ofList] at hitems
  | _ => exact ⟨_, rfl, TextSet.toFinset_erase ids _⟩

end Assignment

/-- The id columns of a kind with the field values and the label that an entry states. -/
def ElementKind.keyPairs (kind : ElementKind) (stated : Value × Value) : List (Column × Value) :=
  kind.idColumns.map fun column => (column, if column = .fieldValues then stated.1 else stated.2)

namespace ElementKind

variable {kind : ElementKind}

/-- There are two kinds of indexes. -/
theorem eq_of_isIndex (h : kind.isIndex = true) : kind = .secondaryIndex ∨ kind = .searchIndex := by
  cases kind <;> first | exact .inl rfl | exact .inr rfl | cases h

/-- Field values are kept in the type of the kind. -/
theorem resolve_fieldValues (hkind : kind.isIndex = true) :
    kind.layout.resolve Column.fieldValues.nativeName = .ok (.fieldValues, kind.fieldType) := by
  obtain rfl | rfl := eq_of_isIndex hkind <;> decide

/-- A label is kept as a text. -/
theorem resolve_indexLabelName (hkind : kind.isIndex = true) :
    kind.layout.resolve Column.indexLabelName.nativeName = .ok (.indexLabelName, .text) := by
  obtain rfl | rfl := eq_of_isIndex hkind <;> decide

/-- Element identifiers are kept as a set of texts. -/
theorem resolve_elementIds (hkind : kind.isIndex = true) :
    kind.layout.resolve Column.elementIds.nativeName = .ok (.elementIds, .textSet) := by
  obtain rfl | rfl := eq_of_isIndex hkind <;> decide

/-- Of the columns of an index only the element identifiers are outside its key. -/
theorem isPrimaryKey_iff (hkind : kind.isIndex = true) (column : Column) :
    kind.layout.isPrimaryKey column = true ↔ column = .fieldValues ∨ column = .indexLabelName := by
  obtain rfl | rfl := eq_of_isIndex hkind <;> cases column <;> decide

/-- Field values are bound to the type of the kind. -/
theorem bind_fieldValues (hkind : kind.isIndex = true) (value : Value) :
    kind.layout.bind Column.fieldValues.nativeName value =
      (kind.fieldType.bind value).map (Column.fieldValues, ·) := by
  rw [TableDefinition.bind, resolve_fieldValues hkind]
  rfl

/-- A label is bound to a text. -/
theorem bind_indexLabelName (hkind : kind.isIndex = true) (value : Value) :
    kind.layout.bind Column.indexLabelName.nativeName value =
      (ColumnType.text.bind value).map (Column.indexLabelName, ·) := by
  rw [TableDefinition.bind, resolve_indexLabelName hkind]
  rfl

end ElementKind

namespace StoredTable

variable {kind : ElementKind} {stored : StoredTable}

/-- Field values and a label are bound one after the other, in either order. -/
theorem bindEqualities_stated (hkind : kind.isIndex = true)
    (hdefinition : stored.definition = kind.layout) (otherwise : StoreError)
    {stated : Value × Value} {key : IndexKey} (h : kind.boundKey? stated = some key) :
    stored.bindEqualities otherwise .empty (GraphTable.equalities
        [(.fieldValues, stated.1), (.indexLabelName, stated.2)]) = .ok key.columns ∧
      stored.bindEqualities otherwise .empty (GraphTable.equalities
        [(.indexLabelName, stated.2), (.fieldValues, stated.1)]) = .ok key.columns := by
  have hvalues := ElementKind.bind_fieldValues hkind stated.1
  have hlabel := ElementKind.bind_indexLabelName hkind stated.2
  rw [ElementKind.boundKey?] at h
  split at h
  · rename_i values label hvaluesBound hlabelBound
    cases h
    rw [hvaluesBound, ← hdefinition] at hvalues
    rw [hlabelBound, ← hdefinition] at hlabel
    constructor
    · simp only [GraphTable.equalities, Clause.eq, List.map_cons, List.map_nil, bindEqualities,
        hvalues, hlabel, Except.map]
      rfl
    · simp only [GraphTable.equalities, Clause.eq, List.map_cons, List.map_nil, bindEqualities,
        hvalues, hlabel, Except.map]
      rfl
  · cases h

/-- What an entry states is bound to the key columns. -/
theorem bindEqualities_keyPairs (hkind : kind.isIndex = true)
    (hdefinition : stored.definition = kind.layout) (otherwise : StoreError)
    {stated : Value × Value} {key : IndexKey} (h : kind.boundKey? stated = some key) :
    stored.bindEqualities otherwise .empty (GraphTable.equalities (kind.keyPairs stated)) =
      .ok key.columns := by
  obtain ⟨hforward, hbackward⟩ := bindEqualities_stated hkind hdefinition otherwise h
  obtain rfl | rfl := ElementKind.eq_of_isIndex hkind
  · exact hforward
  · exact hbackward

/-- What cannot be bound to the key columns is refused. -/
theorem bindEqualities_refused (hkind : kind.isIndex = true)
    (hdefinition : stored.definition = kind.layout) (otherwise : StoreError)
    {stated : Value × Value} (h : kind.boundKey? stated = none) :
    ∃ e, stored.bindEqualities otherwise .empty (GraphTable.equalities (kind.keyPairs stated)) =
      .error e := by
  have hvalues := ElementKind.bind_fieldValues hkind stated.1
  have hlabel := ElementKind.bind_indexLabelName hkind stated.2
  rw [← hdefinition] at hvalues hlabel
  have hfails : (∃ e, kind.fieldType.bind stated.1 = .error e) ∨
      ∃ e, ColumnType.text.bind stated.2 = .error e := by
    rw [ElementKind.boundKey?] at h
    cases hvaluesBound : kind.fieldType.bind stated.1 with
    | error e => exact .inl ⟨e, rfl⟩
    | ok values =>
      cases hlabelBound : ColumnType.text.bind stated.2 with
      | error e => exact .inr ⟨e, rfl⟩
      | ok label => simp [hvaluesBound, hlabelBound] at h
  -- The first of the two that fails depends on the order in which the kind names its columns.
  obtain rfl | rfl := ElementKind.eq_of_isIndex hkind
  · change ∃ e, stored.bindEqualities otherwise .empty
      [Clause.eq _ stated.1, Clause.eq _ stated.2] = .error e
    simp only [Clause.eq, bindEqualities, hvalues, hlabel]
    obtain ⟨e, he⟩ | ⟨e, he⟩ := hfails
    · exact ⟨e, by rw [he]; rfl⟩
    · rw [he]
      cases ElementKind.secondaryIndex.fieldType.bind stated.1 <;> exact ⟨_, rfl⟩
  · change ∃ e, stored.bindEqualities otherwise .empty
      [Clause.eq _ stated.2, Clause.eq _ stated.1] = .error e
    simp only [Clause.eq, bindEqualities, hvalues, hlabel]
    obtain ⟨e, he⟩ | ⟨e, he⟩ := hfails
    · rw [he]
      cases ColumnType.text.bind stated.2 <;> exact ⟨_, rfl⟩
    · exact ⟨e, by rw [he]; rfl⟩

/-- The key columns make the place of the row. -/
theorem keyOf_columns (hkind : kind.isIndex = true) (hdefinition : stored.definition = kind.layout)
    (key : IndexKey) : stored.keyOf key.columns = .ok (key.rowKey kind) := by
  rw [keyOf, hdefinition]
  obtain rfl | rfl := ElementKind.eq_of_isIndex hkind <;> rfl

/-- A table keeps a map: it has a row for every key with a set, with that set in it, and no other
row. -/
structure KeepsIndex (kind : ElementKind) (stored : StoredTable) (map : IndexMap) : Prop where
  definition : stored.definition = kind.layout
  increasing : Increasing stored.rows
  bound : ∀ key, (map key).Nonempty → key.Bound kind
  mem_iff : ∀ entry, entry ∈ stored.rows ↔ ∃ key ids, (map key).Nonempty ∧
    ids.toFinset = map key ∧ entry = (key.rowKey kind, ⟨key.cells ids, false⟩)

/-- A table without rows keeps the map in which every key has the empty set. -/
theorem keepsIndex_of_no_rows (hdefinition : stored.definition = kind.layout)
    (hrows : stored.rows = []) : stored.KeepsIndex kind fun _ => ∅ where
  definition := hdefinition
  increasing := by
    rw [hrows]
    exact List.Pairwise.nil
  bound key h := absurd h Finset.not_nonempty_empty
  mem_iff entry := by simp [hrows]

namespace KeepsIndex

variable {map : IndexMap}

/-- The places of the rows are storable. -/
theorem keysSatisfy (h : stored.KeepsIndex kind map) :
    Bindings.KeysSatisfy RowKey.Storable stored.rows := by
  intro entry hentry
  obtain ⟨key, ids, hset, -, rfl⟩ := (h.mem_iff entry).mp hentry
  exact (h.bound key hset).storable

/-- A kept key has a row, with its set in it, unless its set is empty. -/
theorem find?_rowKey (h : stored.KeepsIndex kind map) {key : IndexKey} (hkey : key.Bound kind)
    {ids : TextSet} (hids : ids.toFinset = map key) :
    Bindings.find? (key.rowKey kind) stored.rows =
      if ids.isEmpty then none else some ⟨key.cells ids, false⟩ := by
  have hfind := Bindings.find?_eq_some_iff_mem RowKey.compare_lawfulOn h.increasing h.keysSatisfy
    hkey.storable
  split
  · rename_i hempty
    rw [TextSet.isEmpty_iff, hids] at hempty
    rw [Option.eq_none_iff_forall_ne_some]
    intro row hrow
    obtain ⟨other, found, hset, -, heq⟩ := (h.mem_iff _).mp ((hfind row).mp hrow)
    have hother : key = other := IndexKey.rowKey_injective kind (congrArg Prod.fst heq)
    rw [← hother, hempty] at hset
    exact Finset.not_nonempty_empty hset
  · rename_i hfull
    have hset : (map key).Nonempty := by
      rw [Finset.nonempty_iff_ne_empty, ← hids]
      exact fun hempty => hfull (TextSet.isEmpty_iff.mpr hempty)
    exact (hfind _).mpr ((h.mem_iff _).mpr ⟨key, ids, hset, hids, rfl⟩)

/-- A table keeps the map in which one key has another set if its rows are the new one of that key,
should the set not be empty, and those of other keys. -/
theorem of_mem_iff (h : stored.KeepsIndex kind map) {key : IndexKey} (hkey : key.Bound kind)
    (ids : TextSet) {rows : List (RowKey × StoredRow)} (hincreasing : Increasing rows)
    (hrows : ∀ entry, entry ∈ rows ↔
      (¬ ids.isEmpty = true ∧ entry = (key.rowKey kind, ⟨key.cells ids, false⟩)) ∨
        entry ∈ stored.rows ∧ entry.1 ≠ key.rowKey kind) :
    KeepsIndex kind { stored with rows } (Function.update map key ids.toFinset) where
  definition := h.definition
  increasing := hincreasing
  bound other hother := by
    by_cases heq : other = key
    · rwa [heq]
    · rw [Function.update_of_ne heq] at hother
      exact h.bound other hother
  mem_iff entry := by
    have hfull : ¬ ids.isEmpty = true ↔ ids.toFinset.Nonempty := by
      rw [TextSet.isEmpty_iff, Finset.nonempty_iff_ne_empty]
    rw [hrows, hfull, h.mem_iff]
    constructor
    · rintro (⟨hset, rfl⟩ | ⟨⟨other, found, hset, hfound, rfl⟩, hne⟩)
      · exact ⟨key, ids, by rwa [Function.update_self], by rw [Function.update_self], rfl⟩
      · have hother : other ≠ key := fun heq => hne (by rw [heq])
        exact ⟨other, found, by rwa [Function.update_of_ne hother],
          by rwa [Function.update_of_ne hother], rfl⟩
    · rintro ⟨other, found, hset, hfound, rfl⟩
      by_cases heq : other = key
      · subst heq
        rw [Function.update_self] at hset hfound
        rw [TextSet.toFinset_injective hfound]
        exact .inl ⟨hset, rfl⟩
      · rw [Function.update_of_ne heq] at hset hfound
        exact .inr ⟨⟨other, found, hset, hfound, rfl⟩,
          fun hplace => heq (IndexKey.rowKey_injective kind hplace)⟩

/-- To write the row of a key, or to take it away if the set is empty, gives the key the set. -/
theorem write (h : stored.KeepsIndex kind map) {key : IndexKey} (hkey : key.Bound kind)
    (ids : TextSet) :
    KeepsIndex kind { stored with
      rows := if ids.isEmpty then Bindings.erase (key.rowKey kind) stored.rows
        else Bindings.insert (key.rowKey kind) ⟨key.cells ids, false⟩ stored.rows }
      (Function.update map key ids.toFinset) := by
  have herase := Bindings.mem_erase_iff RowKey.compare_lawfulOn h.keysSatisfy hkey.storable
  have hinsert := Bindings.mem_insert_iff RowKey.compare_lawfulOn h.increasing h.keysSatisfy
    hkey.storable (⟨key.cells ids, false⟩ : StoredRow)
  apply h.of_mem_iff hkey ids
  · split
    · exact Bindings.increasing_filter _ h.increasing
    · exact Bindings.increasing_insert_of_lawfulOn RowKey.compare_lawfulOn h.increasing
        h.keysSatisfy hkey.storable _
  · intro entry
    split
    · rename_i hempty
      rw [herase]
      simp [hempty]
    · rename_i hfull
      rw [hinsert]
      simp [hfull]

/-- A row that is not there is taken for that of the empty set. -/
theorem getD_find?_rowKey (h : stored.KeepsIndex kind map) {key : IndexKey}
    (hkey : key.Bound kind) {ids : TextSet} (hids : ids.toFinset = map key) :
    (Bindings.find? (key.rowKey kind) stored.rows).getD ⟨key.columns, false⟩ =
      ⟨key.cells ids, false⟩ := by
  rw [h.find?_rowKey hkey hids, IndexKey.cells]
  split <;> rfl

end KeepsIndex

/-- An assignment of element identifiers is a change of their column alone. -/
theorem assignedColumns_elementIds (hkind : kind.isIndex = true)
    (hdefinition : stored.definition = kind.layout) {assignment : Assignment}
    (hcolumn : assignment.column = Column.elementIds.nativeName) :
    stored.assignedColumns [assignment] = .ok [(.elementIds, .textSet, assignment)] := by
  have hprimary : kind.layout.isPrimaryKey .elementIds = false := by
    rw [Bool.eq_false_iff, ne_eq, ElementKind.isPrimaryKey_iff hkind]
    decide
  refine assignedColumns_eq_ok_iff.mpr (.cons (assignedColumn_eq_ok_iff.mpr ⟨?_, ?_, rfl⟩) .nil)
  · rw [hdefinition, hcolumn, ElementKind.resolve_elementIds hkind]
  · rw [hdefinition, hprimary]

/-- A row has a cell outside its key if its set is not empty. -/
theorem hasDataCell_cells (hkind : kind.isIndex = true) (hdefinition : stored.definition = kind.layout)
    (key : IndexKey) (ids : TextSet) : stored.hasDataCell (key.cells ids) = !ids.isEmpty := by
  rw [hasDataCell, hdefinition, IndexKey.cells]
  cases ids.isEmpty with
  | true => obtain rfl | rfl := ElementKind.eq_of_isIndex hkind <;> rfl
  | false => obtain rfl | rfl := ElementKind.eq_of_isIndex hkind <;> rfl

/-- The cells of a key after its set has been replaced are those with the other set. -/
theorem assignCells_cells (key : IndexKey) {assignment : Assignment} {ids after : TextSet}
    (h : assignment.cellAfter .textSet (Value.set ids).collectionCell =
      .ok (Value.set after).collectionCell) :
    assignCells (key.cells ids) [(.elementIds, .textSet, assignment)] = .ok (key.cells after) := by
  have hcolumns : ∀ column, column ≠ .elementIds →
      (key.cells ids).find? column = (key.cells after).find? column := by
    intro column hcolumn
    rw [IndexKey.cells, IndexKey.cells]
    split <;> split <;> simp [hcolumn]
  rw [assignCells, IndexKey.find?_cells_elementIds, h]
  have hcell := IndexKey.find?_cells_elementIds key after
  cases hafter : (Value.set after).collectionCell with
  | none =>
    rw [hafter] at hcell
    refine congrArg Except.ok (ColumnValues.eq_of_find? fun column => ?_)
    by_cases heq : column = .elementIds
    · simp [heq, hcell]
    · simp [heq, hcolumns column heq]
  | some value =>
    rw [hafter] at hcell
    refine congrArg Except.ok (ColumnValues.eq_of_find? fun column => ?_)
    by_cases heq : column = .elementIds
    · simp [heq, hafter]
    · simp [heq, hcolumns column heq]

namespace KeepsIndex

variable {map : IndexMap}

/-- An update of a key changes its set as the assignment does. -/
theorem update (h : stored.KeepsIndex kind map) (hkind : kind.isIndex = true) (name : String)
    {assignment : Assignment} (hcolumn : assignment.column = Column.elementIds.nativeName)
    {f : Finset String → Finset String} (hmaps : assignment.Maps f) {stated : Value × Value}
    {key : IndexKey} (hkey : kind.boundKey? stated = some key) :
    ∃ changed, stored.update ⟨name, [assignment], GraphTable.equalities (kind.keyPairs stated)⟩ =
      .ok changed ∧ changed.KeepsIndex kind (Function.update map key (f (map key))) := by
  obtain ⟨ids, hids⟩ := TextSet.exists_toFinset_eq (map key)
  obtain ⟨after, hcell, hafter⟩ := hmaps ids
  have hbound := IndexKey.bound_of_boundKey? hkey
  rw [hids] at hafter
  rw [← hafter]
  refine ⟨_, ?_, h.write hbound after⟩
  simp only [StoredTable.update, bindEqualities_keyPairs hkind h.definition _ hkey,
    keyOf_columns hkind h.definition, assignedColumns_elementIds hkind h.definition hcolumn,
    h.getD_find?_rowKey hbound hids, assignCells_cells key hcell,
    hasDataCell_cells hkind h.definition, bind, Except.bind, Bool.false_or]
  cases after.isEmpty <;> rfl

/-- An update is refused if its key cannot be bound or its assignment is refused. -/
theorem update_refused (h : stored.KeepsIndex kind map) (hkind : kind.isIndex = true)
    (name : String) {assignment : Assignment}
    (hcolumn : assignment.column = Column.elementIds.nativeName) {stated : Value × Value}
    (hrefused : kind.boundKey? stated = none ∨ assignment.Refused) :
    ∃ e, stored.update ⟨name, [assignment], GraphTable.equalities (kind.keyPairs stated)⟩ =
      .error e := by
  cases hkey : kind.boundKey? stated with
  | none =>
    obtain ⟨e, he⟩ := bindEqualities_refused hkind h.definition .updateNotByEquality hkey
    exact ⟨e, by simp only [StoredTable.update, he, bind, Except.bind]⟩
  | some key =>
    obtain ⟨ids, hids⟩ := TextSet.exists_toFinset_eq (map key)
    have hrefuses : assignment.Refused := by
      rw [hkey] at hrefused
      exact hrefused.resolve_left (by simp)
    obtain ⟨e, he⟩ := hrefuses ids
    refine ⟨e, ?_⟩
    simp only [StoredTable.update, bindEqualities_keyPairs hkind h.definition _ hkey,
      keyOf_columns hkind h.definition, assignedColumns_elementIds hkind h.definition hcolumn,
      h.getD_find?_rowKey (IndexKey.bound_of_boundKey? hkey) hids, bind, Except.bind, assignCells,
      IndexKey.find?_cells_elementIds, he]

/-- A delete of a key takes its set away. -/
theorem delete (h : stored.KeepsIndex kind map) (hkind : kind.isIndex = true) (name : String)
    {key : IndexKey} (hkey : key.Bound kind) :
    ∃ changed, stored.delete ⟨name, GraphTable.equalities
        [(.fieldValues, key.fieldValues), (.indexLabelName, key.label)]⟩ = .ok changed ∧
      changed.KeepsIndex kind (Function.update map key ∅) := by
  have hcells : ∀ entry ∈ stored.rows,
      hasCells entry.2 key.columns = true ↔ entry.1 = key.rowKey kind := by
    intro entry hentry
    obtain ⟨other, ids, hset, -, rfl⟩ := (h.mem_iff entry).mp hentry
    rw [IndexKey.hasCells_columns hkey (h.bound other hset)]
    exact (IndexKey.rowKey_injective kind).eq_iff.symm
  refine ⟨_, delete_eq_ok_iff.mpr
    ⟨key.columns, (bindEqualities_stated hkind h.definition _ hkey).1, rfl, rfl⟩, ?_⟩
  apply h.of_mem_iff hkey .empty
  · exact Bindings.increasing_filter _ h.increasing
  · intro entry
    have hempty : TextSet.empty.isEmpty = true := rfl
    rw [List.mem_filter, hempty]
    simp only [not_true_eq_false, false_and, false_or, Bool.not_eq_true']
    refine and_congr_right fun hentry => ?_
    rw [← Bool.not_eq_true, hcells entry hentry]

end KeepsIndex

end StoredTable

end WideGraph
