import Mathlib.Data.List.Perm.Basic
import WideGraph.Entry
import WideGraph.Proofs.ColumnValues
import WideGraph.Proofs.FirstFault
import WideGraph.Proofs.Text.LetterCase

/-!
# Columns under their names

An entry is listed with its columns under their native names, and a row is read back under names
in any letter case. What is listed of an entry is read as its columns, whatever the order and the
letter case have become. What any row is read as is listed with each of its columns once, in the
order of all columns, and with the value that the row gives last. Only a name that is no column's
stops the reading, and the first such name is reported.
-/

namespace WideGraph

namespace Column

variable {name : String} {column : Column}

/-- Native names are in upper case. -/
theorem upper_nativeName (column : Column) :
    Text.upper column.nativeName = column.nativeName := by
  cases column <;> decide +kernel

/-- A name finds the column whose native name it is in some letter case. -/
theorem ofName?_eq_some_iff : ofName? name = some column ↔ Text.Recased column.nativeName name := by
  rw [Text.recased_iff, upper_nativeName]
  constructor
  · intro h
    simpa using List.find?_some h
  · intro h
    rw [← ofName?_nativeName column, ofName?, ofName?, upper_nativeName, h]

/-- A name finds no column if it is the native name of none in any letter case. -/
theorem ofName?_eq_none_iff :
    ofName? name = none ↔ ∀ column : Column, ¬ Text.Recased column.nativeName name := by
  simp only [Option.eq_none_iff_forall_ne_some, ne_eq, ofName?_eq_some_iff]

/-- A name is that of one column at most. -/
theorem eq_of_recased {other : Column} (h : Text.Recased column.nativeName name)
    (hother : Text.Recased other.nativeName name) : column = other :=
  Option.some.inj ((ofName?_eq_some_iff.mpr h).symm.trans (ofName?_eq_some_iff.mpr hother))

/-- The lower-case name of a column is the name of no other column in any letter case. -/
theorem sameIgnoringCase_lower_iff (column other : Column) :
    Text.sameIgnoringCase (Text.lower column.nativeName) other.nativeName = true ↔
      column = other := by
  rw [Text.sameIgnoringCase, beq_iff_eq, eq_comm, ← Text.recased_iff]
  constructor
  · exact eq_of_recased (Text.recased_lower column.nativeName)
  · rintro rfl
    exact Text.recased_lower column.nativeName

end Column

/-- A named value stands for a column with a value if its name is the native name of the column in
some letter case. -/
structure StandsFor (named : String × Value) (pair : Column × Value) : Prop where
  name : Text.Recased pair.1.nativeName named.1
  value : named.2 = pair.2

/-- A name that is the native name of no column in any letter case is at fault, and is reported with
the table. -/
def NamesNoColumn (table : String) (named : String × Value) (e : BackendError) : Prop :=
  (∀ column : Column, ¬ Text.Recased column.nativeName named.1) ∧ e = .unknownColumn table named.1

/-- A row lists an entry if it has the columns of the entry under their native names, each letter of
which is in either case, in any order. -/
def EntryRow.ListedBy (entryRow : EntryRow) (row : Row) : Prop :=
  ∃ recased, List.Forall₂ (fun own listed => Text.Recased own.1 listed.1 ∧ listed.2 = own.2)
    entryRow.assignments recased ∧ recased.Perm row.columns

/-- The value that a row gives last for a column, under its native name in any letter case. -/
def Row.last? (row : Row) (column : Column) : Option Value :=
  (row.columns.reverse.find? fun named => Text.Recased column.nativeName named.1).map (·.2)

namespace EntryRow

variable {named : List (String × Value)} {pairs : List (Column × Value)}

/-- Named values that stand for columns set these columns one after the other. -/
theorem setNamed_of_standsFor (h : List.Forall₂ StandsFor named pairs) (table : String)
    (entryRow : EntryRow) : setNamed table entryRow named = .ok { entryRow with
      columns := pairs.foldl (fun values pair => values.set pair.1 pair.2) entryRow.columns } := by
  induction h generalizing entryRow with
  | nil => rfl
  | cons hfirst _ ih =>
    rw [setNamed, Column.ofName?_eq_some_iff.mpr hfirst.name]
    exact (ih _).trans (by rw [hfirst.value]; rfl)

/-- Named values are refused for the first name that is no column's, and for nothing else. -/
theorem setNamed_eq_error_iff {table : String} {entryRow : EntryRow} {e : BackendError} :
    setNamed table entryRow named = .error e ↔ FirstFault (NamesNoColumn table) named e := by
  induction named generalizing entryRow with
  | nil => simp [setNamed]
  | cons first rest ih =>
    obtain ⟨name, value⟩ := first
    rw [setNamed, FirstFault.cons_iff]
    cases hname : Column.ofName? name with
    | none =>
      have hnone := Column.ofName?_eq_none_iff.mp hname
      simp [NamesNoColumn, hnone, eq_comm]
    | some column =>
      have hsound : ∀ e, ¬ NamesNoColumn table (name, value) e := fun e h =>
        h.1 column (Column.ofName?_eq_some_iff.mp hname)
      simp [hsound, ih]

end EntryRow

/-- Named values that stand for columns, taken from the end, set a column to the first value that
they have for it. -/
theorem find?_ofList_reverse {named : List (String × Value)} {pairs : List (Column × Value)}
    (h : List.Forall₂ StandsFor named pairs) (column : Column) :
    (ColumnValues.ofList pairs.reverse).find? column =
      (named.find? fun value => Text.Recased column.nativeName value.1).map (·.2) := by
  induction h with
  | nil => rfl
  | @cons first pair _ _ hfirst _ ih =>
    rw [List.reverse_cons, ColumnValues.ofList_concat, ColumnValues.find?_set, ih, List.find?_cons]
    by_cases hcolumn : column = pair.1
    · simp [hcolumn, hfirst.name, hfirst.value]
    · have hname : ¬ Text.Recased column.nativeName first.1 := fun hname =>
        hcolumn (Column.eq_of_recased hname hfirst.name)
      simp [hcolumn, hname]

section Reading

variable {row : Row} {pairs : List (Column × Value)} (h : List.Forall₂ StandsFor row.columns pairs)

include h

/-- A row whose named values stand for columns is read as these columns with their values. -/
theorem Entry.ofRow_of_standsFor (kind : ElementKind) (table : String) :
    Entry.ofRow kind table row = .ok { row := { kind, columns := .ofList pairs } } := by
  rw [ofRow, EntryRow.setNamed_of_standsFor h]
  rfl

/-- Of the values that a row has for a column the last one is read. -/
theorem Row.find?_ofList_eq_last? (column : Column) :
    (ColumnValues.ofList pairs).find? column = row.last? column := by
  rw [last?, ← find?_ofList_reverse (List.forall₂_reverse_iff.mpr h), List.reverse_reverse]

end Reading

/-- Named values stand for columns if each of their names is a column's. -/
theorem exists_standsFor {named : List (String × Value)}
    (h : ∀ value ∈ named, ∃ column : Column, Text.Recased column.nativeName value.1) :
    ∃ pairs, List.Forall₂ StandsFor named pairs := by
  induction named with
  | nil => exact ⟨[], .nil⟩
  | cons first rest ih =>
    obtain ⟨⟨column, hcolumn⟩, hrest⟩ := List.forall_mem_cons.mp h
    obtain ⟨pairs, hpairs⟩ := ih hrest
    exact ⟨(column, first.2) :: pairs, .cons ⟨hcolumn, rfl⟩ hpairs⟩

/-- What is listed of an entry stands for the columns of the entry in some order. -/
theorem EntryRow.ListedBy.exists_standsFor {entryRow : EntryRow} {row : Row}
    (h : entryRow.ListedBy row) : ∃ pairs, entryRow.columns.bindings.Perm pairs ∧
      List.Forall₂ StandsFor row.columns pairs := by
  obtain ⟨recased, hrecased, hperm⟩ := h
  rw [assignments, List.forall₂_map_left_iff] at hrecased
  -- First the letters are changed and then the order. The other way round the reordered columns are
  -- there to be compared with what the names stand for.
  have hcomp : Relation.Comp (List.Forall₂ fun (pair : Column × Value) named =>
      StandsFor named pair) List.Perm entryRow.columns.bindings row.columns :=
    ⟨recased, hrecased.imp fun _ _ h => ⟨h.1, h.2⟩, hperm⟩
  rw [List.forall₂_comp_perm_eq_perm_comp_forall₂] at hcomp
  obtain ⟨pairs, hpairs, hstands⟩ := hcomp
  exact ⟨pairs, hpairs, hstands.flip⟩

/-- What is listed of an entry is read back as the columns of the entry. -/
theorem EntryRow.ListedBy.ofRow_eq {entryRow : EntryRow} {row : Row} (h : entryRow.ListedBy row)
    (table : String) : Entry.ofRow entryRow.kind table row =
      .ok { row := { kind := entryRow.kind, columns := entryRow.columns } } := by
  obtain ⟨pairs, hpairs, hstands⟩ := h.exists_standsFor
  have hcolumns : ColumnValues.ofList pairs = entryRow.columns := by
    refine ColumnValues.ofList_eq fun column value => ?_
    rw [← hpairs.mem_iff]
    exact ColumnValues.mem_bindings_iff
  rw [Entry.ofRow_of_standsFor hstands, hcolumns]

/-- An entry lists the columns that have a value under their native names, in the order of all
columns. -/
theorem EntryRow.assignments_eq (entryRow : EntryRow) :
    entryRow.assignments = Column.all.filterMap fun column =>
      (entryRow.columns.find? column).map fun value => (column.nativeName, value) := by
  rw [assignments, ColumnValues.bindings_eq, List.map_filterMap]
  simp only [Option.map_map, Function.comp_def]

/-- Entries and rows are read from each other under names in any letter case. What is listed of an
entry, in any order and letter case, is read as an entry of the same kind with the same columns.
Conversely a row is refused exactly if some name in it is the native name of no column in any letter
case, and the first such name is reported. Otherwise the row is read as an entry that lists each
column named in it once, in the order of all columns, under its native name and with the value that
the row gives last. -/
theorem Entry.ofRow_inverts_assignments :
    (∀ (entryRow : EntryRow) (table : String) (row : Row), entryRow.ListedBy row →
      ofRow entryRow.kind table row =
        .ok { row := { kind := entryRow.kind, columns := entryRow.columns } }) ∧
    ∀ (kind : ElementKind) (table : String) (row : Row),
      ((∃ e, ofRow kind table row = .error e) ↔
        ∃ named ∈ row.columns, ∀ column : Column, ¬ Text.Recased column.nativeName named.1) ∧
      (∀ e, ofRow kind table row = .error e ↔ FirstFault (NamesNoColumn table) row.columns e) ∧
      ((∀ named ∈ row.columns, ∃ column : Column, Text.Recased column.nativeName named.1) →
        ∃ columns, ofRow kind table row = .ok { row := { kind, columns } } ∧
          EntryRow.assignments { kind, columns } = Column.all.filterMap fun column =>
            (row.last? column).map fun value => (column.nativeName, value)) := by
  refine ⟨fun entryRow table row h => h.ofRow_eq table, fun kind table row => ?_⟩
  have herror : ∀ e, ofRow kind table row = .error e ↔
      FirstFault (NamesNoColumn table) row.columns e := fun e => by
    rw [ofRow, map_error_iff, EntryRow.setNamed_eq_error_iff]
  refine ⟨?_, herror, fun hnames => ?_⟩
  · simp only [herror, FirstFault.exists_iff, NamesNoColumn, exists_and_left, exists_eq, and_true]
  · obtain ⟨pairs, hpairs⟩ := exists_standsFor hnames
    refine ⟨.ofList pairs, ofRow_of_standsFor hpairs kind table, ?_⟩
    simp only [EntryRow.assignments_eq, Row.find?_ofList_eq_last? hpairs]

/-- An entry of an index, with its columns set in reverse order. -/
def agedEntry : EntryRow :=
  ((EntryRow.set { kind := .secondaryIndex } .elementIds (.set (.ofList ["2", "1"]))).set
    .indexLabelName (.text "personByAge")).set .fieldValues (.text "29")

/-- The columns of the entry in another order and other letter cases. -/
def agedRow : Row :=
  ⟨[("Index_Label_Name", .text "personByAge"), ("element_ids", .set (.ofList ["1", "2"])),
    ("FIELD_values", .text "29")]⟩

/-- A row that names a column three times, in three letter cases. -/
def relabelledRow : Row :=
  ⟨[("label", .text "person"), ("Id", .text "1"), ("LABEL", .null), ("Label", .text "software")]⟩

/-- A row with two names that are no column's, one of them with a dotless letter that has no case
here. -/
def strayRow : Row :=
  ⟨[("id", .text "1"), ("f\u0131elds", .null), ("writetime", .bigint 1)]⟩

/-- The entry is read back from its row, the last of several labels is listed, and the first of two
stray names is reported. -/
theorem Entry.ofRow_inverts_assignments_relabelled :
    agedEntry.ListedBy agedRow ∧
    ofRow .secondaryIndex "secondary_indexes" agedRow =
      .ok { row := { kind := .secondaryIndex, columns := agedEntry.columns } } ∧
    (∀ named ∈ relabelledRow.columns, ∃ column : Column,
      Text.Recased column.nativeName named.1) ∧
    (∃ columns,
      ofRow .vertex "vertices" relabelledRow = .ok { row := { kind := .vertex, columns } } ∧
      EntryRow.assignments { kind := .vertex, columns } =
        [("ID", .text "1"), ("LABEL", .text "software")]) ∧
    ofRow .vertex "vertices" strayRow = .error (.unknownColumn "vertices" "f\u0131elds") := by
  have hlisted : agedEntry.ListedBy agedRow := by
    refine ⟨[("FIELD_values", .text "29"), ("Index_Label_Name", .text "personByAge"),
      ("element_ids", .set (.ofList ["1", "2"]))], ?_, (List.perm_append_singleton _ [_, _]).symm⟩
    have hassignments : agedEntry.assignments = [("FIELD_VALUES", .text "29"),
        ("INDEX_LABEL_NAME", .text "personByAge"),
        ("ELEMENT_IDS", .set (.ofList ["1", "2"]))] := by decide +kernel
    rw [hassignments]
    exact .cons ⟨by decide +kernel, rfl⟩
      (.cons ⟨by decide +kernel, rfl⟩ (.cons ⟨by decide +kernel, rfl⟩ .nil))
  have hnames : ∀ named ∈ relabelledRow.columns, ∃ column : Column,
      Text.Recased column.nativeName named.1 := by
    simp only [relabelledRow, List.forall_mem_cons]
    exact ⟨⟨.label, by decide +kernel⟩, ⟨.id, by decide +kernel⟩, ⟨.label, by decide +kernel⟩,
      ⟨.label, by decide +kernel⟩, nofun⟩
  have hstray : FirstFault (NamesNoColumn "vertices") strayRow.columns
      (.unknownColumn "vertices" "f\u0131elds") :=
    .behind (fun _ h => h.1 .id (by decide +kernel))
      (.here ⟨fun column => by cases column <;> decide +kernel, rfl⟩)
  have hcodec := ofRow_inverts_assignments
  obtain ⟨columns, hread, hassignments⟩ :=
    (hcodec.2 .vertex "vertices" relabelledRow).2.2 hnames
  exact ⟨hlisted, hcodec.1 agedEntry "secondary_indexes" agedRow hlisted, hnames,
    ⟨columns, hread, hassignments.trans (by decide +kernel)⟩,
    ((hcodec.2 .vertex "vertices" strayRow).2.1 _).mpr hstray⟩

end WideGraph
