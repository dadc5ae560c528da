import WideGraph.Proofs.Store.Answer
import WideGraph.Proofs.Store.Deletion

/-!
# Deleting and selecting by equalities

A select keeps the rows that satisfy every equality it is given. A delete by the same equalities
first collects their values by column, so that of several equalities for one column only the last
one counts, and it takes null for a value like any other. Deleted rows are thus the selected ones
unless an equality is with null or two of them contradict each other: then no row is selected, but
those that have the last values are still deleted.
-/

namespace WideGraph

/-- Whether a row has the value of an equality, which must not be null. -/
def StoredRow.satisfies (row : StoredRow) (equality : Column × Value) : Bool :=
  !equality.2.isNull && decide (row.cells.find? equality.1 = some equality.2)

/-- No equality is with null, and no two of them give different values to one column. -/
def Consistent (equalities : List (Column × Value)) : Prop :=
  (∀ equality ∈ equalities, equality.2.isNull = false) ∧
    ∀ equality ∈ equalities, ∀ other ∈ equalities,
      equality.1 = other.1 → equality.2 = other.2

/-- Equalities that some row satisfies are consistent. -/
theorem Consistent.of_satisfied {row : StoredRow} {equalities : List (Column × Value)}
    (h : ∀ equality ∈ equalities, row.satisfies equality = true) : Consistent equalities := by
  simp only [StoredRow.satisfies, Bool.and_eq_true, Bool.not_eq_true', decide_eq_true_iff] at h
  refine ⟨fun equality hmem => (h equality hmem).1, fun equality hmem other hother hcolumn => ?_⟩
  have hcell := (h equality hmem).2
  rw [hcolumn, (h other hother).2, Option.some.injEq] at hcell
  exact hcell.symm

/-- The cells of a row have the last value that the equalities give to each column. -/
def StoredRow.HasLast (row : StoredRow) (equalities : List (Column × Value)) : Prop :=
  ∀ column value, (ColumnValues.ofList equalities).find? column = some value →
    row.cells.find? column = some value

namespace StoredRow

variable {row : StoredRow} {equalities : List (Column × Value)}

/-- A row that satisfies all equalities has the last values. -/
theorem hasLast_of_satisfies
    (h : ∀ equality ∈ equalities, row.satisfies equality = true) : row.HasLast equalities := by
  intro column value hlast
  have hsatisfied := h _ (ColumnValues.mem_of_find?_ofList hlast)
  rw [satisfies, Bool.and_eq_true, decide_eq_true_iff] at hsatisfied
  exact hsatisfied.2

/-- A row satisfies all of some consistent equalities if it has the last values. -/
theorem satisfies_iff_hasLast (hconsistent : Consistent equalities) :
    (∀ equality ∈ equalities, row.satisfies equality = true) ↔ row.HasLast equalities := by
  refine ⟨hasLast_of_satisfies, fun hlast equality hmem => ?_⟩
  obtain ⟨value, hvalue⟩ := ColumnValues.exists_find?_ofList
    (List.mem_map_of_mem (f := Prod.fst) hmem)
  have hsame : equality.2 = value :=
    hconsistent.2 equality hmem _ (ColumnValues.mem_of_find?_ofList hvalue) rfl
  rw [satisfies, hconsistent.1 equality hmem, hsame, hlast _ _ hvalue]
  simp

end StoredRow

namespace StoredTable

section Bound

variable {table : StoredTable} {given : List (String × Value)} {equalities : List (Column × Value)}
  (hbound : table.definition.BindsTo given equalities)

include hbound

/-- Bound equalities are for declared columns and with storable values. -/
theorem fits_ofList : (ColumnValues.ofList equalities).Fits table.definition :=
  bindAll_fits (bindAll_eq_ok_iff.mpr ⟨equalities, hbound, rfl⟩)

/-- A row of fitting cells is matched by the equalities that it satisfies. -/
theorem rowMatchesAll_equalities {row : StoredRow} (hrow : row.cells.Fits table.definition)
    (key : RowKey) :
    table.rowMatchesAll key row (Clause.equalities given) =
      .ok (equalities.all row.satisfies) := by
  refine rowMatchesAll_eq_all (List.forall₂_map_left_iff.mpr (hbound.imp ?_))
  rintro ⟨name, value⟩ ⟨column, bound⟩ hbind
  rw [rowMatches_eq_of_bind hbind, StoredRow.satisfies, StoredRow.valueOf]
  obtain ⟨type, -, hvalue⟩ := TableDefinition.bind_eq_ok_iff.mp hbind
  have hstorable := ColumnType.storable_of_bind hvalue
  cases hcell : row.cells.find? column with
  | none => simp [Value.isNull]
  | some cell =>
    have hsame := Value.same_iff (hrow column cell hcell).2 hstorable
    by_cases heq : cell = bound
    · subst heq
      simp [hsame.mpr rfl]
    · simp [Bool.eq_false_iff.mpr (mt hsame.mp heq), heq]

/-- A row of fitting cells has all the collected values if it has the last values. -/
theorem hasCells_iff_hasLast {row : StoredRow} (hrow : row.cells.Fits table.definition) :
    hasCells row (.ofList equalities) = true ↔ row.HasLast equalities :=
  hasCells_iff hrow (fits_ofList hbound)

/-- The select by equalities with filtering is answered with the rows that satisfy all of them. -/
theorem Coherent.select_equalities (hcoherent : table.Coherent) (name : String) :
    table.select (.mk name (Clause.equalities given) [] none true) =
      .ok ((table.rows.filter fun entry => equalities.all entry.2.satisfies).map
        fun entry => table.project entry.2) := by
  refine select_of_test (checkLeaves_eq_ok_iff.mpr ?_) _ (fun entry hentry =>
    rowMatchesAll_equalities hbound (hcoherent.rows entry hentry).fits entry.1) name
  intro leaf hleaf
  obtain ⟨pair, hpair, rfl⟩ : ∃ pair ∈ given, leaf = Clause.eq pair.1 pair.2 := by
    simpa [Clause.equalities, Clause.eq, Clause.leaves] using hleaf
  obtain ⟨⟨column, bound⟩, -, hbind⟩ := exists_mem_of_forall₂ hbound.flip hpair
  obtain ⟨type, hresolve, -⟩ := TableDefinition.bind_eq_ok_iff.mp hbind
  rw [Clause.eq, checkLeaf, hresolve]
  rfl

end Bound

/-- A delete by equalities succeeds if there are some and all of them can be bound, and then it
takes out the rows that have all the collected values. -/
theorem delete_equalities_eq_ok_iff {table changed : StoredTable} {name : String}
    {given : List (String × Value)} :
    table.delete ⟨name, Clause.equalities given⟩ = .ok changed ↔
      given ≠ [] ∧ ∃ equalities, table.definition.BindsTo given equalities ∧
        changed = { table with
          rows := table.rows.filter fun entry => !hasCells entry.2 (.ofList equalities) } := by
  rw [delete_eq_ok_iff]
  simp only [bindEqualities_map_eq, bindAll_eq_ok_iff]
  constructor
  · rintro ⟨_, ⟨equalities, hbound, rfl⟩, hsome, rfl⟩
    refine ⟨?_, equalities, hbound, rfl⟩
    rintro rfl
    cases hbound
    cases hsome
  · rintro ⟨hsome, equalities, hbound, rfl⟩
    refine ⟨_, ⟨equalities, hbound, rfl⟩, ColumnValues.isEmpty_ofList ?_, rfl⟩
    rintro rfl
    cases hbound
    exact hsome rfl

/-- Deletes and selects by equalities, in a table that can be reached. The delete succeeds exactly if
there is an equality and all of them can be bound to their columns. The select with filtering is then
answered, with the rows that satisfy every equality. The delete takes out the rows that have the last
value given to each column, among them all selected ones, and leaves the others and everything else
as they were. The deleted rows are just the selected ones exactly if the equalities are consistent or
no row is deleted; no row satisfies inconsistent equalities. -/
theorem deletes_selected_unless_inconsistent {cluster : Cluster} (hreach : cluster.Reachable)
    {keyspace stored : String} {table : StoredTable}
    (htable : cluster.table keyspace stored = .ok table) (name : String)
    (given : List (String × Value)) :
    ((∃ changed,
        table.delete ⟨name, Clause.equalities given⟩ = .ok changed) ↔
      given ≠ [] ∧ ∃ equalities, table.definition.BindsTo given equalities) ∧
    ∀ changed, table.delete ⟨name, Clause.equalities given⟩ = .ok changed →
      ∃ equalities, table.definition.BindsTo given equalities ∧
        table.select (.mk name (Clause.equalities given) [] none true) =
          .ok ((table.rows.filter fun entry => equalities.all entry.2.satisfies).map
            fun entry => table.project entry.2) ∧
        changed = { table with rows := changed.rows } ∧ changed.rows.Sublist table.rows ∧
        (∀ entry ∈ table.rows,
          (entry ∉ changed.rows ↔ entry.2.HasLast equalities) ∧
          (equalities.all entry.2.satisfies = true → entry ∉ changed.rows) ∧
          (¬Consistent equalities → equalities.all entry.2.satisfies = false)) ∧
        ((∀ entry ∈ table.rows,
            (entry ∉ changed.rows ↔ equalities.all entry.2.satisfies = true)) ↔
          Consistent equalities ∨ changed = table) := by
  have hcoherent := hreach.coherent htable
  refine ⟨?_, fun changed h => ?_⟩
  · simp only [delete_equalities_eq_ok_iff]
    constructor
    · rintro ⟨_, hsome, equalities, hbound, -⟩
      exact ⟨hsome, equalities, hbound⟩
    · rintro ⟨hsome, equalities, hbound⟩
      exact ⟨_, hsome, equalities, hbound, rfl⟩
  obtain ⟨-, equalities, hbound, rfl⟩ := delete_equalities_eq_ok_iff.mp h
  have hdeleted : ∀ entry ∈ table.rows,
      (entry ∉ table.rows.filter (fun entry => !hasCells entry.2 (.ofList equalities)) ↔
        entry.2.HasLast equalities) := by
    intro entry hentry
    rw [← hasCells_iff_hasLast hbound (hcoherent.rows entry hentry).fits]
    simp [hentry]
  have hselected : ∀ entry ∈ table.rows, equalities.all entry.2.satisfies = true →
      entry ∉ table.rows.filter fun entry => !hasCells entry.2 (.ofList equalities) :=
    fun entry hentry hall =>
      (hdeleted entry hentry).mpr (StoredRow.hasLast_of_satisfies (List.all_eq_true.mp hall))
  have hnone : ∀ entry : RowKey × StoredRow, ¬Consistent equalities →
      equalities.all entry.2.satisfies = false := fun entry hnot =>
    Bool.eq_false_iff.mpr fun hall => hnot (Consistent.of_satisfied (List.all_eq_true.mp hall))
  refine ⟨equalities, hbound, hcoherent.select_equalities hbound name, rfl, List.filter_sublist,
    fun entry hentry => ⟨hdeleted entry hentry, hselected entry hentry, hnone entry⟩, ?_⟩
  constructor
  · intro hagree
    by_cases hconsistent : Consistent equalities
    · exact .inl hconsistent
    · have hkept : table.rows.filter (fun entry => !hasCells entry.2 (.ofList equalities)) =
          table.rows := by
        refine List.filter_eq_self.mpr fun entry hentry => ?_
        have hin := mt (hagree entry hentry).mp (by simp [hnone entry hconsistent])
        exact (List.mem_filter.mp (not_not.mp hin)).2
      exact .inr (by rw [hkept])
  · rintro (hconsistent | hsame) entry hentry
    · rw [hdeleted entry hentry, List.all_eq_true, StoredRow.satisfies_iff_hasLast hconsistent]
    · rw [← congrArg StoredTable.rows hsame] at hentry
      exact ⟨fun hout => absurd hentry hout, fun hall => absurd hentry
        (hselected entry (List.mem_filter.mp hentry).1 hall)⟩

/-- A session writes two persons. -/
def writePersons : List (String × Request) :=
  [("writer", .connect "graph"), ("writer", .changeSchema ElementKind.vertex.layout.createTable),
    ("writer", .add (.insert ⟨"vertices", [("ID", .text "1"), ("LABEL", .text "person")]⟩)),
    ("writer", .add (.insert ⟨"vertices", [("ID", .text "2"), ("LABEL", .text "person")]⟩)),
    ("writer", .commit)]

/-- Two values for one identifier. -/
def twoIdentifiers : List (String × Value) :=
  [("ID", .text "1"), ("ID", .text "2")]

/-- The two persons are in the table, which has the layout of its kind. -/
theorem exists_persons :
    ∃ table first second, (World.run {} writePersons).cluster.table "graph" "vertices" = .ok table ∧
      table.definition = ElementKind.vertex.layout ∧ first ∈ table.rows ∧ second ∈ table.rows ∧
      (first.2.cells.find? .id = some (.text "1") ∧
        first.2.cells.find? .label = some (.text "person")) ∧
      second.2.cells.find? .id = some (.text "2") := by
  have hrun : ((World.run {} writePersons).cluster.table "graph" "vertices").toOption.map
      (fun table => (table.definition, table.rows.map fun entry =>
        (entry.2.cells.find? .id, entry.2.cells.find? .label))) =
      some (ElementKind.vertex.layout, [(some (.text "2"), some (.text "person")),
        (some (.text "1"), some (.text "person"))]) := by decide +kernel
  obtain ⟨table, htable, hfacts⟩ := exists_ok_of_map_toOption hrun
  obtain ⟨hdefinition, hcells⟩ := Prod.mk.inj hfacts
  obtain ⟨second, _, hrows, hsecond, hrest⟩ := List.map_eq_cons_iff.mp hcells
  obtain ⟨first, _, rfl, hfirst, -⟩ := List.map_eq_cons_iff.mp hrest
  refine ⟨table, first, second, htable, hdefinition, ?_, ?_, Prod.mk.inj hfirst,
    (Prod.mk.inj hsecond).1⟩ <;> simp [hrows]

/-- A person is deleted by identifier and label, the latter given twice, as it is selected. Two
identifiers select nothing, but delete the person with the last one. -/
theorem deletes_selected_unless_inconsistent_writePersons :
    ∃ table first second alone last,
      (World.run {} writePersons).cluster.table "graph" "vertices" = .ok table ∧
      first ∈ table.rows ∧ second ∈ table.rows ∧
      table.delete ⟨"vertices", Clause.equalities [("LABEL", .text "person"),
        ("id", .text "1"), ("LABEL", .text "person")]⟩ = .ok alone ∧
      first ∉ alone.rows ∧ second ∈ alone.rows ∧
      table.delete ⟨"vertices", Clause.equalities twoIdentifiers⟩ = .ok last ∧
      second ∉ last.rows ∧ first ∈ last.rows ∧
      table.select (.mk "vertices" (Clause.equalities twoIdentifiers) [] none true) = .ok [] := by
  obtain ⟨table, first, second, htable, hdefinition, hfirst, hsecond, hfirstCells, hsecondId⟩ :=
    exists_persons
  have hperson : table.definition.BindsTo
      [("LABEL", .text "person"), ("id", .text "1"), ("LABEL", .text "person")]
      [(.label, .text "person"), (.id, .text "1"), (.label, .text "person")] := by
    rw [hdefinition]
    exact .cons (by decide +kernel) (.cons (by decide +kernel) (.cons (by decide +kernel) .nil))
  have htwo : table.definition.BindsTo twoIdentifiers [(.id, .text "1"), (.id, .text "2")] := by
    rw [hdefinition]
    exact .cons (by decide +kernel) (.cons (by decide +kernel) .nil)
  have hdeletes := deletes_selected_unless_inconsistent ⟨writePersons, rfl⟩ htable "vertices"
  obtain ⟨alone, halone⟩ := (hdeletes _).1.mpr ⟨by simp, _, hperson⟩
  obtain ⟨last, hlast⟩ := (hdeletes _).1.mpr ⟨by simp [twoIdentifiers], _, htwo⟩
  have haloneRows : first ∉ alone.rows ∧ second ∈ alone.rows := by
    obtain ⟨equalities, hbound, -, -, -, hentries, -⟩ := (hdeletes _).2 alone halone
    obtain rfl := hbound.unique hperson
    refine ⟨(hentries first hfirst).2.1 ?_, by_contra fun hout => ?_⟩
    · simp [StoredRow.satisfies, hfirstCells, Value.isNull]
    · have hid := (hentries second hsecond).1.mp hout .id (.text "1") (by decide +kernel)
      rw [hsecondId] at hid
      exact absurd hid (by decide)
  obtain ⟨equalities, hbound, hselect, -, -, hentries, -⟩ := (hdeletes _).2 last hlast
  obtain rfl := hbound.unique htwo
  have hcontradict : ¬Consistent [(.id, .text "1"), (.id, .text "2")] := fun h =>
    absurd (h.2 (.id, .text "1") (by simp) (.id, .text "2") (by simp) rfl) (by decide)
  refine ⟨table, first, second, alone, last, htable, hfirst, hsecond, halone, haloneRows.1,
    haloneRows.2, hlast, (hentries second hsecond).1.mpr ?_, by_contra fun hout => ?_, ?_⟩
  · intro column value hvalue
    simp only [ColumnValues.ofList, List.foldl_cons, List.foldl_nil, ColumnValues.find?_set] at hvalue
    split_ifs at hvalue with hcolumn
    · cases hvalue
      rw [hcolumn]
      exact hsecondId
    · cases hvalue
  · have hid := (hentries first hfirst).1.mp hout .id (.text "2") (by decide +kernel)
    rw [hfirstCells.1] at hid
    exact absurd hid (by decide)
  · rw [hselect, List.filter_eq_nil_iff.mpr fun entry hentry => by
      rw [(hentries entry hentry).2.2 hcontradict]
      simp]
    rfl

/-- Not every deleted row is among the selected ones. -/
theorem contradicting_identifiers_delete :
    ¬ ∀ (cluster : Cluster) (keyspace stored name : String) (table changed : StoredTable)
      (given : List (String × Value)), cluster.Reachable →
      cluster.table keyspace stored = .ok table →
      table.delete ⟨name, Clause.equalities given⟩ = .ok changed →
      ∀ entry ∈ table.rows, (entry ∉ changed.rows ↔
        table.rowMatchesAll entry.1 entry.2 (Clause.equalities given) =
          .ok true) := by
  intro hall
  have hrun : ((World.run {} writePersons).cluster.table "graph" "vertices").toOption.map
      (fun table => (table.delete ⟨"vertices", Clause.equalities twoIdentifiers⟩).toOption.map
        fun changed =>
        table.rows.any fun entry => decide (entry ∉ changed.rows) &&
          decide ((table.rowMatchesAll entry.1 entry.2 (Clause.equalities twoIdentifiers)).toOption =
            some false)) =
      some (some true) := by decide +kernel
  obtain ⟨table, htable, hdeleted⟩ := exists_ok_of_map_toOption hrun
  obtain ⟨changed, hdelete, hsome⟩ := exists_ok_of_map_toOption hdeleted
  obtain ⟨entry, hentry, hfacts⟩ := List.any_eq_true.mp hsome
  rw [Bool.and_eq_true, decide_eq_true_iff, decide_eq_true_iff, toOption_eq_some_iff] at hfacts
  have hmatched := (hall _ "graph" "vertices" "vertices" table changed _ ⟨writePersons, rfl⟩ htable
    hdelete entry hentry).mp hfacts.1
  rw [hfacts.2] at hmatched
  cases hmatched

end StoredTable

end WideGraph
