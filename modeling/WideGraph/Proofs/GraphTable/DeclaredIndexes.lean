import Mathlib.Data.List.Nodup
import WideGraph.Proofs.GraphTable.Creation

/-!
# Declared indexes

A definition may declare several indexes under one name, but a table keeps one column for each name
of an index. Of the declared indexes the first of every name is installed, and any other is passed
over as if it were there already. The table is indexed on the columns of its definition exactly if
every declared column has an index that is installed, which it has if no name is declared twice.
-/

namespace WideGraph

/-- A name keeps what it is bound to, and is bound only if it is new. -/
theorem Bindings.find?_insertNew {κ α : Type} [Ord κ] [Std.TransOrd κ] [Std.LawfulEqOrd κ]
    [DecidableEq κ] (k : κ) (a : α) (bindings : List (κ × α)) (j : κ) :
    find? j (insertNew k a bindings) = (find? j bindings).or (if j = k then some a else none) := by
  rw [insertNew]
  by_cases hjk : j = k
  · subst hjk
    cases hfound : find? j bindings with
    | none => simp [find?_insert]
    | some b => simp [hfound]
  · have hne : compare j k ≠ .eq := fun heq => hjk (Std.LawfulEqCmp.eq_of_compare heq)
    rw [if_neg hjk, Option.or_none]
    split
    · rfl
    · rw [find?_insert, if_neg hne]

/-- Binding new names keeps the names increasing. -/
theorem Bindings.increasing_insertNew {κ α : Type} [Ord κ] [Std.TransOrd κ] (k : κ) (a : α)
    {bindings : List (κ × α)} (h : Increasing bindings) : Increasing (insertNew k a bindings) := by
  rw [insertNew]
  split
  · exact h
  · exact increasing_insert k a h

/-- Installing indexes keeps their names increasing. -/
theorem increasing_installIndexes (declared : List IndexDeclaration)
    {indexes : List (String × Column)} (h : Increasing indexes) :
    Increasing (installIndexes declared indexes) := by
  induction declared generalizing indexes with
  | nil => exact h
  | cons index rest ih => exact ih (Bindings.increasing_insertNew index.name index.column h)

/-- Under a name is the index that was there, or else the first that is declared. -/
theorem find?_installIndexes (declared : List IndexDeclaration) (indexes : List (String × Column))
    (name : String) :
    Bindings.find? name (installIndexes declared indexes) =
      (Bindings.find? name indexes).or
        ((declared.find? fun index => index.name == name).map (·.column)) := by
  induction declared generalizing indexes with
  | nil => simp [installIndexes]
  | cons index rest ih =>
    have hstep : installIndexes (index :: rest) indexes =
        installIndexes rest (Bindings.insertNew index.name index.column indexes) := rfl
    rw [hstep, ih, Bindings.find?_insertNew, Option.or_assoc, List.find?_cons]
    by_cases hname : name = index.name
    · simp [hname]
    · rw [if_neg hname, Option.none_or, beq_eq_false_iff_ne.mpr (Ne.symm hname)]

namespace TableDefinition

/-- Declarations leave the name of a table. -/
theorem name_foldl_declare (declarations : List Declaration) (d : TableDefinition) :
    (declarations.foldl declare d).name = d.name := by
  induction declarations generalizing d with
  | nil => rfl
  | cons declaration rest ih =>
    rw [List.foldl_cons, ih]
    cases declaration <;> rfl

/-- What is built from declarations has the given name and no fault. -/
theorem of_build {name : String} {declarations : List Declaration} {d : TableDefinition}
    (h : build name declarations = .ok d) : d.name = name ∧ d.fault? = none := by
  rw [build] at h
  split at h
  · cases h
  · rename_i hfault
    cases h
    exact ⟨name_foldl_declare declarations (named name), hfault⟩

/-- An index is installed if it is the first that is declared under its name. -/
def Installs (d : TableDefinition) (index : IndexDeclaration) : Prop :=
  (d.indexes.find? fun declared => declared.name == index.name) = some index

instance (d : TableDefinition) (index : IndexDeclaration) : Decidable (d.Installs index) :=
  inferInstanceAs (Decidable (_ = _))

/-- An installed index is declared. -/
theorem Installs.mem {d : TableDefinition} {index : IndexDeclaration} (h : d.Installs index) :
    index ∈ d.indexes :=
  List.mem_of_find?_eq_some h

/-- Every declared index is installed if no two have one name. -/
theorem installs_of_nodup {d : TableDefinition} (h : (d.indexes.map (·.name)).Nodup)
    {index : IndexDeclaration} (hindex : index ∈ d.indexes) : d.Installs index := by
  have hsome : (d.indexes.find? fun declared => declared.name == index.name).isSome :=
    List.find?_isSome.mpr ⟨index, hindex, beq_self_eq_true _⟩
  obtain ⟨first, hfirst⟩ := Option.isSome_iff_exists.mp hsome
  have hname : first.name = index.name := by simpa using List.find?_some hfirst
  rw [Installs, hfirst,
    List.inj_on_of_nodup_map h (List.mem_of_find?_eq_some hfirst) hindex hname]

end TableDefinition

namespace StoredTable

variable {stored : StoredTable} {d : TableDefinition}

/-- A table is indexed on the columns of the indexes that were installed. -/
theorem isIndexed_iff_installs (h : stored.indexes = installIndexes d.indexes []) (column : Column) :
    stored.isIndexed column = true ↔ ∃ index, d.Installs index ∧ index.column = column := by
  have hincreasing : Increasing (installIndexes d.indexes []) :=
    increasing_installIndexes d.indexes List.Pairwise.nil
  rw [isIndexed, h, List.any_eq_true]
  constructor
  · rintro ⟨⟨name, found⟩, hmem, hcolumn⟩
    rw [beq_iff_eq] at hcolumn
    rw [← Bindings.find?_eq_some_iff hincreasing, find?_installIndexes, Bindings.find?,
      Option.none_or] at hmem
    obtain ⟨index, hindex, hfound⟩ := Option.map_eq_some_iff.mp hmem
    have hname : index.name = name := by simpa using List.find?_some hindex
    exact ⟨index, by rw [TableDefinition.Installs, hname, hindex], hfound.trans hcolumn⟩
  · rintro ⟨index, hinstalls, hcolumn⟩
    refine ⟨(index.name, index.column), ?_, beq_iff_eq.mpr hcolumn⟩
    rw [← Bindings.find?_eq_some_iff hincreasing, find?_installIndexes, hinstalls]
    rfl

/-- A column is answered for without filtering if it is part of the key or indexed. -/
theorem checkLeaf_unfiltered_iff {column : Column} {type : ColumnType}
    (htype : stored.definition.typeOf? column = some type) {leaf : Clause}
    (hleaf : (∃ comparison value, leaf = .compare comparison column.nativeName value) ∨
      ∃ values, leaf = .isIn column.nativeName values) :
    stored.checkLeaf false leaf = .ok () ↔
      stored.definition.isPrimaryKey column = true ∨ stored.isIndexed column = true := by
  have hresolve := TableDefinition.resolve_nativeName htype
  have haccess : stored.checkLeaf false leaf = requireAccess
      (false || stored.definition.isPrimaryKey column || stored.isIndexed column) := by
    rcases hleaf with ⟨comparison, value, rfl⟩ | ⟨values, rfl⟩ <;> rw [checkLeaf, hresolve] <;> rfl
  rw [haccess, requireAccess, Bool.false_or, ← Bool.or_eq_true]
  split <;> simp_all

/-- A column is asked for a key without filtering if it is a map and indexed. -/
theorem checkLeaf_containsKey_unfiltered_iff {column : Column} {type : ColumnType}
    (htype : stored.definition.typeOf? column = some type) (value : Value) :
    stored.checkLeaf false (.containsKey column.nativeName value) = .ok () ↔
      type = .textMap ∧ stored.isIndexed column = true := by
  rw [checkLeaf, TableDefinition.resolve_nativeName htype]
  simp only [bind, Except.bind, requireAccess, Bool.false_or]
  split
  · simp_all
  · split <;> simp_all

/-- The indexes of a table are those of its definition exactly if every declared column has one that
was installed. -/
theorem isIndexed_agrees_iff (h : stored.indexes = installIndexes d.indexes []) :
    (∀ column, stored.isIndexed column = d.isIndexed column) ↔
      ∀ declared ∈ d.indexes, ∃ index, d.Installs index ∧ index.column = declared.column := by
  have hdeclared : ∀ column, d.isIndexed column = true ↔
      ∃ declared ∈ d.indexes, declared.column = column := fun column => by
    simp [TableDefinition.isIndexed]
  simp only [Bool.eq_iff_iff, isIndexed_iff_installs h, hdeclared]
  constructor
  · exact fun hagree declared hmem => (hagree declared.column).mpr ⟨declared, hmem, rfl⟩
  · refine fun hinstalled column => ⟨fun ⟨index, hinstalls, hcolumn⟩ =>
      ⟨index, hinstalls.mem, hcolumn⟩, ?_⟩
    rintro ⟨declared, hmem, rfl⟩
    exact hinstalled declared hmem

end StoredTable

namespace GraphTable

/-- Declared indexes are installed unless their names are taken by others. A table built from any
declarations is created together with its indexes in a keyspace that has none of its name. It is
then indexed on the columns of the indexes that are declared first under their names. Without
filtering it compares these columns and those of its key, and it is asked for a key of these if
they are maps. They are the columns on which the definition has indexes exactly if each of those has
such an index, which it does if no two indexes have one name. -/
theorem declared_indexes_installed {name : String} {declarations : List Declaration}
    {d : TableDefinition} (hbuild : TableDefinition.build name declarations = .ok d)
    {c : Connection} (hfree : ∀ stored, c.cluster.table c.session.keyspace name ≠ .ok stored) :
    ∃ c' stored, runSchema (d.createTable :: d.createIndexes) c = (.ok (), c') ∧
      c'.cluster.table c.session.keyspace name = .ok stored ∧ stored.definition = d ∧
      (∀ column, stored.isIndexed column = true ↔
        ∃ index, d.Installs index ∧ index.column = column) ∧
      (∀ column type, d.typeOf? column = some type → ∀ leaf,
        ((∃ comparison value, leaf = .compare comparison column.nativeName value) ∨
          ∃ values, leaf = .isIn column.nativeName values) →
        (stored.checkLeaf false leaf = .ok () ↔
          d.isPrimaryKey column = true ∨ ∃ index, d.Installs index ∧ index.column = column)) ∧
      (∀ column type, d.typeOf? column = some type → ∀ value,
        (stored.checkLeaf false (.containsKey column.nativeName value) = .ok () ↔
          type = .textMap ∧ ∃ index, d.Installs index ∧ index.column = column)) ∧
      ((∀ column, stored.isIndexed column = d.isIndexed column) ↔
        ∀ declared ∈ d.indexes, ∃ index, d.Installs index ∧ index.column = declared.column) ∧
      ((d.indexes.map (·.name)).Nodup →
        ∀ column, stored.isIndexed column = d.isIndexed column) := by
  obtain ⟨rfl, hfault⟩ := TableDefinition.of_build hbuild
  obtain ⟨c', hrun, -, htable⟩ := runSchema_create hfault hfree
  refine ⟨c', _, hrun, htable, rfl, StoredTable.isIndexed_iff_installs rfl,
    fun column type htype leaf hleaf => ?_, fun column type htype value => ?_,
    StoredTable.isIndexed_agrees_iff rfl, fun hnodup => ?_⟩
  · rw [StoredTable.checkLeaf_unfiltered_iff htype hleaf, StoredTable.isIndexed_iff_installs rfl]
  · rw [StoredTable.checkLeaf_containsKey_unfiltered_iff htype,
      StoredTable.isIndexed_iff_installs rfl]
  · exact (StoredTable.isIndexed_agrees_iff rfl).mpr fun declared hmem =>
      ⟨declared, TableDefinition.installs_of_nodup hnodup hmem, rfl⟩

/-- Declarations of a table of people with two indexes under one name. -/
def twiceNamed : List Declaration :=
  [.partitionKey .id .text, .column .label .text, .column .name .text,
    .index "people_index" .label, .index "people_index" .name]

/-- The declarations with another index on the second of the indexed columns. -/
def twiceNamedAndOther : List Declaration :=
  twiceNamed ++ [.index "other_index" .name]

/-- The table that declarations grow from its name. -/
def grown (declarations : List Declaration) : TableDefinition :=
  declarations.foldl TableDefinition.declare (.named "people")

/-- A connection to an empty cluster. -/
def fresh : Connection :=
  ⟨{}, { keyspace := "graph" }⟩

/-- An index is passed over because its name is taken, but its column has another one. -/
theorem declared_indexes_installed_people :
    TableDefinition.build "people" twiceNamedAndOther = .ok (grown twiceNamedAndOther) ∧
    (∀ stored, fresh.cluster.table "graph" "people" ≠ .ok stored) ∧
    ¬ (grown twiceNamedAndOther).Installs ⟨"people_index", .name⟩ ∧
    ∃ c' stored, runSchema ((grown twiceNamedAndOther).createTable ::
        (grown twiceNamedAndOther).createIndexes) fresh = (.ok (), c') ∧
      c'.cluster.table "graph" "people" = .ok stored ∧
      ∀ column, stored.isIndexed column = (grown twiceNamedAndOther).isIndexed column := by
  have hbuild : TableDefinition.build "people" twiceNamedAndOther =
      .ok (grown twiceNamedAndOther) := by decide
  have hfree : ∀ stored, fresh.cluster.table "graph" "people" ≠ .ok stored := nofun
  obtain ⟨c', stored, hrun, htable, -, -, -, -, hagree, -⟩ :=
    declared_indexes_installed hbuild (c := fresh) hfree
  refine ⟨hbuild, hfree, by decide, c', stored, hrun, htable, hagree.mpr ?_⟩
  have hlabel : (grown twiceNamedAndOther).Installs ⟨"people_index", .label⟩ := by decide
  have hname : (grown twiceNamedAndOther).Installs ⟨"other_index", .name⟩ := by decide
  have hcolumns : ∀ declared ∈ (grown twiceNamedAndOther).indexes,
      declared.column = .label ∨ declared.column = .name := by decide
  intro declared hmem
  rcases hcolumns declared hmem with hcolumn | hcolumn
  · exact ⟨_, hlabel, hcolumn.symm⟩
  · exact ⟨_, hname, hcolumn.symm⟩

/-- The definition has an index on a column that the created table does not answer for. -/
theorem declared_index_missing :
    TableDefinition.build "people" twiceNamed = .ok (grown twiceNamed) ∧
    (grown twiceNamed).isIndexed .name = true ∧
    ∃ c', runSchema ((grown twiceNamed).createTable :: (grown twiceNamed).createIndexes) fresh =
        (.ok (), c') ∧
      (c'.execute { table := "people", clauses := [Clause.eq "NAME" (.text "marko")] }).1 =
        .error .filteringRequired :=
  ⟨by decide, by decide, _, rfl, by decide⟩

end GraphTable

end WideGraph
