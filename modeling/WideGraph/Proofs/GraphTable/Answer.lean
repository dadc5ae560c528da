import WideGraph.Proofs.Store.Answer

/-!
# What a query answers

A query over a connection reads the tables and changes nothing but the history. Its answer is that
of its selects, one after the other, each gathered on its own.
-/

namespace WideGraph

/-- The entry that has the cells of a row. -/
def StoredRow.entry (kind : ElementKind) (row : StoredRow) : Entry where
  row := { kind, columns := row.cells }

/-- What a select gives in a keyspace. -/
def Cluster.read (cluster : Cluster) (keyspace : String) (select : Select) :
    Except StoreError (List Row) := do
  (← cluster.table keyspace select.table).select select

/-- A select reads the table it names. -/
theorem Cluster.read_of_table {cluster : Cluster} {keyspace : String} {select : Select}
    {stored : StoredTable} (h : cluster.table keyspace select.table = .ok stored) :
    cluster.read keyspace select = stored.select select := by
  rw [Cluster.read, h]
  rfl

namespace GraphTable

/-- Projected rows are gathered from the entries with their cells. -/
theorem entriesOfRows_project (table : GraphTable) (kind : ElementKind) {stored : StoredTable}
    {rows : List StoredRow} (h : ∀ row ∈ rows, row.cells.Fits stored.definition) :
    table.entriesOfRows kind (rows.map stored.project) =
      table.kind.merge (rows.map (StoredRow.entry kind)) := by
  have hrows : mapExcept (Entry.ofRow kind table.name) (rows.map stored.project) =
      .ok (rows.map (StoredRow.entry kind)) := by
    rw [mapExcept_eq_ok_iff, List.forall₂_map_left_iff, List.forall₂_map_right_iff,
      List.forall₂_same]
    exact fun row hrow => StoredTable.ofRow_project (h row hrow) kind table.name
  rw [entriesOfRows, hrows]
  rfl

/-- The base select of a query without limit. -/
def unlimitedBase (table : GraphTable) (query : Query) : Select where
  table := table.name
  orders := query.orders.map fun order => (order.1.nativeName, order.2)

/-- The selects of a query that asks for something: those for its identifiers, of which there may
not be too many, with its conditions added. -/
theorem selects_eq_ok_iff_base {table : GraphTable} {query : Query}
    (hempty : query.isEmptyByLimit = false) {selects : List Select} :
    table.selects query = .ok selects ↔
      ∃ base keys conditions, table.baseSelect query = .ok base ∧
        mapExcept table.idKeyValues query.ids = .ok keys ∧
        mapExcept (·.compile table.definition.partitionNames) query.conditions = .ok conditions ∧
        (table.configuration.maxQueryStatements = 0 ∨
          (table.keyedSelects base keys).length ≤ table.configuration.maxQueryStatements) ∧
        selects = (table.keyedSelects base keys).map (restrict · conditions) := by
  rw [GraphTable.selects, hempty, if_neg (by simp)]
  constructor
  · intro h
    obtain ⟨base, hbase, h⟩ := bind_ok_iff.mp h
    obtain ⟨keys, hkeys, h⟩ := bind_ok_iff.mp h
    dsimp only at h
    split at h
    · cases h
    · rename_i hfew
      obtain ⟨conditions, hconditions, h⟩ := bind_ok_iff.mp h
      cases h
      exact ⟨base, keys, conditions, hbase, hkeys, hconditions, by omega, rfl⟩
  · rintro ⟨base, keys, conditions, hbase, hkeys, hconditions, hfew, rfl⟩
    refine bind_ok_iff.mpr ⟨base, hbase, bind_ok_iff.mpr ⟨keys, hkeys, ?_⟩⟩
    dsimp only
    rw [if_neg (by omega)]
    exact bind_ok_iff.mpr ⟨conditions, hconditions, rfl⟩

/-- The selects of a query without limit. -/
theorem selects_eq_ok_iff {table : GraphTable} {query : Query} (hlimit : query.hasLimit = false)
    {selects : List Select} :
    table.selects query = .ok selects ↔
      ∃ keys conditions, mapExcept table.idKeyValues query.ids = .ok keys ∧
        mapExcept (·.compile table.definition.partitionNames) query.conditions = .ok conditions ∧
        (table.configuration.maxQueryStatements = 0 ∨
          (table.keyedSelects (table.unlimitedBase query) keys).length ≤
            table.configuration.maxQueryStatements) ∧
        selects = (table.keyedSelects (table.unlimitedBase query) keys).map
          (restrict · conditions) := by
  have hbase : table.baseSelect query = .ok (table.unlimitedBase query) := by
    simp [baseSelect, hlimit, unlimitedBase]
  rw [selects_eq_ok_iff_base (by simp [Query.isEmptyByLimit, hlimit]), hbase]
  simp only [Except.ok.injEq, exists_eq_left', exists_and_left]

/-- The entries that a select gives for a query for elements of a kind. -/
def Answers (table : GraphTable) (cluster : Cluster) (keyspace : String) (kind : ElementKind)
    (select : Select) (entries : List Entry) : Prop :=
  ∃ rows, cluster.read keyspace select = .ok rows ∧ table.entriesOfRows kind rows = .ok entries

/-- Selects in turn give the entries of each, one after the other. -/
theorem runSelects_eq_ok_iff {table : GraphTable} {query : Query} {selects : List Select}
    {c : Connection} {entries : List Entry} :
    (table.runSelects query selects c).1 = .ok entries ↔
      ∃ parts, List.Forall₂ (table.Answers c.cluster c.session.keyspace query.kind) selects parts ∧
        entries = parts.flatten := by
  induction selects generalizing c entries with
  | nil =>
    constructor
    · intro h
      cases h
      exact ⟨[], .nil, rfl⟩
    · rintro ⟨parts, hparts, rfl⟩
      cases hparts
      rfl
  | cons select rest ih =>
    -- The history that the first select adds is not read by the others.
    rw [runSelects]
    simp only [SessionM.fst_bind_eq_ok_iff, SessionM.fst_ofStore_eq_ok_iff, SessionM.snd_ofStore,
      SessionM.ofExcept, SessionM.pure_apply, ih]
    constructor
    · rintro ⟨rows, hread, first, hrows, _, ⟨parts, hparts, rfl⟩, hentries⟩
      cases hentries
      exact ⟨first :: parts, .cons ⟨rows, hread, hrows⟩ hparts, rfl⟩
    · rintro ⟨_, hall, rfl⟩
      obtain ⟨first, parts, ⟨rows, hread, hrows⟩, hparts, rfl⟩ :=
        List.forall₂_cons_left_iff.mp hall
      exact ⟨rows, hread, first, hrows, _, ⟨parts, hparts, rfl⟩, rfl⟩

/-- A query is answered if it has selects and each of them is answered. -/
theorem query_eq_ok_iff {table : GraphTable} {query : Query} {c : Connection}
    {entries : List Entry} :
    (table.query query c).1 = .ok entries ↔
      ∃ selects parts, table.selects query = .ok selects ∧
        List.Forall₂ (table.Answers c.cluster c.session.keyspace query.kind) selects parts ∧
        entries = parts.flatten := by
  rw [GraphTable.query, SessionM.fst_bind_eq_ok_iff]
  simp only [SessionM.ofExcept, runSelects_eq_ok_iff, exists_and_left]

end GraphTable

end WideGraph
