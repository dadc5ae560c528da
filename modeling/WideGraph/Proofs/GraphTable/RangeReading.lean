import WideGraph.Proofs.GraphTable.Answer
import WideGraph.Proofs.GraphTable.Creation
import WideGraph.Proofs.GraphTable.Merging
import WideGraph.Proofs.TokenRing

/-!
# Reading a table range by range

A table lists its rows in the order of their tokens, and the ranges of a split tile the ring. The
queries for the ranges therefore find each row once and in the order of the query for everything.
The edges of one owner have one token, so that no vertex is gathered from two ranges.
-/

namespace WideGraph

namespace StoredTable

/-- The place of a row on the ring. -/
def place (entry : RowKey × StoredRow) : Int :=
  entry.1.token.toInt

/-- The rows of a coherent table are in the order of their places. -/
theorem Coherent.place_sorted {table : StoredTable} (h : table.Coherent) :
    table.rows.Pairwise fun a b => place a ≤ place b := by
  refine h.increasing.imp fun {a b} hlt => ?_
  change RowKey.order a.1 b.1 = .lt at hlt
  rw [RowKey.order, Ordering.then_eq_lt] at hlt
  rcases hlt with hlt | ⟨heq, -⟩
  · exact Int.le_of_lt (Int64.lt_iff_toInt_lt.mp (compareOfLessAndEq_eq_lt.mp hlt))
  · exact Int.le_of_eq (congrArg Int64.toInt (Std.LawfulEqCmp.eq_of_compare heq))

/-- Every row of a coherent table is placed on the ring. -/
theorem Coherent.place_mem {table : StoredTable} (h : table.Coherent) {entry : RowKey × StoredRow}
    (hentry : entry ∈ table.rows) :
    TokenRange.minToken ≤ place entry ∧ place entry < TokenRange.maxToken := by
  refine ⟨entry.1.token.minValue_le_toInt, ?_⟩
  rw [place, (h.rows entry hentry).key_eq]
  exact partitionToken_lt _

/-- An edge with an owner is placed by it. -/
theorem Coherent.token_of_owner {table : StoredTable} (h : table.Coherent)
    (hdefinition : table.definition = ElementKind.edge.layout) {entry : RowKey × StoredRow}
    (hentry : entry ∈ table.rows) {value : Value}
    (howner : entry.2.cells.find? .ownerVertex = some value) :
    entry.1.token = partitionToken [value] := by
  have hcolumns : ElementKind.edge.layout.partitionColumns = [.ownerVertex] := by decide
  have hvalue : entry.2.valueOf .ownerVertex = value := by
    rw [StoredRow.valueOf, howner, Option.getD_some]
  rw [(h.rows entry hentry).key_eq, StoredRow.keyIn, hdefinition, hcolumns, List.map_singleton,
    hvalue]

/-- The rows of a range. -/
def rowsBetween (table : StoredTable) (start stop : Int) : List (RowKey × StoredRow) :=
  table.rows.filter fun entry => start ≤ place entry && place entry < stop

end StoredTable

namespace Query

/-- The query for the elements of a kind in a range. -/
def inRange (kind : ElementKind) (range : TokenRange) : Query :=
  (Query.all kind).withCondition range.condition

end Query

namespace GraphTable

/-- The clause of the range between two places of the ring. -/
def rangeClause (table : GraphTable) (start stop : Int) : Clause :=
  .and (.tokenAtLeast table.definition.partitionNames (toString start))
    (.tokenBelow table.definition.partitionNames (toString stop))

/-- The query for everything has one select, which restricts nothing. -/
theorem selects_all (table : GraphTable) :
    table.selects (Query.all table.kind) = .ok [{ table := table.name }] := by
  refine (selects_eq_ok_iff rfl).mpr ⟨[], [], rfl, rfl, ?_, rfl⟩
  change _ ∨ 1 ≤ table.configuration.maxQueryStatements
  omega

/-- The query for a range has one select, which restricts the token. -/
theorem selects_inRange (table : GraphTable) (bytes count position : Nat) :
    table.selects (Query.inRange table.kind (.between bytes count position)) =
      .ok [{ table := table.name, clauses := [table.rangeClause (TokenRange.cut count position)
        (TokenRange.cut count (position + 1))] }] := by
  refine (selects_eq_ok_iff rfl).mpr ⟨[], _, rfl, rfl, ?_, rfl⟩
  change _ ∨ 1 ≤ table.configuration.maxQueryStatements
  omega

/-- A bound of a range is read as the word it was written from. -/
theorem tokenOf_toString {bound : Int}
    (h : TokenRange.minToken ≤ bound ∧ bound ≤ TokenRange.maxToken) :
    ∃ word, StoredTable.tokenOf (toString bound) = .ok word ∧ word.toInt = bound := by
  refine ⟨Int64.ofInt bound, ?_, ?_⟩
  · rw [StoredTable.tokenOf, Text.wordLiteral?_toString h.1 h.2]
  · have hmax : TokenRange.maxToken < 2 ^ 63 := by decide
    exact Int64.toInt_ofInt_of_le h.1 (by omega)

/-- A row is matched by the clause of a range if its place is between the bounds. -/
theorem rowMatchesAll_range (table : GraphTable) (stored : StoredTable) {start stop : Int}
    (hstart : TokenRange.minToken ≤ start ∧ start ≤ TokenRange.maxToken)
    (hstop : TokenRange.minToken ≤ stop ∧ stop ≤ TokenRange.maxToken)
    (entry : RowKey × StoredRow) :
    stored.rowMatchesAll entry.1 entry.2 [table.rangeClause start stop] =
      .ok (start ≤ StoredTable.place entry && StoredTable.place entry < stop) := by
  obtain ⟨startWord, hstartWord, rfl⟩ := tokenOf_toString hstart
  obtain ⟨stopWord, hstopWord, rfl⟩ := tokenOf_toString hstop
  have hlow : decide (startWord ≤ entry.1.token) =
      decide (startWord.toInt ≤ StoredTable.place entry) :=
    decide_eq_decide.mpr Int64.le_iff_toInt_le
  have hhigh : decide (entry.1.token < stopWord) =
      decide (StoredTable.place entry < stopWord.toInt) :=
    decide_eq_decide.mpr Int64.lt_iff_toInt_lt
  rw [StoredTable.rowMatchesAll, rangeClause, StoredTable.rowMatches, StoredTable.rowMatches,
    StoredTable.rowMatches, hstartWord, hstopWord]
  simp only [bind, Except.bind, hlow, hhigh]
  cases decide (startWord.toInt ≤ StoredTable.place entry) <;>
    cases decide (StoredTable.place entry < stopWord.toInt) <;> rfl

/-- A query with a single select is answered as the select is. -/
theorem query_of_select {table : GraphTable} {query : Query} {select : Select}
    (h : table.selects query = .ok [select]) {c : Connection} {entries : List Entry} :
    (table.query query c).1 = .ok entries ↔
      table.Answers c.cluster c.session.keyspace query.kind select entries := by
  rw [query_eq_ok_iff, h]
  constructor
  · rintro ⟨selects, parts, hselects, hparts, rfl⟩
    cases hselects
    cases hparts with
    | cons hfirst hrest =>
      cases hrest
      rwa [List.flatten_cons, List.flatten_nil, List.append_nil]
  · intro hanswers
    exact ⟨[select], [entries], rfl, .cons hanswers .nil, by simp⟩

/-- A select whose clauses are always decided, and which orders and limits nothing, gathers the rows
for which they are decided to hold. -/
theorem answers_iff_of_test {table : GraphTable} {stored : StoredTable} {cluster : Cluster}
    {keyspace : String} (hstored : cluster.table keyspace table.name = .ok stored)
    (hcoherent : stored.Coherent) {clauses : List Clause}
    (hcheck : stored.checkLeaves false (clauses.flatMap Clause.leaves) = .ok ())
    {test : RowKey × StoredRow → Bool}
    (htest : ∀ entry ∈ stored.rows,
      stored.rowMatchesAll entry.1 entry.2 clauses = .ok (test entry))
    {kind : ElementKind} {entries : List Entry} :
    table.Answers cluster keyspace kind { table := table.name, clauses } entries ↔
      table.kind.merge ((stored.rows.filter test).map fun entry => entry.2.entry kind) =
        .ok entries := by
  have hselect : stored.select { table := table.name, clauses } =
      .ok (((stored.rows.filter test).map (·.2)).map stored.project) := by
    refine StoredTable.select_eq_ok_iff.mpr ⟨hcheck, _, [],
      StoredTable.matchingRows_eq_filter test htest, rfl, ?_⟩
    rw [StoredTable.sortStable_eq_self (fun _ _ => by simp [StoredTable.compareRows])]
    rfl
  have hfits : ∀ row ∈ (stored.rows.filter test).map (·.2), row.cells.Fits stored.definition := by
    intro row hrow
    obtain ⟨entry, hentry, rfl⟩ := List.mem_map.mp hrow
    exact (hcoherent.rows entry (List.mem_filter.mp hentry).1).fits
  have hread : cluster.read keyspace { table := table.name, clauses } =
      stored.select { table := table.name, clauses } := Cluster.read_of_table hstored
  rw [Answers, hread, hselect]
  constructor
  · rintro ⟨rows, hrows, hentries⟩
    cases hrows
    rw [entriesOfRows_project table kind hfits, List.map_map] at hentries
    exact hentries
  · intro hentries
    refine ⟨_, rfl, ?_⟩
    rw [entriesOfRows_project table kind hfits, List.map_map]
    exact hentries

/-- The rows of a range are gathered by the query for the range. -/
theorem query_inRange_iff {table : GraphTable} {stored : StoredTable} {c : Connection}
    (hstored : c.cluster.table c.session.keyspace table.name = .ok stored)
    (hdefinition : stored.definition = table.definition) (hcoherent : stored.Coherent)
    (bytes : Nat) {count position : Nat} (hposition : position < count) {entries : List Entry} :
    (table.query (Query.inRange table.kind (.between bytes count position)) c).1 = .ok entries ↔
      table.kind.merge ((stored.rowsBetween (TokenRange.cut count position)
        (TokenRange.cut count (position + 1))).map fun entry => entry.2.entry table.kind) =
          .ok entries := by
  rw [query_of_select (table.selects_inRange bytes count position)]
  refine answers_iff_of_test hstored hcoherent ?_ fun entry _ =>
    table.rowMatchesAll_range stored (TokenRange.cut_mem count (by omega))
      (TokenRange.cut_mem count hposition) entry
  simp [rangeClause, Clause.leaves, StoredTable.checkLeaves, StoredTable.checkLeaf, hdefinition]

/-- All rows are gathered by the query for everything. -/
theorem query_all_iff {table : GraphTable} {stored : StoredTable} {c : Connection}
    (hstored : c.cluster.table c.session.keyspace table.name = .ok stored)
    (hcoherent : stored.Coherent) {entries : List Entry} :
    (table.query (Query.all table.kind) c).1 = .ok entries ↔
      table.kind.merge (stored.rows.map fun entry => entry.2.entry table.kind) = .ok entries := by
  have htest : ∀ entry ∈ stored.rows,
      stored.rowMatchesAll entry.1 entry.2 [] = .ok ((fun _ => true) entry) := fun _ _ => rfl
  rw [query_of_select table.selects_all]
  refine (answers_iff_of_test hstored hcoherent rfl htest).trans ?_
  rw [List.filter_true]
  rfl

/-- The rows of a coherent table are those of the ranges, one range after the other. -/
theorem flatMap_rowsBetween {stored : StoredTable} (hcoherent : stored.Coherent) {count : Nat}
    (hcount : 0 < count) :
    ((List.range count).flatMap fun position =>
      stored.rowsBetween (TokenRange.cut count position) (TokenRange.cut count (position + 1))) =
        stored.rows := by
  have htile := flatMap_filter_cuts hcoherent.place_sorted (TokenRange.cut count)
    fun position h => TokenRange.cut_le_succ count h
  rw [TokenRange.cut_zero hcount, TokenRange.cut_last] at htile
  refine htile.trans (List.filter_eq_self.mpr fun entry hentry => ?_)
  obtain ⟨hlow, hhigh⟩ := hcoherent.place_mem hentry
  simp [hlow, hhigh]

/-- No two ranges have edges of one owner. -/
theorem ownersApart_rowsBetween {stored : StoredTable} (hcoherent : stored.Coherent)
    (hdefinition : stored.definition = ElementKind.edge.layout) (count : Nat) :
    ((List.range count).map fun position =>
      (stored.rowsBetween (TokenRange.cut count position)
        (TokenRange.cut count (position + 1))).map fun entry => entry.2.entry .edge).Pairwise
          OwnersApart := by
  rw [List.pairwise_map]
  refine List.pairwise_lt_range.imp_of_mem fun {i j} _ hj hij => ?_
  rw [List.mem_range] at hj
  intro a ha b hb v w hv hw heq
  obtain ⟨first, hfirst, rfl⟩ := List.mem_map.mp ha
  obtain ⟨second, hsecond, rfl⟩ := List.mem_map.mp hb
  obtain ⟨hfirstRow, hfirstPlace⟩ := List.mem_filter.mp hfirst
  obtain ⟨hsecondRow, hsecondPlace⟩ := List.mem_filter.mp hsecond
  rw [Bool.and_eq_true, decide_eq_true_eq, decide_eq_true_eq] at hfirstPlace hsecondPlace
  -- Owners with one text have one token, and the token of the first is before the second's range.
  have htoken : first.1.token = second.1.token := by
    rw [hcoherent.token_of_owner hdefinition hfirstRow hv,
      hcoherent.token_of_owner hdefinition hsecondRow hw, partitionToken_congr heq]
  have hplace : StoredTable.place first = StoredTable.place second := by
    rw [StoredTable.place, StoredTable.place, htoken]
  have hcut : TokenRange.cut count (i + 1) ≤ TokenRange.cut count j :=
    TokenRange.cut_mono hij (by omega)
  omega

/-- A table is read in ranges as it is read at once. The queries for the ranges of any split all
succeed where the query for everything does, their entries in the order of the ranges are its
entries, and of edges no two ranges give the same vertex. -/
theorem inRange_tiles_all (table : GraphTable) (c : Connection) (hreach : c.cluster.Reachable)
    (hkeeps : c.cluster.Keeps c.session.keyspace table.kind) {bytes size : Nat}
    {ranges : List TokenRange} (hsplit : TokenRange.split bytes size = .ok ranges)
    {entries : List Entry} (hall : (table.query (Query.all table.kind) c).1 = .ok entries) :
    ∃ parts, List.Forall₂ (fun range part => ∀ d : Connection, d.cluster = c.cluster →
        d.session.keyspace = c.session.keyspace →
        (table.query ((Query.all table.kind).withCondition range.condition) d).1 = .ok part)
      ranges parts ∧
    parts.flatten = entries ∧ (table.kind = .edge → parts.Pairwise IdsApart) := by
  obtain ⟨stored, hstored, hdefinition⟩ := hkeeps
  have hcoherent := hreach.coherent hstored
  obtain ⟨count, hcount, rfl⟩ := TokenRange.split_eq_ok hsplit
  set found : Nat → List Entry := fun position =>
    (stored.rowsBetween (TokenRange.cut count position) (TokenRange.cut count (position + 1))).map
      fun entry => entry.2.entry table.kind
  have hflatten : ((List.range count).map found).flatten =
      stored.rows.map fun entry => entry.2.entry table.kind := by
    rw [← flatMap_rowsBetween hcoherent hcount, List.map_flatMap, List.flatMap_def]
  rw [query_all_iff hstored hcoherent, ← hflatten] at hall
  have hapart : table.kind = .edge → ((List.range count).map found).Pairwise OwnersApart := by
    intro hkind
    have hedge := ownersApart_rowsBetween hcoherent (hkind ▸ hdefinition) count
    rw [← hkind] at hedge
    exact hedge
  obtain ⟨parts, hparts, rfl, hids⟩ := ElementKind.merge_flatten hapart hall
  refine ⟨parts, ?_, rfl, hids⟩
  rw [List.forall₂_map_left_iff] at hparts ⊢
  refine ((List.forall₂_and_left _ _).mpr ⟨fun _ h => List.mem_range.mp h, hparts⟩).imp ?_
  rintro position part ⟨hposition, hpart⟩ d hcluster hkeyspace
  have hd : d.cluster.table d.session.keyspace table.name = .ok stored := by
    rw [hcluster, hkeyspace]
    exact hstored
  exact (query_inRange_iff hd hdefinition hcoherent bytes hposition).mpr hpart

/-- A session creates the vertex table with its indexes and writes two vertices. -/
def writeTwoVertices : List (String × Request) :=
  ("writer", .connect "graph") ::
    (ElementKind.vertex.layout.createTable :: ElementKind.vertex.layout.createIndexes).map
      (fun statement => ("writer", .changeSchema statement)) ++
  [("writer", .add (.insert ⟨"vertices", [("ID", .text "1")]⟩)),
    ("writer", .add (.insert ⟨"vertices", [("ID", .text "2")]⟩)),
    ("writer", .commit)]

/-- A fresh connection to the two vertices. -/
def toTwoVertices : Connection :=
  ⟨(World.run {} writeTwoVertices).cluster, { keyspace := "graph" }⟩

/-- The vertex table is there. -/
theorem keeps_toTwoVertices : toTwoVertices.cluster.Keeps "graph" .vertex :=
  Cluster.keeps_iff.mpr (by decide +kernel)

/-- Two vertices are read in four ranges as they are read at once. -/
theorem inRange_tiles_all_twoVertices :
    ∃ ranges entries parts, TokenRange.split 100 30 = .ok ranges ∧ ranges.length = 4 ∧
      (query ⟨.vertex, {}⟩ (Query.all .vertex) toTwoVertices).1 = .ok entries ∧
      entries.length = 2 ∧ List.Forall₂ (fun range part => (query ⟨.vertex, {}⟩
        ((Query.all .vertex).withCondition range.condition) toTwoVertices).1 = .ok part)
          ranges parts ∧ parts.flatten = entries := by
  have hcount : ((query ⟨.vertex, {}⟩ (Query.all .vertex) toTwoVertices).1.toOption.map
      (·.length)) = some 2 := by decide +kernel
  obtain ⟨entries, hall, hlength⟩ := exists_ok_of_map_toOption hcount
  have hsplit : TokenRange.split 100 30 = .ok _ := rfl
  obtain ⟨parts, hparts, hflatten, -⟩ := inRange_tiles_all ⟨.vertex, {}⟩ toTwoVertices
    ⟨writeTwoVertices, rfl⟩ keeps_toTwoVertices hsplit hall
  exact ⟨_, entries, parts, rfl, rfl, hall, hlength,
    hparts.imp fun range part h => h toTwoVertices rfl rfl, hflatten⟩

end GraphTable

end WideGraph
