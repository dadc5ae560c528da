import WideGraph.Proofs.GraphTable.IdLookup

/-!
# How many rows a limit admits

The limit of a query is passed to each of its selects, whose answers are put one after the other.
It therefore bounds the whole answer where there is one select. Where every identifier has its own,
the answer is that of the queries for the identifiers alone, each with the limit.
-/

namespace WideGraph.GraphTable

section Limited

variable {table : GraphTable} {query : Query}

/-- The base select of a query with a limit restricts nothing and has the limit. -/
theorem baseSelect_of_hasLimit (hlimit : query.hasLimit = true) {base : Select}
    (h : table.baseSelect query = .ok base) :
    base.table = table.name ∧ base.clauses = [] ∧ base.limit = some query.limit.toNat := by
  rw [baseSelect] at h
  split at h
  · cases h
  · cases h
    exact ⟨rfl, rfl, rfl⟩

/-- A query that asks for no rows has no entries. -/
theorem query_of_isEmptyByLimit (h : query.isEmptyByLimit = true) (c : Connection) :
    (table.query query c).1 = .ok [] := by
  have hselects : table.selects query = .ok [] := by rw [selects, if_pos h]
  exact query_eq_ok_iff.mpr ⟨[], [], hselects, .nil, rfl⟩

/-- Where there is a single id column or at most one key there is at most one group of keys. -/
theorem length_keyGroups_le_one {keys : List (List (Column × Value))}
    (h : keys.length ≤ 1 ∨ ∃ column, table.idColumns = [column]) :
    (table.keyGroups keys).length ≤ 1 := by
  match keys with
  | [] => exact Nat.le_refl 1
  | [key] => exact (congrArg List.length (keyGroups_singleton table key)).le
  | first :: second :: rest =>
    obtain hkeys | ⟨column, hcolumn⟩ := h
    · simp at hkeys
    · simp [keyGroups, hcolumn]

/-- In the answer to a query with a limit the part for each group of keys has no more rows than the
limit, and no more than the group selects. -/
theorem limited_parts {stored : StoredTable} {c : Connection}
    (hstored : c.cluster.table c.session.keyspace table.name = .ok stored)
    (hdefinition : stored.definition = table.definition) (hcoherent : stored.Coherent)
    (hlimit : query.hasLimit = true) (hempty : query.isEmptyByLimit = false)
    {entries : List Entry} (hquery : (table.query query c).1 = .ok entries) :
    ∃ keys parts, mapExcept table.idKeyValues query.ids = .ok keys ∧ entries = parts.flatten ∧
      List.Forall₂ (fun group part => (part.flatMap (Entry.rowsBehind table.kind)).length ≤
        min query.limit.toNat (selectedRows stored StoredRow.filled query.conditions group).length)
        (table.keyGroups keys) parts := by
  obtain ⟨selects, parts, hselects, hparts, rfl⟩ := query_eq_ok_iff.mp hquery
  obtain ⟨base, keys, compiled, hbase, hkeys, hcompiled, -, rfl⟩ :=
    (selects_eq_ok_iff_base hempty).mp hselects
  obtain ⟨htable, hclauses, hbaseLimit⟩ := baseSelect_of_hasLimit hlimit hbase
  rw [List.forall₂_map_left_iff] at hparts
  have hgroups : List.Forall₂ (table.SelectsGroup base) (table.keyedSelects base keys)
      (table.keyGroups keys) :=
    table.selectsGroup_keyedSelects hclauses (isIdKey_of_mapExcept hkeys)
  refine ⟨keys, parts, hkeys, rfl,
    forall₂_join hgroups hparts fun select group part hselect hanswers => ?_⟩
  obtain ⟨rows, hmerge, hperm⟩ :=
    merge_of_answers hstored hdefinition hcoherent htable hselect hcompiled hanswers
  have hlength := hperm.length_eq
  rw [List.length_map] at hlength
  rw [(rowsBehind_merge hmerge).length_eq, List.length_map, hbaseLimit, StoredTable.takeLimit,
    List.length_take, hlength]

/-- Where each identifier has a select of its own, a query for several gives what the queries for
each alone give, one after the other. -/
theorem query_ids_eq_flatten (hone : ¬ ∃ column, table.idColumns = [column]) (hids : query.ids ≠ [])
    {c : Connection} {entries : List Entry} (hquery : (table.query query c).1 = .ok entries) :
    ∃ parts, entries = parts.flatten ∧ List.Forall₂ (fun id part =>
      (table.query { query with ids := [id] } c).1 = .ok part) query.ids parts := by
  cases hempty : query.isEmptyByLimit with
  | true =>
    rw [query_of_isEmptyByLimit hempty, Except.ok.injEq] at hquery
    refine ⟨query.ids.map fun _ => [], ?_, ?_⟩
    · rw [← hquery, List.flatten_eq_nil_iff.mpr (by simp)]
    · rw [List.forall₂_map_right_iff, List.forall₂_same]
      intro id _
      have hsame : Query.isEmptyByLimit { query with ids := [id] } = true := hempty
      exact query_of_isEmptyByLimit hsame c
  | false =>
    obtain ⟨selects, parts, hselects, hparts, rfl⟩ := query_eq_ok_iff.mp hquery
    obtain ⟨base, keys, compiled, hbase, hkeys, hcompiled, hfew, rfl⟩ :=
      (selects_eq_ok_iff_base hempty).mp hselects
    have hdecoded := mapExcept_eq_ok_iff.mp hkeys
    obtain ⟨key, rest, rfl⟩ : ∃ key rest, keys = key :: rest :=
      List.exists_cons_of_ne_nil fun hnil => hids (by
        rw [hnil] at hdecoded
        exact List.forall₂_nil_right_iff.mp hdecoded)
    rw [keyedSelects_of_not_single hone, List.forall₂_map_left_iff,
      List.forall₂_map_left_iff] at hparts
    refine ⟨parts, rfl, forall₂_join hdecoded.flip hparts fun key id part hkey hanswers => ?_⟩
    have hsame : Query.isEmptyByLimit { query with ids := [id] } = false := hempty
    have hselect : table.selects { query with ids := [id] } = .ok [restrict { base with
        clauses := key.map fun part => Clause.eq part.1.nativeName part.2 } compiled] := by
      refine (selects_eq_ok_iff_base hsame).mpr ⟨base, [key], compiled, hbase,
        mapExcept_eq_ok_iff.mpr (.cons hkey .nil), hcompiled, ?_, ?_⟩
      · rw [keyedSelects_of_not_single hone, List.length_map] at hfew ⊢
        rw [List.length_cons] at hfew
        rw [List.length_singleton]
        omega
      · rw [keyedSelects_of_not_single hone]
        rfl
    exact (query_of_select hselect).mpr hanswers

/-- A group of one whole key selects at most one row. -/
theorem length_selectedRows_le_one {stored : StoredTable} (hcoherent : stored.Coherent)
    (hdefinition : stored.definition = table.definition) (hkind : table.kind ≠ .indexLabel)
    {key : List (Column × Value)} (hkey : table.IsIdKey key)
    (view : StoredRow → Column → Option Value) (conditions : List Condition) :
    (selectedRows stored view conditions [key]).length ≤ 1 := by
  have hcover := hkey.isPrimaryKey_iff hkind
  have hfits := hkey.fits
  rw [← hdefinition] at hcover hfits
  refine Nat.le_trans (List.Sublist.length_le (List.monotone_filter_right _ ?_))
    (StoredTable.length_filter_hasKey hcoherent hfits hcover)
  intro entry hentry
  simpa [inGroup] using And.left (Bool.and_eq_true_iff.mp hentry)

section Single

variable {stored : StoredTable} {c : Connection}
  (hstored : c.cluster.table c.session.keyspace table.name = .ok stored)
  (hdefinition : stored.definition = table.definition) (hcoherent : stored.Coherent)
  (hlimit : query.hasLimit = true) {entries : List Entry}
  (hquery : (table.query query c).1 = .ok entries)

include hstored hdefinition hcoherent hlimit hquery

/-- The answer of a single select has no more rows than the limit. -/
theorem length_rowsBehind_le_limit
    (hsingle : query.ids.length ≤ 1 ∨ ∃ column, table.idColumns = [column]) :
    (entries.flatMap (Entry.rowsBehind table.kind)).length ≤ query.limit.toNat := by
  cases hempty : query.isEmptyByLimit with
  | true =>
    rw [query_of_isEmptyByLimit hempty, Except.ok.injEq] at hquery
    simp [← hquery]
  | false =>
    obtain ⟨keys, parts, hkeys, rfl, hparts⟩ :=
      limited_parts hstored hdefinition hcoherent hlimit hempty hquery
    rw [(mapExcept_eq_ok_iff.mp hkeys).length_eq] at hsingle
    have hcount := length_keyGroups_le_one hsingle
    rw [hparts.length_eq] at hcount
    obtain hnone | ⟨part, hpart⟩ :=
      (Nat.le_one_iff_eq_zero_or_eq_one.mp hcount).imp List.length_eq_zero_iff.mp
        List.length_eq_one_iff.mp
    · simp [hnone]
    · subst hpart
      obtain ⟨group, -, hlength⟩ := exists_mem_of_forall₂ hparts (List.mem_singleton_self part)
      rw [List.flatten_singleton]
      exact le_trans hlength (Nat.min_le_left _ _)

/-- The answer for one whole key has at most one row. -/
theorem length_rowsBehind_le_one (hkind : table.kind ≠ .indexLabel) {id : Identifier}
    (hid : query.ids = [id]) : (entries.flatMap (Entry.rowsBehind table.kind)).length ≤ 1 := by
  cases hempty : query.isEmptyByLimit with
  | true =>
    rw [query_of_isEmptyByLimit hempty, Except.ok.injEq] at hquery
    simp [← hquery]
  | false =>
    obtain ⟨keys, parts, hkeys, rfl, hparts⟩ :=
      limited_parts hstored hdefinition hcoherent hlimit hempty hquery
    have hdecoded := isIdKey_of_mapExcept hkeys
    rw [hid, mapExcept_eq_ok_iff] at hkeys
    obtain ⟨key, rest, -, hrest, rfl⟩ := List.forall₂_cons_left_iff.mp hkeys
    obtain rfl := List.forall₂_nil_left_iff.mp hrest
    rw [keyGroups_singleton] at hparts
    obtain ⟨part, later, hlength, hlater, rfl⟩ := List.forall₂_cons_left_iff.mp hparts
    obtain rfl := List.forall₂_nil_left_iff.mp hlater
    rw [List.flatten_singleton]
    exact hlength.trans ((Nat.min_le_right _ _).trans (length_selectedRows_le_one hcoherent
      hdefinition hkind (hdecoded key (List.mem_singleton_self key)) _ _))

end Single

end Limited

/-- A query with a limit has no more rows behind its answer than the limit, as long as it has at
most one identifier or identifiers of its kind decode into one column. Otherwise each identifier has
a select of its own, to which the limit is passed. The answer is then that of the queries for each
identifier alone, one after the other, of which each has at most one row, and none if the limit is
zero. -/
theorem query_within_limit (table : GraphTable) (c : Connection) (hreach : c.cluster.Reachable)
    (hkeeps : c.cluster.Keeps c.session.keyspace table.kind) {query : Query}
    (hlimit : query.hasLimit = true) {entries : List Entry}
    (hquery : (table.query query c).1 = .ok entries) :
    (query.ids.length ≤ 1 ∨ (∃ column, table.idColumns = [column]) →
      (entries.flatMap (Entry.rowsBehind table.kind)).length ≤ query.limit.toNat) ∧
    (query.ids ≠ [] ∧ (¬ ∃ column, table.idColumns = [column]) →
      ∃ parts, entries = parts.flatten ∧ List.Forall₂ (fun id part =>
        (table.query { query with ids := [id] } c).1 = .ok part ∧
        (part.flatMap (Entry.rowsBehind table.kind)).length ≤ min query.limit.toNat 1)
        query.ids parts) := by
  obtain ⟨stored, hstored, hdefinition⟩ := hkeeps
  have hcoherent := hreach.coherent hstored
  refine ⟨length_rowsBehind_le_limit hstored hdefinition hcoherent hlimit hquery, ?_⟩
  rintro ⟨hids, hone⟩
  obtain ⟨parts, hentries, hparts⟩ := query_ids_eq_flatten hone hids hquery
  have hkind : table.kind ≠ .indexLabel := by
    intro hkind
    exact hone ⟨.name, by rw [idColumns, hkind]; rfl⟩
  have hsame : ∀ id, Query.hasLimit { query with ids := [id] } = true := fun _ => hlimit
  refine ⟨parts, hentries, hparts.imp fun id part hpart => ⟨hpart, le_min ?_ ?_⟩⟩
  · exact length_rowsBehind_le_limit hstored hdefinition hcoherent (hsame id) hpart
      (.inl (Nat.le_refl 1))
  · exact length_rowsBehind_le_one hstored hdefinition hcoherent (hsame id) hpart hkind rfl

/-- The statement that puts an element under a name. -/
def nameElement (name element : String) : Statement :=
  .update ⟨"secondary_indexes", [.append "ELEMENT_IDS" (.set (.ofList [element]))],
    [Clause.eq "FIELD_VALUES" (.text name), Clause.eq "INDEX_LABEL_NAME" (.text "byName")]⟩

/-- A session creates the secondary index and puts elements under two names. -/
def writeTwoNames : List (String × Request) :=
  ("writer", .connect "graph") ::
    (ElementKind.secondaryIndex.layout.createTable ::
      ElementKind.secondaryIndex.layout.createIndexes).map
        (fun statement => ("writer", .changeSchema statement)) ++
  [("writer", .add (nameElement "marko" "1")), ("writer", .add (nameElement "josh" "2")),
    ("writer", .commit)]

/-- A fresh connection to the two names. -/
def toTwoNames : Connection :=
  ⟨(World.run {} writeTwoNames).cluster, { keyspace := "graph" }⟩

/-- The index is there. -/
theorem keeps_toTwoNames : toTwoNames.cluster.Keeps "graph" .secondaryIndex :=
  Cluster.keeps_iff.mpr (by decide +kernel)

/-- The query for some names with the limit 1. -/
def oneOf (names : List String) : Query where
  kind := .secondaryIndex
  ids := names.map fun name => .splice [name, "byName"]
  limit := 1

/-- The query for two names has two rows behind its answer, although its limit is 1. -/
theorem exceeds_limit_twoNames :
    toTwoNames.cluster.Reachable ∧ toTwoNames.cluster.Keeps "graph" .secondaryIndex ∧
      (oneOf ["marko", "josh"]).hasLimit = true ∧ (oneOf ["marko", "josh"]).limit.toNat = 1 ∧
      ∃ entries, (query ⟨.secondaryIndex, {}⟩ (oneOf ["marko", "josh"]) toTwoNames).1 =
          .ok entries ∧
        (entries.flatMap (Entry.rowsBehind .secondaryIndex)).length = 2 := by
  have hcount : ((query ⟨.secondaryIndex, {}⟩ (oneOf ["marko", "josh"]) toTwoNames).1.toOption.map
      fun entries => (entries.flatMap (Entry.rowsBehind .secondaryIndex)).length) = some 2 := by
    decide +kernel
  exact ⟨⟨writeTwoNames, rfl⟩, keeps_toTwoNames, by decide, by decide,
    exists_ok_of_map_toOption hcount⟩

/-- The limit bounds the answer for one name, and for two names the parts of the answer. -/
theorem query_within_limit_twoNames :
    (∃ entries, (query ⟨.secondaryIndex, {}⟩ (oneOf ["marko"]) toTwoNames).1 = .ok entries ∧
      entries.length = 1 ∧ (entries.flatMap (Entry.rowsBehind .secondaryIndex)).length ≤ 1) ∧
    ∃ (entries : List Entry) (parts : List (List Entry)),
      (query ⟨.secondaryIndex, {}⟩ (oneOf ["marko", "josh"]) toTwoNames).1 = .ok entries ∧
      entries.length = 2 ∧ entries = parts.flatten ∧
      ∀ part ∈ parts, (part.flatMap (Entry.rowsBehind .secondaryIndex)).length ≤ 1 := by
  have hone : ((query ⟨.secondaryIndex, {}⟩ (oneOf ["marko"]) toTwoNames).1.toOption.map
      (·.length)) = some 1 := by decide +kernel
  have htwo : ((query ⟨.secondaryIndex, {}⟩ (oneOf ["marko", "josh"]) toTwoNames).1.toOption.map
      (·.length)) = some 2 := by decide +kernel
  obtain ⟨first, hfirst, hfirstLength⟩ := exists_ok_of_map_toOption hone
  obtain ⟨both, hboth, hbothLength⟩ := exists_ok_of_map_toOption htwo
  have hreach : toTwoNames.cluster.Reachable := ⟨writeTwoNames, rfl⟩
  have hsingle := query_within_limit ⟨.secondaryIndex, {}⟩ toTwoNames hreach keeps_toTwoNames
    (by decide) hfirst
  have hparted := query_within_limit ⟨.secondaryIndex, {}⟩ toTwoNames hreach keeps_toTwoNames
    (by decide) hboth
  obtain ⟨parts, hentries, hparts⟩ := hparted.2 ⟨by decide, by simp [idColumns,
    ElementKind.idColumns]⟩
  refine ⟨⟨first, hfirst, hfirstLength, hsingle.1 (.inl (by decide))⟩,
    both, parts, hboth, hbothLength, hentries, fun part hpart => ?_⟩
  obtain ⟨id, -, -, hlength⟩ := exists_mem_of_forall₂ hparts hpart
  exact hlength.trans (Nat.min_le_right _ _)

end WideGraph.GraphTable
