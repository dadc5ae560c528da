import WideGraph.Proofs.GraphTable.Answer
import WideGraph.Proofs.Query.Sameness
import WideGraph.Store.World

/-!
# Conditions that are given again

A condition that is the same as one of a query is not added to it. The query is then answered as if
it had been added, as long as the two conditions are also written alike: where the one that is there
passes the check and matches a row, so does the other, and no row is left to it to refuse.
-/

namespace WideGraph

/-- What went wrong, without what was being done. -/
def BackendError.withoutContext : BackendError → BackendError
  | .store _ source => .store "" source
  | e => e

namespace StoredTable

variable (table : StoredTable)

section Repeated

variable {kept dropped : Clause} {as bs : List Clause} (hmem : kept ∈ as)
  (halike : kept.Alike dropped)

include hmem halike

/-- A clause that is like one ahead of it passes the check where that one does. -/
theorem checkLeaves_repeated (allowed : Bool) :
    table.checkLeaves allowed ((as ++ dropped :: bs).flatMap Clause.leaves) =
      table.checkLeaves allowed ((as ++ bs).flatMap Clause.leaves) := by
  rw [List.flatMap_append, List.flatMap_append, List.flatMap_cons, checkLeaves_append,
    checkLeaves_append, checkLeaves_append]
  cases hahead : table.checkLeaves allowed (as.flatMap Clause.leaves) with
  | error e => rfl
  | ok checked =>
    have hkept : table.checkLeaves allowed kept.leaves = .ok () :=
      checkLeaves_eq_ok_iff.mpr fun leaf hleaf =>
        checkLeaves_eq_ok_iff.mp hahead leaf (List.mem_flatMap_of_mem hmem hleaf)
    rw [← halike.checked, hkept]

/-- A clause that is like one ahead of it matches every row that is left to it. -/
theorem rowMatchesAll_repeated (key : RowKey) (row : StoredRow) :
    table.rowMatchesAll key row (as ++ dropped :: bs) = table.rowMatchesAll key row (as ++ bs) := by
  rw [rowMatchesAll_append, rowMatchesAll_append]
  cases hahead : table.rowMatchesAll key row as with
  | error e => rfl
  | ok matched =>
    cases matched with
    | false => rfl
    | true =>
      have hkept := rowMatchesAll_eq_true_iff.mp hahead kept hmem
      have hdropped : table.rowMatches key row dropped = .ok true := by
        rw [← toOption_eq_some_iff, ← halike.decided, hkept]
        rfl
      rw [rowMatchesAll, hdropped]

/-- Without a clause that is like one ahead of it a select is answered the same. -/
theorem select_repeated (select : Select) :
    table.select { select with clauses := as ++ dropped :: bs } =
      table.select { select with clauses := as ++ bs } := by
  rw [StoredTable.select, StoredTable.select, table.checkLeaves_repeated hmem halike,
    table.matchingRows_congr (table.rowMatchesAll_repeated hmem halike)]

end Repeated

end StoredTable

/-- Two selects are answered with the same rows or the same error from any cluster. -/
def Select.AnsweredAlike (select other : Select) : Prop :=
  ∀ (cluster : Cluster) (keyspace : String),
    cluster.read keyspace select = cluster.read keyspace other

namespace GraphTable

variable {table : GraphTable} {query : Query}

/-- The selects of a query that asks for something, before its conditions are added. -/
def seedSelects (table : GraphTable) (query : Query) : Except BackendError (List Select) := do
  let base ← table.baseSelect query
  let keys ← mapExcept table.idKeyValues query.ids
  let seeds := table.keyedSelects base keys
  let max := table.configuration.maxQueryStatements
  if max ≠ 0 ∧ max < seeds.length then
    .error (.invalidArgument (.tooManySelects table.name seeds.length max))
  else .ok seeds

/-- Only what is added to the selects of a query depends on its conditions. -/
theorem selects_eq_seedSelects (hempty : query.isEmptyByLimit = false)
    (conditions : List Condition) :
    table.selects { query with conditions } = table.seedSelects query >>= fun seeds =>
      (mapExcept (·.compile table.definition.partitionNames) conditions).map fun compiled =>
        seeds.map (restrict · compiled) := by
  have hunlimited : ¬ Query.isEmptyByLimit { query with conditions } = true := by
    change ¬ query.isEmptyByLimit = true
    rw [hempty]
    decide
  rw [selects, if_neg hunlimited, seedSelects]
  change (table.baseSelect query >>= _) = _
  cases table.baseSelect query with
  | error e => rfl
  | ok base =>
    change (mapExcept table.idKeyValues query.ids >>= _) =
      (mapExcept table.idKeyValues query.ids >>= _) >>= _
    cases mapExcept table.idKeyValues query.ids with
    | error e => rfl
    | ok keys =>
      simp only [bind, Except.bind]
      split
      · rfl
      · cases mapExcept (·.compile table.definition.partitionNames) conditions <;> rfl

/-- Two queries have selects that are answered alike, or are refused for the same reason. -/
inductive SelectsAlike : Except BackendError (List Select) → Except BackendError (List Select) → Prop
  | refused (e : BackendError) : SelectsAlike (.error e) (.error e)
  | made {selects others : List Select} (h : List.Forall₂ Select.AnsweredAlike selects others) :
      SelectsAlike (.ok selects) (.ok others)

/-- Without a compiled condition that is like one ahead of it a select is answered alike. -/
theorem answeredAlike_restrict {kept dropped : CompiledCondition} {as bs : List CompiledCondition}
    (hmem : kept ∈ as) (hclause : kept.clause.Alike dropped.clause)
    (hfiltering : kept.allowFiltering = dropped.allowFiltering) (select : Select) :
    (restrict select (as ++ dropped :: bs)).AnsweredAlike (restrict select (as ++ bs)) := by
  have hany : (as ++ dropped :: bs).any (·.allowFiltering) = (as ++ bs).any (·.allowFiltering) := by
    cases hdropped : dropped.allowFiltering with
    | false => simp [hdropped]
    | true =>
      have has : as.any (·.allowFiltering) = true :=
        List.any_eq_true.mpr ⟨kept, hmem, hfiltering.trans hdropped⟩
      rw [List.any_append, List.any_append, has, Bool.true_or, Bool.true_or]
  have hselect : ∀ stored : StoredTable, stored.select (restrict select (as ++ dropped :: bs)) =
      stored.select (restrict select (as ++ bs)) := by
    intro stored
    have hahead : kept.clause ∈ select.clauses ++ as.map (·.clause) :=
      List.mem_append_right _ (List.mem_map_of_mem hmem)
    simp only [restrict, hany, List.map_append, List.map_cons, ← List.append_assoc]
    exact stored.select_repeated hahead hclause { select with allowFiltering := _ }
  intro cluster keyspace
  simp only [Cluster.read, hselect]
  rfl

section Repeated

variable {kept dropped : Condition} {as : List Condition} (hmem : kept ∈ as)
  (halike : kept.ReadAlike dropped)

include hmem halike

/-- A condition that is read like one ahead of it is compiled if the conditions ahead of it are. -/
theorem mapExcept_compile_repeated (columns : List String) (bs : List Condition) :
    (∃ e, mapExcept (·.compile columns) (as ++ dropped :: bs) = .error e ∧
      mapExcept (·.compile columns) (as ++ bs) = .error e) ∨
    ∃ compiledAs compiledBs, ∃ compiledKept ∈ compiledAs, ∃ compiledDropped : CompiledCondition,
      mapExcept (·.compile columns) (as ++ dropped :: bs) =
        .ok (compiledAs ++ compiledDropped :: compiledBs) ∧
      mapExcept (·.compile columns) (as ++ bs) = .ok (compiledAs ++ compiledBs) ∧
      compiledKept.clause.Alike compiledDropped.clause ∧
      compiledKept.allowFiltering = compiledDropped.allowFiltering := by
  rw [mapExcept_append, mapExcept_append]
  cases hahead : mapExcept (·.compile columns) as with
  | error e => exact .inl ⟨e, rfl, rfl⟩
  | ok compiledAs =>
    obtain ⟨compiledKept, hkeptMem, hkept⟩ :=
      exists_mem_of_forall₂ (mapExcept_eq_ok_iff.mp hahead).flip hmem
    obtain ⟨compiledDropped, hdropped, hclause, hfiltering⟩ := halike.exists_compile hkept
    dsimp only
    rw [mapExcept, hdropped]
    cases hbehind : mapExcept (·.compile columns) bs with
    | error e => exact .inl ⟨e, rfl, rfl⟩
    | ok compiledBs =>
      exact .inr ⟨compiledAs, compiledBs, compiledKept, hkeptMem, compiledDropped, rfl, rfl,
        hclause, hfiltering⟩

/-- Without a condition that is read like one ahead of it a query has selects that are answered
alike, or is refused for the same reason. -/
theorem selects_repeated (bs : List Condition) :
    SelectsAlike (table.selects { query with conditions := as ++ dropped :: bs })
      (table.selects { query with conditions := as ++ bs }) := by
  cases hempty : query.isEmptyByLimit with
  | true =>
    have hselects : ∀ conditions, table.selects { query with conditions } = .ok [] :=
      fun conditions => if_pos hempty
    rw [hselects, hselects]
    exact .made .nil
  | false =>
    rw [selects_eq_seedSelects hempty, selects_eq_seedSelects hempty]
    cases table.seedSelects query with
    | error e => exact .refused e
    | ok seeds =>
      obtain ⟨e, hwith, hwithout⟩ | ⟨compiledAs, compiledBs, compiledKept, hkept, compiledDropped,
          hwith, hwithout, hclause, hfiltering⟩ :=
        mapExcept_compile_repeated hmem halike table.definition.partitionNames bs
      · simp only [hwith, hwithout]
        exact .refused e
      · simp only [hwith, hwithout]
        refine .made ?_
        rw [List.forall₂_map_left_iff, List.forall₂_map_right_iff, List.forall₂_same]
        exact fun select _ => answeredAlike_restrict hkept hclause hfiltering select

end Repeated

/-- The first select is answered before the others are, which find it in the history. -/
theorem runSelects_cons (table : GraphTable) (query : Query) (select : Select)
    (rest : List Select) (cluster : Cluster) (session : SessionState) :
    table.runSelects query (select :: rest) (⟨cluster, session⟩ : Connection) =
      let after : Connection := ⟨cluster, { session with history := select :: session.history }⟩
      match cluster.read session.keyspace select with
      | .error e => (.error (.store ("failed to query [" ++ query.shown ++ "]") e), after)
      | .ok rows =>
        match table.entriesOfRows query.kind rows with
        | .error e => (.error e, after)
        | .ok entries =>
          match table.runSelects query rest after with
          | (.error e, last) => (.error e, last)
          | (.ok more, last) => (.ok (entries ++ more), last) := by
  have hexecute : Session.execute select (⟨cluster, session⟩ : Connection) =
      (cluster.read session.keyspace select,
        ⟨cluster, { session with history := select :: session.history }⟩) := rfl
  rw [runSelects, SessionM.bind_apply, SessionM.ofStore, hexecute]
  cases cluster.read session.keyspace select with
  | error e => rfl
  | ok rows =>
    dsimp only
    rw [SessionM.bind_apply, SessionM.ofExcept]
    cases table.entriesOfRows query.kind rows with
    | error e => rfl
    | ok entries =>
      dsimp only
      rw [SessionM.bind_apply]
      rcases table.runSelects query rest _ with ⟨e | more, last⟩ <;> rfl

/-- Selects that are answered alike give the same entries, or fail at the same one. -/
theorem runSelects_congr {query other : Query} (hkind : query.kind = other.kind)
    {selects others : List Select} (h : List.Forall₂ Select.AnsweredAlike selects others)
    (cluster : Cluster) {session session' : SessionState}
    (hkeyspace : session.keyspace = session'.keyspace) :
    (table.runSelects query selects (⟨cluster, session⟩ : Connection)).1.mapError
        BackendError.withoutContext =
      (table.runSelects other others (⟨cluster, session'⟩ : Connection)).1.mapError
        BackendError.withoutContext := by
  induction h generalizing session session' with
  | nil => rfl
  | @cons select select' rest rest' hfirst _ ih =>
    rw [runSelects_cons, runSelects_cons, hfirst cluster session.keyspace, hkeyspace, hkind]
    cases cluster.read session'.keyspace select' with
    | error e => rfl
    | ok rows =>
      dsimp only
      cases table.entriesOfRows other.kind rows with
      | error e => rfl
      | ok entries =>
        have hrest := @ih { session with history := select :: session.history }
          { session' with history := select' :: session'.history } hkeyspace
        revert hrest
        dsimp only
        rw [hkeyspace]
        rcases table.runSelects query rest _ with ⟨e | more, _⟩ <;>
          rcases table.runSelects other rest' _ with ⟨e' | more', _⟩ <;> intro hrest
        · exact hrest
        · cases hrest
        · cases hrest
        · cases hrest
          rfl

/-- Queries for one kind with selects that are answered alike are answered alike. -/
theorem query_congr {query other : Query} (hkind : query.kind = other.kind)
    (h : SelectsAlike (table.selects query) (table.selects other)) (c : Connection) :
    (table.query query c).1.mapError BackendError.withoutContext =
      (table.query other c).1.mapError BackendError.withoutContext := by
  obtain ⟨cluster, session⟩ := c
  rw [GraphTable.query, GraphTable.query, SessionM.bind_apply, SessionM.bind_apply,
    SessionM.ofExcept, SessionM.ofExcept]
  revert h
  generalize table.selects query = result, table.selects other = result'
  intro h
  cases h with
  | refused e => rfl
  | made h => exact runSelects_congr hkind h cluster rfl

end GraphTable

namespace Query

variable {query : Query} {condition : Condition}

/-- A condition is not added if there is one that is the same. -/
theorem withCondition_of_same (h : query.conditions.any (·.same condition) = true) :
    query.withCondition condition = query :=
  if_pos h

/-- A condition that is the same as none is added behind the others. -/
theorem withCondition_of_new (h : query.conditions.any (·.same condition) = false) :
    query.withCondition condition = { query with conditions := query.conditions ++ [condition] } :=
  if_neg (by simp [h])

/-- A condition is dropped if there is one that is the same, and in no other case. -/
theorem withCondition_eq_self_iff :
    query.withCondition condition = query ↔ ∃ kept ∈ query.conditions, kept.same condition = true := by
  rw [← List.any_eq_true]
  cases h : query.conditions.any (·.same condition) with
  | true => exact iff_of_true (withCondition_of_same h) rfl
  | false =>
    rw [withCondition_of_new h]
    refine iff_of_false (fun heq => ?_) (by decide)
    have hlength := congrArg (fun query : Query => query.conditions.length) heq
    simp at hlength

/-- The conditions of a query to which some are added are among its own and those. -/
theorem conditions_foldl_subset (query : Query) (added : List Condition) :
    (added.foldl withCondition query).conditions ⊆ query.conditions ++ added := by
  induction added generalizing query with
  | nil => simp
  | cons condition rest ih =>
    apply List.Subset.trans (ih (query.withCondition condition))
    cases h : query.conditions.any (·.same condition) with
    | true =>
      rw [withCondition_of_same h]
      exact List.append_subset.mpr ⟨List.subset_append_left _ _,
        List.subset_append_of_subset_right _ (List.subset_cons_self _ _)⟩
    | false =>
      rw [withCondition_of_new h, List.append_assoc]
      exact List.Subset.refl _

end Query

namespace GraphTable

/-- Without a condition that is read like one ahead of it a query is answered alike. -/
theorem query_repeated {table : GraphTable} {query : Query} {kept dropped : Condition}
    {as bs : List Condition} (hmem : kept ∈ as) (halike : kept.ReadAlike dropped) (c : Connection) :
    (table.query { query with conditions := as ++ dropped :: bs } c).1.mapError
        BackendError.withoutContext =
      (table.query { query with conditions := as ++ bs } c).1.mapError
        BackendError.withoutContext :=
  @query_congr table { query with conditions := as ++ dropped :: bs }
    { query with conditions := as ++ bs } rfl (selects_repeated hmem halike bs) c

/-- A query to which conditions are added one by one is answered like the query for all of them, if
those that are the same are written alike. -/
theorem query_foldl_withCondition (table : GraphTable) (query : Query) (added : List Condition)
    (halike : ∀ kept ∈ query.conditions ++ added, ∀ dropped ∈ added, kept.same dropped = true →
      kept.writtenAlike dropped = true)
    (c : Connection) :
    (table.query (added.foldl Query.withCondition query) c).1.mapError
        BackendError.withoutContext =
      (table.query { query with conditions := query.conditions ++ added } c).1.mapError
        BackendError.withoutContext := by
  induction added generalizing query with
  | nil => rw [List.append_nil]; rfl
  | cons condition rest ih =>
    rw [List.foldl_cons]
    cases hsame : query.conditions.any (·.same condition) with
    | true =>
      obtain ⟨kept, hkept, hkeptSame⟩ := List.any_eq_true.mp hsame
      have hread : kept.ReadAlike condition := Condition.readAlike_of_same hkeptSame
        (halike kept (List.mem_append_left _ hkept) condition List.mem_cons_self hkeptSame)
      rw [Query.withCondition_of_same hsame]
      have hrest := ih query fun kept hkept dropped hdropped => halike kept
        (List.mem_append.mpr ((List.mem_append.mp hkept).imp_right (List.mem_cons_of_mem _)))
        dropped (List.mem_cons_of_mem _ hdropped)
      exact hrest.trans (query_repeated hkept hread c).symm
    | false =>
      rw [Query.withCondition_of_new hsame]
      have hregroup : query.conditions ++ condition :: rest =
          (query.conditions ++ [condition]) ++ rest := by rw [List.append_assoc]; rfl
      rw [hregroup] at halike ⊢
      exact ih { query with conditions := query.conditions ++ [condition] }
        fun kept hkept dropped hdropped => halike kept hkept dropped (List.mem_cons_of_mem _ hdropped)

/-- Adding conditions one by one makes no difference to the answer, if those that are the same are
written alike. A condition is dropped exactly if one that is there already is the same, and any such
condition holds of the same rows, whatever table they are in and whatever is seen in it. The query
is answered with the same entries as the query for all conditions that have been added, or fails for
the same reason; a failure of the store names the query that was run. -/
theorem withCondition_unless_written_apart (table : GraphTable) (query : Query)
    (added : List Condition)
    (halike : ∀ kept ∈ query.conditions ++ added, ∀ dropped ∈ added, kept.same dropped = true →
      kept.writtenAlike dropped = true) :
    (∀ earlier condition later, added = earlier ++ condition :: later →
      ((earlier.foldl Query.withCondition query).withCondition condition =
          earlier.foldl Query.withCondition query ↔
        ∃ kept ∈ (earlier.foldl Query.withCondition query).conditions,
          kept.same condition = true) ∧
      ∀ kept ∈ (earlier.foldl Query.withCondition query).conditions, kept.same condition = true →
        ∀ (d : TableDefinition) (token : Int64) (cell? : Column → Option Value),
          kept.holds d token cell? = condition.holds d token cell?) ∧
    ∀ c : Connection,
      (table.query (added.foldl Query.withCondition query) c).1.mapError
          BackendError.withoutContext =
        (table.query { query with conditions := query.conditions ++ added } c).1.mapError
          BackendError.withoutContext := by
  refine ⟨fun earlier condition later hadded =>
    ⟨Query.withCondition_eq_self_iff, fun kept hkept hsame => ?_⟩,
    query_foldl_withCondition table query added halike⟩
  have hmem : kept ∈ query.conditions ++ added := by
    rw [hadded, ← List.append_assoc]
    exact List.mem_append_left _ (query.conditions_foldl_subset earlier hkept)
  have hcondition : condition ∈ added := by
    rw [hadded]
    exact List.mem_append_right _ List.mem_cons_self
  exact (Condition.readAlike_of_same hsame (halike kept hmem condition hcondition hsame)).holds_eq

/-- A session creates the vertex table with its indexes and writes a vertex with numbers as keys. -/
def writeNumbers : List (String × Request) :=
  ("writer", .connect "graph") ::
    (ElementKind.vertex.layout.createTable :: ElementKind.vertex.layout.createIndexes).map
      (fun statement => ("writer", .changeSchema statement)) ++
  [("writer", .add (.insert ⟨"vertices", [("ID", .text "1"),
      ("PROPERTIES", .map (.ofList [("3", "x"), ("1152921504606846976", "y")]))]⟩)),
    ("writer", .commit)]

/-- A fresh connection to the vertex. -/
def toNumbers : Connection :=
  ⟨(World.run {} writeNumbers).cluster, { keyspace := "graph" }⟩

/-- The conditions that a vertex has a number as a key, given as a whole number and as a decimal. -/
def numberTwice (n : Int64) : List Condition :=
  [.relation ⟨"PROPERTIES", .containsKey, .value (.bigint n)⟩,
    .relation ⟨"PROPERTIES", .containsKey, .value (.decimal (Binary64.ofInt n.toInt))⟩]

/-- A vertex is asked for the key three, as a whole number and as a decimal. Only the first is kept,
and the vertex is found as it is with both. -/
theorem withCondition_unless_written_apart_three :
    ((numberTwice 3).foldl Query.withCondition (Query.all .vertex)).conditions.length = 1 ∧
    ∃ entries, (query ⟨.vertex, {}⟩ { kind := .vertex, conditions := numberTwice 3 } toNumbers).1 =
      .ok entries ∧ entries.length = 1 := by
  have hcount : ((query ⟨.vertex, {}⟩ ((numberTwice 3).foldl Query.withCondition
      (Query.all .vertex)) toNumbers).1.toOption.map (·.length)) = some 1 := by decide +kernel
  obtain ⟨entries, hquery, hlength⟩ := exists_ok_of_map_toOption hcount
  have hboth := (withCondition_unless_written_apart ⟨.vertex, {}⟩ (Query.all .vertex)
    (numberTwice 3) (by decide +kernel)).2 toNumbers
  rw [hquery] at hboth
  exact ⟨by decide +kernel, entries, mapError_ok_iff.mp hboth.symm, hlength⟩

/-- Adding conditions one by one can make a difference to the answer. The whole number 2^60 is the
same as the decimal but has other digits, and a vertex that has only the one as a key is found by
a query to which both have been added. -/
theorem same_key_widens_query :
    ¬ ∀ (table : GraphTable) (query : Query) (added : List Condition) (c : Connection)
      (entries : List Entry), c.cluster.Reachable →
      (table.query (added.foldl Query.withCondition query) c).1 = .ok entries →
      (table.query { query with conditions := query.conditions ++ added } c).1 = .ok entries := by
  intro hall
  have hone : ((query ⟨.vertex, {}⟩ ((numberTwice 1152921504606846976).foldl Query.withCondition
      (Query.all .vertex)) toNumbers).1.toOption.map (·.length)) = some 1 := by decide +kernel
  have hnone : ((query ⟨.vertex, {}⟩
      { kind := .vertex, conditions := numberTwice 1152921504606846976 } toNumbers).1.toOption.map
        (·.length)) = some 0 := by decide +kernel
  obtain ⟨entries, hquery, hlength⟩ := exists_ok_of_map_toOption hone
  have hboth : (query ⟨.vertex, {}⟩
      { kind := .vertex, conditions := numberTwice 1152921504606846976 } toNumbers).1 =
        .ok entries :=
    hall ⟨.vertex, {}⟩ (Query.all .vertex) _ toNumbers entries ⟨writeNumbers, rfl⟩ hquery
  rw [hboth] at hnone
  simp [Except.toOption, hlength] at hnone

end GraphTable

end WideGraph
