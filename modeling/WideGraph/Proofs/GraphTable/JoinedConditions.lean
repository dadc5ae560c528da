import WideGraph.Proofs.GraphTable.FanOut
import WideGraph.Proofs.Store.Nesting

/-!
# Conditions given one by one or joined

The conditions of a query all have to hold, and so do those that a conjunction joins. A query for
several conditions has the same selects as the query for their conjunction but for how the clauses
are grouped, as long as the conjunction is not too deep to be compiled, and is answered with the
same entries.
-/

namespace WideGraph

/-- A condition joins conditions from left to right, grouped in any way. -/
inductive Condition.Joins : Condition → List Condition → Prop where
  | single (condition : Condition) : condition.Joins [condition]
  | and {left right : Condition} {lefts rights : List Condition} (hleft : left.Joins lefts)
      (hright : right.Joins rights) : (Condition.and left right).Joins (lefts ++ rights)

namespace Condition

namespace Joins

variable {joined : Condition} {conditions : List Condition}

/-- The relations of joined conditions follow one another. -/
theorem relations_eq (h : joined.Joins conditions) :
    joined.relations = conditions.flatMap relations := by
  induction h with
  | single condition => simp
  | and _ _ ihleft ihright => rw [relations, ihleft, ihright, List.flatMap_append]

/-- No condition is deeper than one that joins it to others. -/
theorem depth_le (h : joined.Joins conditions) :
    ∀ condition ∈ conditions, condition.depth ≤ joined.depth := by
  induction h with
  | single condition => simp
  | and _ _ ihleft ihright =>
    refine List.forall_mem_append.mpr ⟨fun condition hmem => ?_, fun condition hmem => ?_⟩
    · have := ihleft condition hmem
      rw [depth]
      omega
    · have := ihright condition hmem
      rw [depth]
      omega

/-- No node of joined conditions offends if none of any of them does. -/
theorem sound_iff (h : joined.Joins conditions) :
    (∀ node ∈ joined.nodes, ∀ e, ¬ node.Offends e) ↔
      ∀ condition ∈ conditions, ∀ node ∈ condition.nodes, ∀ e, ¬ node.Offends e := by
  induction h with
  | single condition => simp
  | and _ _ ihleft ihright =>
    rw [nodes, List.forall_mem_cons, List.forall_mem_append, List.forall_mem_append, ihleft,
      ihright]
    exact and_iff_right (not_offends_and _ _)

/-- Joined conditions that are not too deep are compiled if every one of them is. -/
theorem exists_compile_iff (h : joined.Joins conditions) (hdepth : joined.depth ≤ maxDepth)
    (columns : List String) :
    (∃ compiled, joined.compile columns = .ok compiled) ↔
      ∀ condition ∈ conditions, ∃ compiled, condition.compile columns = .ok compiled := by
  simp only [(compile_expressible _ columns).1]
  rw [h.sound_iff]
  constructor
  · exact fun hsound condition hmem =>
      ⟨(h.depth_le condition hmem).trans hdepth, hsound.2 condition hmem⟩
  · exact fun hall => ⟨hdepth, fun condition hmem => (hall condition hmem).2⟩

end Joins

/-- The clauses of compiled conditions come apart into the comparisons of their relations. -/
theorem flatMap_leaves_compiled {conditions : List Condition} {columns : List String}
    {compiled : List CompiledCondition}
    (h : List.Forall₂ (fun condition c => condition.compile columns = .ok c) conditions compiled) :
    (compiled.map (·.clause)).flatMap Clause.leaves =
      (conditions.flatMap relations).flatMap (·.comparisons columns) := by
  induction h with
  | nil => rfl
  | cons hfirst _ ih =>
    rw [List.map_cons, List.flatMap_cons, List.flatMap_cons, List.flatMap_append, ih,
      (expresses_of_compile hfirst).leaves_eq]

end Condition

namespace GraphTable

/-- Conditions with the same relations restrict a select alike but for the grouping. -/
theorem flat_restrict_congr {columns : List String} {as bs : List Condition}
    {compiled compiled' : List CompiledCondition}
    (hrelations : as.flatMap Condition.relations = bs.flatMap Condition.relations)
    (h : List.Forall₂ (fun condition c => condition.compile columns = .ok c) as compiled)
    (h' : List.Forall₂ (fun condition c => condition.compile columns = .ok c) bs compiled')
    (select : Select) : (restrict select compiled).flat = (restrict select compiled').flat := by
  have hfiltering : compiled.any (·.allowFiltering) = compiled'.any (·.allowFiltering) := by
    rw [Bool.eq_iff_iff, any_allowFiltering_iff h, any_allowFiltering_iff h']
    have hkeys : ∀ conditions : List Condition,
        (∃ condition ∈ conditions, ∃ r ∈ condition.relations, r.kind = .containsKey) ↔
          ∃ r ∈ conditions.flatMap Condition.relations, r.kind = .containsKey := by
      intro conditions
      simp only [List.mem_flatMap]
      tauto
    rw [hkeys, hkeys, hrelations]
  simp only [restrict, Select.flat, List.flatMap_append, hfiltering,
    Condition.flatMap_leaves_compiled h, Condition.flatMap_leaves_compiled h', hrelations]

/-- With its conjunctions taken apart a select gives the same entries. -/
theorem answers_flat {table : GraphTable} {cluster : Cluster} {keyspace : String}
    {kind : ElementKind} {select : Select} {entries : List Entry} :
    table.Answers cluster keyspace kind select.flat entries ↔
      table.Answers cluster keyspace kind select entries := by
  have hread : cluster.read keyspace select.flat = cluster.read keyspace select :=
    Select.execute_congr_flat select.flat_flat ⟨cluster, { keyspace }⟩
  rw [Answers, Answers, hread]

section SameRelations

variable {table : GraphTable} {query : Query} {as bs : List Condition}
  (hrelations : as.flatMap Condition.relations = bs.flatMap Condition.relations)
  (hcompiled : (∀ a ∈ as, ∃ c, a.compile table.definition.partitionNames = .ok c) →
    ∀ b ∈ bs, ∃ c, b.compile table.definition.partitionNames = .ok c)

include hrelations hcompiled

/-- Queries for conditions with the same relations have the same selects but for the grouping. -/
theorem selects_congr_relations {selects : List Select}
    (h : table.selects { query with conditions := as } = .ok selects) :
    ∃ others, table.selects { query with conditions := bs } = .ok others ∧
      selects.map Select.flat = others.map Select.flat := by
  have hlimit : ∀ conditions : List Condition,
      Query.isEmptyByLimit { query with conditions } = query.isEmptyByLimit := fun _ => rfl
  cases hempty : query.isEmptyByLimit with
  | true =>
    have hselects : ∀ conditions : List Condition,
        table.selects { query with conditions } = .ok [] := by
      intro conditions
      rw [GraphTable.selects, if_pos ((hlimit conditions).trans hempty)]
    rw [hselects, Except.ok.injEq] at h
    exact ⟨[], hselects bs, by rw [← h]⟩
  | false =>
    obtain ⟨base, keys, compiled, hbase, hkeys, hconditions, hfew, rfl⟩ :=
      (selects_eq_ok_iff_base ((hlimit as).trans hempty)).mp h
    have hparts := mapExcept_eq_ok_iff.mp hconditions
    obtain ⟨compiled', hconditions'⟩ := exists_mapExcept_iff.mpr
      (hcompiled (exists_mapExcept_iff.mp ⟨compiled, hconditions⟩))
    refine ⟨_, (selects_eq_ok_iff_base ((hlimit bs).trans hempty)).mpr
      ⟨base, keys, compiled', hbase, hkeys, hconditions', hfew, rfl⟩, ?_⟩
    rw [List.map_map, List.map_map, List.map_inj_left]
    exact fun select _ => flat_restrict_congr hrelations hparts
      (mapExcept_eq_ok_iff.mp hconditions') select

/-- Queries for conditions with the same relations are answered with the same entries. -/
theorem query_congr_relations {c : Connection} {entries : List Entry}
    (h : (table.query { query with conditions := as } c).1 = .ok entries) :
    (table.query { query with conditions := bs } c).1 = .ok entries := by
  obtain ⟨selects, parts, hselects, hparts, rfl⟩ := query_eq_ok_iff.mp h
  obtain ⟨others, hothers, hflat⟩ := selects_congr_relations hrelations hcompiled hselects
  refine query_eq_ok_iff.mpr ⟨others, parts, hothers, ?_, rfl⟩
  have hflatParts := List.forall₂_map_left_iff.mpr (hparts.imp fun _ _ => answers_flat.mpr)
  rw [hflat] at hflatParts
  exact (List.forall₂_map_left_iff.mp hflatParts).imp fun _ _ => answers_flat.mp

end SameRelations

/-- A query for conditions one by one is answered like the query for a condition that joins them and
is not too deep. -/
theorem query_joined_iff {table : GraphTable} {query : Query} {conditions : List Condition}
    {joined : Condition}
    (hjoins : joined.Joins conditions) (hdepth : joined.depth ≤ Condition.maxDepth)
    {c : Connection} {entries : List Entry} :
    (table.query { query with conditions } c).1 = .ok entries ↔
      (table.query { query with conditions := [joined] } c).1 = .ok entries := by
  have hrelations : conditions.flatMap Condition.relations =
      [joined].flatMap Condition.relations := by
    rw [List.flatMap_singleton, hjoins.relations_eq]
  have hcompiled := hjoins.exists_compile_iff hdepth table.definition.partitionNames
  constructor
  · exact query_congr_relations hrelations fun h =>
      List.forall_mem_singleton.mpr (hcompiled.mpr h)
  · exact query_congr_relations hrelations.symm fun h =>
      hcompiled.mp (h joined (List.mem_singleton_self joined))

/-- How conjunctions are nested makes no difference. A select is answered with the same rows or the
same error if its clauses are replaced by others that come apart into the same ones; it needs
filtering with the ones exactly if it does with the others, and its text and its values are the
same. A query for conditions one by one is answered with the same entries as the query for a
conjunction that joins them and is not too deep, or both fail. -/
theorem nesting_irrelevant :
    (∀ (select : Select) (clauses : List Clause),
      select.clauses.flatMap Clause.leaves = clauses.flatMap Clause.leaves →
      (∀ c : Connection, (c.execute select).1 = (c.execute { select with clauses }).1) ∧
      ((∃ clause ∈ select.clauses, clause.needsFiltering = true) ↔
        ∃ clause ∈ clauses, clause.needsFiltering = true) ∧
      select.bound = Select.bound { select with clauses }) ∧
    ∀ (table : GraphTable) (query : Query) (conditions : List Condition) (joined : Condition),
      joined.Joins conditions → joined.depth ≤ Condition.maxDepth →
      ∀ (c : Connection) (entries : List Entry),
        (table.query { query with conditions } c).1 = .ok entries ↔
          (table.query { query with conditions := [joined] } c).1 = .ok entries := by
  refine ⟨fun select clauses hleaves => ?_, fun _ _ _ _ hjoins hdepth _ _ =>
    query_joined_iff hjoins hdepth⟩
  have hflat : select.flat = Select.flat { select with clauses } := by
    rw [Select.flat, Select.flat, hleaves]
  refine ⟨Select.execute_congr_flat hflat, ?_, Select.bound_congr_flat hflat⟩
  rw [← List.any_eq_true, ← List.any_eq_true, ← any_flatMap_leaves_needsFiltering select.clauses,
    hleaves, any_flatMap_leaves_needsFiltering]

/-- The condition that a vertex has one of two identifiers. -/
def ofTwo : Condition :=
  .relation ⟨"ID", .isIn, .list [.value (.text "1"), .value (.text "2")]⟩

/-- The condition that a vertex lies anywhere on the token ring. -/
def anywhere : Condition :=
  .scan "-9223372036854775808" "9223372036854775807"

/-- The condition that the identifier of a vertex is not behind a text. -/
def notBehind (text : String) : Condition :=
  .relation ⟨"ID", .compare .lte, .value (.text text)⟩

/-- A select of the first vertex, if it has a key and its token is below one that is no number. -/
def belowNoNumber : Select where
  table := "vertices"
  clauses := [.and (.and (Clause.eq "ID" (.text "1")) (.containsKey "PROPERTIES" (.text "age")))
    (.tokenBelow ["ID"] "none")]
  allowFiltering := true

/-- The clauses of the select grouped in another way. -/
def regrouped : List Clause :=
  [Clause.eq "ID" (.text "1"),
    .and (.containsKey "PROPERTIES" (.text "age")) (.tokenBelow ["ID"] "none")]

/-- Clauses of which the last cannot be evaluated are grouped in two ways, and conditions are given
one by one and joined. -/
theorem nesting_irrelevant_twoVertices :
    (toTwoVertices.execute belowNoNumber).1 =
      (toTwoVertices.execute { belowNoNumber with clauses := regrouped }).1 ∧
    ∃ entries, (GraphTable.query ⟨.vertex, {}⟩
        { kind := .vertex, conditions := [ofTwo, anywhere, notBehind "1"] } toTwoVertices).1 =
        .ok entries ∧ entries.length = 1 ∧
      (GraphTable.query ⟨.vertex, {}⟩
        { kind := .vertex, conditions := [.and ofTwo (.and anywhere (notBehind "1"))] }
        toTwoVertices).1 = .ok entries := by
  have hcount : ((GraphTable.query ⟨.vertex, {}⟩
      { kind := .vertex, conditions := [ofTwo, anywhere, notBehind "1"] }
      toTwoVertices).1.toOption.map (·.length)) = some 1 := by decide +kernel
  obtain ⟨entries, hquery, hlength⟩ := exists_ok_of_map_toOption hcount
  have hjoins : (Condition.and ofTwo (.and anywhere (notBehind "1"))).Joins
      [ofTwo, anywhere, notBehind "1"] :=
    .and (.single _) (.and (.single _) (.single _))
  refine ⟨(nesting_irrelevant.1 belowNoNumber regrouped rfl).1 toTwoVertices, entries, hquery,
    hlength, ?_⟩
  exact (nesting_irrelevant.2 ⟨.vertex, {}⟩ { kind := .vertex } _ _ hjoins (by decide) toTwoVertices
    entries).mp hquery

end GraphTable

end WideGraph
