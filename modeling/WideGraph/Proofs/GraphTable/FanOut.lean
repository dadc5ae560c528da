import WideGraph.Proofs.FirstFault
import WideGraph.Proofs.GraphTable.QueryReading
import WideGraph.Proofs.Query.Compilation

/-!
# The selects that a query fans out into

A query with a limit of zero needs no select, whatever else it asks for. Otherwise its limit, its
identifiers, the number of its selects and its conditions are checked in turn, and the first fault
is reported. A query without fault has one select, or one for each identifier where identifiers
decode into several columns. Every select is restricted by its own identifiers and by all conditions
of the query, and by nothing else.
-/

namespace WideGraph

/-- The limit of a query is beyond the largest of a select, and is not the one that stands for
none. -/
def Query.LimitTooLarge (query : Query) : Prop :=
  2 ^ 31 - 1 < query.limit.toNat ∧ query.limit.toNat < 2 ^ 64 - 1

namespace GraphTable

variable (table : GraphTable) (query : Query)

/-- The number of selects of a query: one for each identifier if there are any and they decode into
several columns. -/
def selectCount : Nat :=
  if query.ids = [] ∨ table.idColumns.length = 1 then 1 else query.ids.length

/-- A query has more selects than the configuration admits, which sets no bound if it says zero. -/
def TooManySelects : Prop :=
  table.configuration.maxQueryStatements ≠ 0 ∧
    table.configuration.maxQueryStatements < table.selectCount query

/-- What can be wrong with a query, in the order in which it is checked. -/
def queryFaults : List (BackendError → Prop) :=
  [fun e => query.LimitTooLarge ∧
      e = .invalidArgument (.limitTooLarge query.limit table.name (2 ^ 31 - 1)),
    FirstFault (fun id e => table.idKeyValues id = .error e) query.ids,
    fun e => table.TooManySelects query ∧
      e = .invalidArgument (.tooManySelects table.name (table.selectCount query)
        table.configuration.maxQueryStatements),
    FirstFault (fun condition e =>
      condition.compile table.definition.partitionNames = .error e) query.conditions]

/-- The select of a query with compiled conditions for some identifiers, which restrict it in their
own way. -/
def selectFor (conditions : List CompiledCondition) (restrictions : List Clause) : Select where
  table := table.name
  clauses := restrictions ++ conditions.map (·.clause)
  orders := query.orders.map fun order => (order.1.nativeName, order.2)
  limit := if query.limit = Query.noLimit then none else some query.limit.toNat
  allowFiltering := conditions.any (·.allowFiltering)

/-- A query fans out into selects: an unrestricted one if it has no identifiers, one for all of them
as alternatives if they decode into one column, and otherwise one for each of them, which has an
equality for every id column in the order of the columns. -/
inductive FansOut (selectFor : List Clause → Select) : List Select → Prop where
  | unrestricted (hids : query.ids = []) : FansOut selectFor [selectFor []]
  | alternatives {column : Column} {values : List Value} (hids : query.ids ≠ [])
      (hcolumns : table.idColumns = [column])
      (hvalues : List.Forall₂ (fun id value => table.idKeyValues id = .ok [(column, value)])
        query.ids values) :
      FansOut selectFor [selectFor [.isIn column.nativeName values]]
  | equalities {selects : List Select} (hids : query.ids ≠ [])
      (hcolumns : table.idColumns.length ≠ 1)
      (hselects : List.Forall₂ (fun id select => ∃ values,
          values.length = table.idColumns.length ∧
          table.idKeyValues id = .ok (table.idColumns.zip values) ∧
          select = selectFor (List.zipWith (fun column value => Clause.eq column.nativeName value)
            table.idColumns values))
        query.ids selects) :
      FansOut selectFor selects

variable {table query}

/-- The largest limit is a signed number of thirty-two bits, and the one that stands for none is the
largest number of sixty-four bits. -/
theorem limitTooLarge_iff : query.LimitTooLarge ↔
    (query.hasLimit && decide (Select.maxLimit < query.limit.toNat)) = true := by
  have hmax : Select.maxLimit = 2 ^ 31 - 1 := by decide
  have hnone : query.limit = Query.noLimit ↔ query.limit.toNat = 2 ^ 64 - 1 :=
    UInt64.toNat_inj.symm
  have hbound := query.limit.toNat_lt
  rw [Query.LimitTooLarge, Query.hasLimit, Bool.and_eq_true, bne_iff_ne, decide_eq_true_iff, hmax,
    ne_eq, hnone]
  omega

/-- A limit that is too large is the only fault of a base select. -/
theorem baseSelect_eq_error_iff (e : BackendError) : table.baseSelect query = .error e ↔
    query.LimitTooLarge ∧
      e = .invalidArgument (.limitTooLarge query.limit table.name (2 ^ 31 - 1)) := by
  have hmax : Select.maxLimit = 2 ^ 31 - 1 := by decide
  rw [baseSelect, limitTooLarge_iff, ← hmax]
  split
  · rename_i hlarge
    simp [hlarge, eq_comm]
  · rename_i hfits
    exact iff_of_false (by simp) fun h => hfits h.1

/-- The base select has the table, the orders and the limit of a query. -/
theorem eq_selectFor_of_baseSelect {base : Select} (h : table.baseSelect query = .ok base) :
    base = table.selectFor query [] [] := by
  rw [baseSelect] at h
  split at h
  · cases h
  · cases h
    cases hlimit : query.hasLimit with
    | true =>
      have hne : query.limit ≠ Query.noLimit := bne_iff_ne.mp hlimit
      simp [selectFor, hne]
    | false =>
      have heq : query.limit = Query.noLimit := bne_eq_false_iff_eq.mp hlimit
      simp [selectFor, heq]

/-- Conditions are added behind what restricts a select to its identifiers. -/
theorem restrict_selectFor (conditions : List CompiledCondition) (restrictions : List Clause) :
    restrict { table.selectFor query [] [] with clauses := restrictions } conditions =
      table.selectFor query conditions restrictions := by
  simp [restrict, selectFor]

/-- What an identifier decodes into has the id columns in their order. -/
theorem exists_values_of_idKeyValues {id : Identifier} {key : List (Column × Value)}
    (h : table.idKeyValues id = .ok key) :
    ∃ values, values.length = table.idColumns.length ∧ key = table.idColumns.zip values := by
  refine ⟨key.map (·.2), ?_, ?_⟩
  · rw [← (isIdKey_of_idKeyValues h).columns_eq, List.length_map, List.length_map]
  · rw [← (isIdKey_of_idKeyValues h).columns_eq]
    exact List.zip_of_prod rfl rfl

/-- Where there is a single id column, identifiers decode into one value each. -/
theorem exists_values_of_single {column : Column} (hcolumns : table.idColumns = [column])
    {ids : List Identifier} {keys : List (List (Column × Value))}
    (hkeys : List.Forall₂ (fun id key => table.idKeyValues id = .ok key) ids keys) :
    ∃ values, keys = values.map (fun value => [(column, value)]) ∧
      List.Forall₂ (fun id value => table.idKeyValues id = .ok [(column, value)]) ids values := by
  refine exists_map_of_forall₂ (hkeys.imp fun id key hkey => ?_)
  obtain ⟨values, hlength, rfl⟩ := exists_values_of_idKeyValues hkey
  rw [hcolumns] at hlength hkey ⊢
  obtain ⟨value, rfl⟩ := List.length_eq_one_iff.mp hlength
  exact ⟨value, rfl, hkey⟩

/-- The selects for decoded identifiers are those into which the query fans out. -/
theorem fansOut_keyedSelects {keys : List (List (Column × Value))}
    (hkeys : List.Forall₂ (fun id key => table.idKeyValues id = .ok key) query.ids keys)
    (conditions : List CompiledCondition) :
    table.FansOut query (table.selectFor query conditions)
      ((table.keyedSelects (table.selectFor query [] []) keys).map (restrict · conditions)) := by
  rcases keys with _ | ⟨key, rest⟩
  · exact .unrestricted (List.forall₂_nil_right_iff.mp hkeys)
  have hids : query.ids ≠ [] := by
    intro hids
    rw [hids] at hkeys
    cases hkeys
  by_cases hone : ∃ column, table.idColumns = [column]
  · obtain ⟨column, hcolumns⟩ := hone
    obtain ⟨values, hkeysEq, hvalues⟩ := exists_values_of_single hcolumns hkeys
    have hflat : (key :: rest).flatten.map (·.2) = values := by
      rw [hkeysEq, ← List.flatMap_def, List.map_flatMap]
      exact List.flatMap_singleton' values
    simp only [keyedSelects, hcolumns, hflat, List.map_cons, List.map_nil, restrict_selectFor]
    exact .alternatives hids hcolumns hvalues
  · rw [keyedSelects_of_not_single hone, List.map_map]
    refine .equalities hids (mt List.length_eq_one_iff.mp hone) ?_
    rw [List.forall₂_map_right_iff]
    refine hkeys.imp fun id key hkey => ?_
    obtain ⟨values, hlength, rfl⟩ := exists_values_of_idKeyValues hkey
    refine ⟨values, hlength, hkey, ?_⟩
    rw [Function.comp_apply, restrict_selectFor, List.map_zip_eq_zipWith]
    rfl

/-- A query fans out into as many selects as are counted. -/
theorem FansOut.length_eq {selectFor : List Clause → Select} {selects : List Select}
    (h : table.FansOut query selectFor selects) : selects.length = table.selectCount query := by
  cases h with
  | unrestricted hids => simp [selectCount, hids]
  | alternatives hids hcolumns => simp [selectCount, hcolumns]
  | equalities hids hcolumns hselects =>
    rw [selectCount, if_neg (not_or.mpr ⟨hids, hcolumns⟩), hselects.length_eq]

/-- The filtering of a select is that of its compiled conditions. -/
theorem FansOut.allowFiltering_eq {conditions : List CompiledCondition} {selects : List Select}
    (h : table.FansOut query (table.selectFor query conditions) selects) :
    ∀ select ∈ selects, select.allowFiltering = conditions.any (·.allowFiltering) := by
  cases h with
  | unrestricted hids => simp [selectFor]
  | alternatives hids hcolumns hvalues => simp [selectFor]
  | equalities hids hcolumns hselects =>
    intro select hmem
    obtain ⟨id, -, values, -, -, rfl⟩ := exists_mem_of_forall₂ hselects hmem
    rfl

/-- Some compiled condition needs filtering if a condition asks for a key. -/
theorem any_allowFiltering_iff {conditions : List Condition} {compiled : List CompiledCondition}
    {columns : List String}
    (h : List.Forall₂ (fun condition c => condition.compile columns = .ok c) conditions compiled) :
    compiled.any (·.allowFiltering) = true ↔
      ∃ condition ∈ conditions, ∃ r ∈ condition.relations, r.kind = .containsKey := by
  induction h with
  | nil => simp
  | cons hfirst _ ih =>
    have hfiltering := (Condition.compile_eq_ok_iff.mp hfirst).2.2
    rw [List.any_cons, Bool.or_eq_true, ih, hfiltering,
      (Condition.expresses_of_compile hfirst).needsFiltering_iff]
    simp only [List.exists_mem_cons_iff]

/-- A query whose limit is not zero is refused for the first of its faults. -/
theorem selects_eq_error_iff (hlimit : query.limit ≠ 0) (e : BackendError) :
    table.selects query = .error e ↔ FirstFault id (table.queryFaults query) e := by
  have hempty : query.isEmptyByLimit = false := by simp [Query.isEmptyByLimit, hlimit]
  rw [selects, hempty, if_neg (by simp)]
  refine bind_error_iff_firstFault baseSelect_eq_error_iff fun base hbase => ?_
  refine bind_error_iff_firstFault (fun e => mapExcept_eq_error_iff) fun keys hkeys => ?_
  have hcount : (table.keyedSelects base keys).length = table.selectCount query := by
    have hfans := fansOut_keyedSelects (mapExcept_eq_ok_iff.mp hkeys) []
    rw [eq_selectFor_of_baseSelect hbase, ← hfans.length_eq, List.length_map]
  dsimp only
  rw [hcount, FirstFault.cons_iff, id, TooManySelects]
  split
  · rename_i hmany
    simp [hmany, eq_comm]
  · rename_i hfew
    simp only [hfew, false_and, not_false_eq_true, implies_true, true_and, false_or]
    refine bind_error_iff_firstFault (fun e => mapExcept_eq_error_iff) fun conditions _ => ?_
    exact iff_of_false (by simp) FirstFault.not_nil

/-- Into which selects a query fans out. With a limit of zero there is none, whatever else is wrong
with the query. Otherwise the query is refused exactly if its limit is too large, an identifier does
not decode, there are too many selects, or a condition is not compiled, and the first of these is
reported. A query that is not refused has one select, or one for each identifier if identifiers
decode into several columns. Each has the table, the orders and the limit of the query; its clauses
are what its own identifiers say, followed by those of the conditions in their order; and it allows
filtering exactly if a condition asks for a key. -/
theorem selects_fan_out (table : GraphTable) (query : Query) :
    (query.limit = 0 → table.selects query = .ok []) ∧
    (query.limit ≠ 0 →
      ((∃ e, table.selects query = .error e) ↔
        query.LimitTooLarge ∨ (∃ id ∈ query.ids, ∃ e, table.idKeyValues id = .error e) ∨
          table.TooManySelects query ∨ ∃ condition ∈ query.conditions, ∃ e,
            condition.compile table.definition.partitionNames = .error e) ∧
      (∀ e, table.selects query = .error e ↔ FirstFault id (table.queryFaults query) e) ∧
      ∀ selects, table.selects query = .ok selects →
        ∃ conditions, List.Forall₂ (fun condition compiled =>
            condition.compile table.definition.partitionNames = .ok compiled)
          query.conditions conditions ∧
        table.FansOut query (table.selectFor query conditions) selects ∧
        selects.length = table.selectCount query ∧
        ∀ select ∈ selects, (select.allowFiltering = true ↔
          ∃ condition ∈ query.conditions, ∃ r ∈ condition.relations, r.kind = .containsKey)) := by
  refine ⟨fun hzero => ?_, fun hlimit => ⟨?_, selects_eq_error_iff hlimit, fun selects h => ?_⟩⟩
  · have hempty : query.isEmptyByLimit = true := by
      rw [Query.isEmptyByLimit, Query.hasLimit, hzero]
      decide
    rw [GraphTable.selects, if_pos hempty]
  · simp only [selects_eq_error_iff hlimit, FirstFault.exists_iff, queryFaults, id,
      List.exists_mem_cons_iff, exists_and_left, exists_eq, and_true]
    simp
  · have hempty : query.isEmptyByLimit = false := by simp [Query.isEmptyByLimit, hlimit]
    obtain ⟨base, keys, conditions, hbase, hkeys, hconditions, -, rfl⟩ :=
      (selects_eq_ok_iff_base hempty).mp h
    have hcompiled := mapExcept_eq_ok_iff.mp hconditions
    have hfans := fansOut_keyedSelects (mapExcept_eq_ok_iff.mp hkeys) conditions
    rw [← eq_selectFor_of_baseSelect hbase] at hfans
    refine ⟨conditions, hcompiled, hfans, hfans.length_eq, fun select hmem => ?_⟩
    rw [hfans.allowFiltering_eq select hmem, any_allowFiltering_iff hcompiled]

/-- A query for two rows of the secondary index that have a key, and for at most five rows. -/
def namesWithKey : Query where
  kind := .secondaryIndex
  ids := [⟨"marko:byName"⟩, ⟨"josh:byName"⟩]
  conditions := [.relation ⟨"ELEMENT_IDS", .containsKey, .value (.text "1")⟩]
  limit := 5

/-- The query fans out into two selects with filtering. With a limit of zero it needs none, even if
an identifier has only one part; with any other limit it is refused for such an identifier, even if
a condition is a disjunction. -/
theorem selects_fan_out_namesWithKey :
    (∃ selects, GraphTable.selects ⟨.secondaryIndex, {}⟩ namesWithKey = .ok selects ∧
      selects.length = 2 ∧ ∀ select ∈ selects, select.allowFiltering = true) ∧
    GraphTable.selects ⟨.secondaryIndex, {}⟩
      { namesWithKey with ids := [⟨"marko"⟩], limit := 0 } = .ok [] ∧
    ∀ condition : Condition,
      GraphTable.selects ⟨.secondaryIndex, {}⟩
        { namesWithKey with ids := [⟨"marko"⟩], conditions := [.or condition condition] } =
      .error (.malformedId ⟨"marko"⟩ [.fieldValues, .indexLabelName]) := by
  have hsmall : ¬ namesWithKey.LimitTooLarge := fun h => absurd h.1 (by decide)
  refine ⟨?_, (selects_fan_out _ _).1 rfl, fun condition => ?_⟩
  · have hfound : (GraphTable.selects ⟨.secondaryIndex, {}⟩ namesWithKey).toOption.isSome = true :=
      by decide +kernel
    obtain ⟨selects, hselects⟩ := Option.isSome_iff_exists.mp hfound
    have hok := toOption_eq_some_iff.mp hselects
    obtain ⟨conditions, -, -, hlength, hfiltering⟩ :=
      ((selects_fan_out ⟨.secondaryIndex, {}⟩ namesWithKey).2 (by decide)).2.2 selects hok
    refine ⟨selects, hok, hlength, fun select hmem => (hfiltering select hmem).mpr ?_⟩
    exact ⟨_, List.mem_singleton_self _, _, List.mem_singleton_self _, rfl⟩
  · refine (((selects_fan_out _ _).2 (by simp [namesWithKey])).2.1 _).mpr ?_
    exact .behind (fun e h => hsmall h.1) (.here (.here rfl))

end GraphTable

end WideGraph
