import WideGraph.Proofs.FirstFault
import WideGraph.Proofs.Statement.Clauses
import WideGraph.Proofs.Store.Nesting
import WideGraph.Proofs.Store.UpdatedRow

/-!
# Which selects are refused

The clauses of a select are checked against the definition and the indexes of its table before any
row is looked at, and its orders after that, so that neither depends on what is stored. The operands
of the clauses are only bound while a row is compared with them: a value that its column does not
take, or a literal that is no token, goes unnoticed until a row gets as far as it. An empty table
accepts it, a row that does not match the clauses ahead passes it by, and so does a row that has one
of the alternatives ahead of it. Two states of a table refuse a select alike unless their rows come
upon such operands differently.
-/

namespace WideGraph

/-- An operand of a clause cannot be bound: its column does not take a value, or a literal is no
token. -/
inductive Clause.Unbindable (d : TableDefinition) : Clause → StoreError → Prop where
  | compare {comparison : Comparison} {name : String} {column : Column} {type : ColumnType}
      {value : Value} {e : StoreError} (hresolve : d.resolve name = .ok (column, type))
      (hbind : type.bind value = .error e) : Unbindable d (.compare comparison name value) e
  | isIn {name : String} {column : Column} {type : ColumnType} {values : List Value}
      {value : Value} {e : StoreError} (hresolve : d.resolve name = .ok (column, type))
      (hmem : value ∈ values) (hbind : type.bind value = .error e) :
      Unbindable d (.isIn name values) e
  | tokenAtLeast {columns : List String} {literal : String}
      (h : Text.wordLiteral? literal = none) :
      Unbindable d (.tokenAtLeast columns literal) (.invalidToken literal)
  | tokenBelow {columns : List String} {literal : String}
      (h : Text.wordLiteral? literal = none) :
      Unbindable d (.tokenBelow columns literal) (.invalidToken literal)

/-- A row comes upon an operand of a clause that cannot be bound. Alternatives are bound in turn, up
to one that the row has. -/
inductive StoredRow.Meets (d : TableDefinition) (row : StoredRow) : Clause → StoreError → Prop where
  | compare {comparison : Comparison} {name : String} {column : Column} {type : ColumnType}
      {value : Value} {e : StoreError} (hresolve : d.resolve name = .ok (column, type))
      (hbind : type.bind value = .error e) : Meets d row (.compare comparison name value) e
  | isIn {name : String} {column : Column} {type : ColumnType} {before after : List Value}
      {value : Value} {e : StoreError} (hresolve : d.resolve name = .ok (column, type))
      (hbefore : ∀ other ∈ before,
        ∃ bound, type.bind other = .ok bound ∧ bound.same (row.valueOf column) = false)
      (hbind : type.bind value = .error e) : Meets d row (.isIn name (before ++ value :: after)) e
  | tokenAtLeast {columns : List String} {literal : String}
      (h : Text.wordLiteral? literal = none) :
      Meets d row (.tokenAtLeast columns literal) (.invalidToken literal)
  | tokenBelow {columns : List String} {literal : String}
      (h : Text.wordLiteral? literal = none) :
      Meets d row (.tokenBelow columns literal) (.invalidToken literal)

namespace StoredTable

/-- The row under a key comes upon an operand that cannot be bound, behind clauses that it
matches. -/
inductive Meets (table : StoredTable) (key : RowKey) (row : StoredRow) :
    List Clause → StoreError → Prop where
  | here {clause : Clause} {rest : List Clause} {e : StoreError}
      (h : row.Meets table.definition clause e) : Meets table key row (clause :: rest) e
  | behind {clause : Clause} {rest : List Clause} {e : StoreError}
      (hmatch : table.rowMatches key row clause = .ok true) (h : Meets table key row rest e) :
      Meets table key row (clause :: rest) e

/-- The clauses of a select do not pass the check. -/
def Forbids (table : StoredTable) (select : Select) (e : StoreError) : Prop :=
  table.checkLeaves select.allowFiltering (select.clauses.flatMap Clause.leaves) = .error e

/-- The first row to come upon an operand of a select that cannot be bound does so. -/
def Stumbles (table : StoredTable) (select : Select) (e : StoreError) : Prop :=
  FirstFault (fun entry => table.Meets entry.1 entry.2 (select.clauses.flatMap Clause.leaves))
    table.rows e

/-- The columns that a select is ordered by may not order an answer. -/
def ForbidsOrder (table : StoredTable) (select : Select) (e : StoreError) : Prop :=
  table.orderColumns select.orders = .error e

end StoredTable

/-- What clauses join are no conjunctions. -/
theorem Clause.isLeaf_of_mem_leaves {clause leaf : Clause} (h : leaf ∈ clause.leaves) :
    leaf.IsLeaf := by
  induction clause with
  | and left right hleft hright => exact (List.mem_append.mp h).elim hleft hright
  | _ =>
    obtain rfl := List.mem_singleton.mp h
    trivial

/-- What a row comes upon cannot be bound whatever row it is. -/
theorem StoredRow.Meets.unbindable {d : TableDefinition} {row : StoredRow} {clause : Clause}
    {e : StoreError} (h : row.Meets d clause e) : clause.Unbindable d e := by
  cases h with
  | compare hresolve hbind => exact .compare hresolve hbind
  | isIn hresolve hbefore hbind => exact .isIn hresolve (by simp) hbind
  | tokenAtLeast h => exact .tokenAtLeast h
  | tokenBelow h => exact .tokenBelow h

/-- An operand that cannot be bound is reported as a value of the wrong kind or as no token. -/
theorem Clause.Unbindable.error {d : TableDefinition} {clause : Clause} {e : StoreError}
    (h : clause.Unbindable d e) :
    (∃ kind type, e = .invalidValue kind type) ∨ ∃ literal, e = .invalidToken literal := by
  cases h with
  | compare _ hbind => exact .inl ⟨_, _, StoredTable.invalidValue_of_bind hbind⟩
  | isIn _ _ hbind => exact .inl ⟨_, _, StoredTable.invalidValue_of_bind hbind⟩
  | tokenAtLeast _ => exact .inr ⟨_, rfl⟩
  | tokenBelow _ => exact .inr ⟨_, rfl⟩

namespace StoredTable

variable {table : StoredTable} {key : RowKey} {row : StoredRow} {e : StoreError}

/-- What the row under a key comes upon cannot be bound whatever rows there are. -/
theorem Meets.exists_unbindable {clauses : List Clause} (h : table.Meets key row clauses e) :
    ∃ clause ∈ clauses, clause.Unbindable table.definition e := by
  induction h with
  | here h => exact ⟨_, List.mem_cons_self, h.unbindable⟩
  | behind _ _ ih =>
    obtain ⟨clause, hmem, hclause⟩ := ih
    exact ⟨clause, List.mem_cons_of_mem _ hmem, hclause⟩

/-- What the first row comes upon cannot be bound whatever rows there are. -/
theorem Stumbles.exists_unbindable {select : Select} (h : table.Stumbles select e) :
    ∃ clause ∈ select.clauses.flatMap Clause.leaves, clause.Unbindable table.definition e := by
  obtain ⟨entry, -, hmeets⟩ := FirstFault.exists_mem h
  exact hmeets.exists_unbindable

/-- No row comes upon anything if all operands of a select can be bound. -/
theorem not_stumbles_of_bindable {select : Select}
    (h : ∀ clause ∈ select.clauses.flatMap Clause.leaves,
      ∀ e, ¬ clause.Unbindable table.definition e) (e : StoreError) :
    ¬ table.Stumbles select e := by
  intro hstumbles
  obtain ⟨clause, hmem, hclause⟩ := hstumbles.exists_unbindable
  exact h clause hmem e hclause

/-- The column that orders an answer; only clustering keys may. -/
def orderColumn (d : TableDefinition) (asked : String × SortOrder) :
    Except StoreError (Column × SortOrder) :=
  match d.resolve asked.1 with
  | .error e => .error e
  | .ok (column, _) =>
    if d.isClusteringKey column then .ok (column, asked.2)
    else .error (.orderOutsideClustering asked.1)

/-- The columns that order an answer are found one by one, of which the definition is enough. -/
theorem orderColumns_eq_mapExcept (table : StoredTable) (asked : List (String × SortOrder)) :
    table.orderColumns asked = mapExcept (orderColumn table.definition) asked := by
  induction asked with
  | nil => rfl
  | cons first rest ih =>
    rw [orderColumns, mapExcept, orderColumn, ih]
    cases table.definition.resolve first.1 with
    | error e => rfl
    | ok resolved =>
      dsimp only
      split <;> rfl

/-- Orders are refused for names of no column and for columns that are not clustering keys. -/
theorem error_of_orderColumns {orders : List (String × SortOrder)}
    (h : table.orderColumns orders = .error e) :
    (∃ name, e = .undefinedColumn name table.definition.name) ∨
      ∃ name, e = .orderOutsideClustering name := by
  rw [orderColumns_eq_mapExcept, mapExcept_eq_error_iff] at h
  obtain ⟨asked, -, hasked⟩ := h.exists_mem
  rw [orderColumn] at hasked
  split at hasked
  · rename_i hresolve
    cases hasked
    exact .inl ⟨_, undefinedColumn_of_resolve hresolve⟩
  · split at hasked <;> cases hasked
    exact .inr ⟨_, rfl⟩

/-- What a row comes upon is reported differently from orders that are not allowed. -/
theorem Stumbles.not_forbidsOrder {select : Select} (h : table.Stumbles select e) :
    ¬ table.ForbidsOrder select e := by
  intro horder
  obtain ⟨clause, -, hclause⟩ := h.exists_unbindable
  obtain ⟨_, _, rfl⟩ | ⟨_, rfl⟩ := hclause.error <;>
    obtain ⟨_, hname⟩ | ⟨_, hname⟩ := error_of_orderColumns horder <;> cases hname

/-- What is decided by a token cannot be decided if its literal is none. -/
theorem bind_tokenOf_eq_error_iff {α : Type} {decided : Int64 → α} {literal : String} :
    (do .ok (decided (← tokenOf literal)) : Except StoreError α) = .error e ↔
      Text.wordLiteral? literal = none ∧ e = .invalidToken literal := by
  rw [tokenOf, bind_error_iff]
  cases Text.wordLiteral? literal with
  | none => simp [eq_comm]
  | some token => simp

section Clause

variable {name : String} {column : Column} {type : ColumnType}
  (hresolve : table.definition.resolve name = .ok (column, type))

include hresolve

/-- A comparison cannot be decided if its column does not take the value. -/
theorem rowMatches_compare_eq_error_iff {comparison : Comparison} {value : Value} :
    table.rowMatches key row (.compare comparison name value) = .error e ↔
      row.Meets table.definition (.compare comparison name value) e := by
  have hdecided : table.rowMatches key row (.compare comparison name value) = .error e ↔
      type.bind value = .error e := by
    rw [rowMatches, hresolve]
    change type.bind value >>= _ = _ ↔ _
    simp [bind_error_iff]
  rw [hdecided]
  constructor
  · exact .compare hresolve
  · intro hmeets
    cases hmeets with
    | compare hfound hbind =>
      rw [hresolve] at hfound
      cases hfound
      exact hbind

/-- Alternatives cannot be decided if one that the column does not take is reached. -/
theorem rowMatches_isIn_eq_error_iff {values : List Value} :
    table.rowMatches key row (.isIn name values) = .error e ↔
      row.Meets table.definition (.isIn name values) e := by
  have hdecided : table.rowMatches key row (.isIn name values) = .error e ↔
      isAmong type (row.valueOf column) values = .error e := by
    rw [rowMatches, hresolve]
    rfl
  rw [hdecided, isAmong_eq_error_iff]
  constructor
  · rintro ⟨before, value, after, rfl, hbefore, hbind⟩
    exact .isIn hresolve hbefore hbind
  · intro hmeets
    cases hmeets with
    | isIn hfound hbefore hbind =>
      rw [hresolve] at hfound
      cases hfound
      exact ⟨_, _, _, rfl, hbefore, hbind⟩

/-- Whether a map has a key is always decided. -/
theorem rowMatches_containsKey_ne_error {value : Value} :
    table.rowMatches key row (.containsKey name value) ≠ .error e := by
  intro h
  obtain herror | ⟨_, hfound, hdecided⟩ := bind_error_iff.mp h
  · rw [hresolve] at herror
    cases herror
  · rw [hresolve] at hfound
    cases hfound
    cases hcell : row.valueOf column <;> simp [hcell] at hdecided

end Clause

/-- A clause that passes the check cannot be decided for a row exactly if the row comes upon an
operand in it that cannot be bound. -/
theorem rowMatches_eq_error_iff {allowed : Bool} {clause : Clause} (hleaf : clause.IsLeaf)
    (hcheck : table.checkLeaf allowed clause = .ok ()) :
    table.rowMatches key row clause = .error e ↔ row.Meets table.definition clause e := by
  cases clause with
  | compare comparison name value =>
    obtain ⟨_, hresolve, -⟩ := bind_ok_iff.mp hcheck
    exact rowMatches_compare_eq_error_iff hresolve
  | isIn name values =>
    obtain ⟨_, hresolve, -⟩ := bind_ok_iff.mp hcheck
    exact rowMatches_isIn_eq_error_iff hresolve
  | containsKey name value =>
    obtain ⟨_, hresolve, -⟩ := bind_ok_iff.mp hcheck
    exact iff_of_false (rowMatches_containsKey_ne_error hresolve) nofun
  | tokenAtLeast columns literal =>
    rw [rowMatches, bind_tokenOf_eq_error_iff]
    constructor
    · rintro ⟨h, rfl⟩
      exact .tokenAtLeast h
    · intro hmeets
      cases hmeets with
      | tokenAtLeast h => exact ⟨h, rfl⟩
  | tokenBelow columns literal =>
    rw [rowMatches, bind_tokenOf_eq_error_iff]
    constructor
    · rintro ⟨h, rfl⟩
      exact .tokenBelow h
    · intro hmeets
      cases hmeets with
      | tokenBelow h => exact ⟨h, rfl⟩
  | and left right => exact hleaf.elim

/-- Clauses that pass the check cannot be decided for a row exactly if the row comes upon an operand
that cannot be bound. -/
theorem rowMatchesAll_eq_error_iff {allowed : Bool} {leaves : List Clause}
    (hleaves : ∀ leaf ∈ leaves, leaf.IsLeaf)
    (hcheck : ∀ leaf ∈ leaves, table.checkLeaf allowed leaf = .ok ()) :
    table.rowMatchesAll key row leaves = .error e ↔ table.Meets key row leaves e := by
  induction leaves with
  | nil => constructor <;> nofun
  | cons leaf rest ih =>
    obtain ⟨hleaf, hleaves⟩ := List.forall_mem_cons.mp hleaves
    obtain ⟨hfirst, hcheck⟩ := List.forall_mem_cons.mp hcheck
    have herror : ∀ e, table.rowMatches key row leaf = .error e ↔
        row.Meets table.definition leaf e := fun e => rowMatches_eq_error_iff hleaf hfirst
    have hbehind := ih hleaves hcheck
    rw [rowMatchesAll]
    constructor
    · intro h
      split at h
      · rename_i hstuck
        cases h
        exact .here ((herror _).mp hstuck)
      · cases h
      · rename_i hmatch
        exact .behind hmatch (hbehind.mp h)
    · intro h
      cases h with
      | here h => rw [(herror e).mpr h]
      | behind hmatch h =>
        rw [hmatch]
        exact hbehind.mpr h

/-- The rows cannot all be matched exactly if one cannot be decided, and the first such row tells
why. -/
theorem matchingRows_eq_error_iff {clauses : List Clause} {rows : List (RowKey × StoredRow)} :
    table.matchingRows clauses rows = .error e ↔
      FirstFault (fun entry e => table.rowMatchesAll entry.1 entry.2 clauses = .error e)
        rows e := by
  rw [matchingRows_eq_mapExcept, map_error_iff, mapExcept_eq_error_iff]

/-- A select whose clauses pass the check is refused for the first row that comes upon an operand
that cannot be bound, and otherwise for its orders. -/
theorem select_eq_error_iff {select : Select} :
    table.select select = .error e ↔
      FirstFault id [table.Forbids select, table.Stumbles select, table.ForbidsOrder select] e := by
  refine bind_error_iff_firstFault (fun _ => Iff.rfl) fun _ hcheck => ?_
  have hleaves : ∀ leaf ∈ select.clauses.flatMap Clause.leaves, leaf.IsLeaf := by
    intro leaf hmem
    obtain ⟨clause, -, hleaf⟩ := List.mem_flatMap.mp hmem
    exact Clause.isLeaf_of_mem_leaves hleaf
  refine bind_error_iff_firstFault (fun e => ?_) fun hits _ => ?_
  · rw [← matchingRows_flatMap_leaves, matchingRows_eq_error_iff, Stumbles]
    simp only [rowMatchesAll_eq_error_iff hleaves (checkLeaves_eq_ok_iff.mp hcheck)]
  · exact bind_error_iff_firstFault (fun _ => Iff.rfl) fun orders _ => by simp

section Alike

variable {other : StoredTable} (hdefinition : table.definition = other.definition)

include hdefinition

/-- Which orders of a select are not allowed only depends on the definition. -/
theorem forbidsOrder_congr (select : Select) :
    table.ForbidsOrder select = other.ForbidsOrder select := by
  funext e
  rw [ForbidsOrder, ForbidsOrder, orderColumns_eq_mapExcept, orderColumns_eq_mapExcept, hdefinition]

variable (hindexes : table.indexes = other.indexes)

include hindexes

/-- Which clauses of a select do not pass the check only depends on the definition and the
indexes. -/
theorem forbids_congr (select : Select) : table.Forbids select = other.Forbids select := by
  have hleaf : ∀ allowed leaf, table.checkLeaf allowed leaf = other.checkLeaf allowed leaf := by
    intro allowed leaf
    cases leaf <;> simp only [checkLeaf, isIndexed, hdefinition, hindexes]
  have hcheck : table.checkLeaf select.allowFiltering = other.checkLeaf select.allowFiltering :=
    funext (hleaf _)
  funext e
  rw [Forbids, Forbids, checkLeaves_eq_mapExcept, checkLeaves_eq_mapExcept, hcheck]

/-- Two states of a table refuse a select alike if its clauses do not pass the check, or if the rows
of both come upon the same operand that cannot be bound or upon none. -/
theorem select_error_congr_iff (select : Select) :
    (∀ e, table.select select = .error e ↔ other.select select = .error e) ↔
      (∃ e, table.Forbids select e) ∨ ∀ e, table.Stumbles select e ↔ other.Stumbles select e := by
  simp only [select_eq_error_iff, FirstFault.cons_iff, FirstFault.not_nil, id, and_false, or_false,
    ← forbids_congr hdefinition hindexes, ← forbidsOrder_congr hdefinition]
  by_cases hforbids : ∃ e, table.Forbids select e
  · obtain ⟨e, he⟩ := hforbids
    have hcheck : ¬ ∀ e, ¬ table.Forbids select e := fun h => h e he
    simp only [hcheck, false_and, or_false, implies_true, true_iff]
    exact .inl ⟨e, he⟩
  · have hcheck := not_exists.mp hforbids
    rw [or_iff_right hforbids]
    simp only [hcheck, not_false_eq_true, implies_true, true_and, false_or]
    constructor
    · intro h e
      constructor
      · intro hstumbles
        exact ((h e).mp (.inl hstumbles)).resolve_right fun horder =>
          hstumbles.not_forbidsOrder horder.2
      · intro hstumbles
        exact ((h e).mpr (.inl hstumbles)).resolve_right fun horder =>
          hstumbles.not_forbidsOrder (forbidsOrder_congr hdefinition select ▸ horder.2)
    · intro h e
      simp only [h]

end Alike

end StoredTable

namespace Connection

/-- A select is answered by the table that it addresses. -/
theorem execute_eq_select {c : Connection} {select : Select} {table : StoredTable}
    (h : c.cluster.table c.session.keyspace select.table = .ok table) :
    (c.execute select).1 = table.select select := by
  rw [execute, h]
  rfl

/-- A select is refused because its clauses do not pass the check, or for an operand that cannot be
bound and that a row comes upon, or because its orders are not allowed, in this order. The first and
the last are the same on tables with the same definition and the same indexes, whatever rows they
have, and so the select is refused alike unless the rows come upon such operands differently. If all
operands of the select can be bound then it is refused alike whatever rows there are. -/
theorem refused_alike_unless_stumbling (select : Select) {c₁ c₂ : Connection} {t₁ t₂ : StoredTable}
    (h₁ : c₁.cluster.table c₁.session.keyspace select.table = .ok t₁)
    (h₂ : c₂.cluster.table c₂.session.keyspace select.table = .ok t₂)
    (hdefinition : t₁.definition = t₂.definition) (hindexes : t₁.indexes = t₂.indexes) :
    (∀ e, (c₁.execute select).1 = .error e ↔
      FirstFault id [t₁.Forbids select, t₁.Stumbles select, t₁.ForbidsOrder select] e) ∧
    (∀ e, (c₂.execute select).1 = .error e ↔
      FirstFault id [t₁.Forbids select, t₂.Stumbles select, t₁.ForbidsOrder select] e) ∧
    (∀ e, t₁.Stumbles select e →
      ∃ clause ∈ select.clauses.flatMap Clause.leaves, clause.Unbindable t₁.definition e) ∧
    ((∀ e, (c₁.execute select).1 = .error e ↔ (c₂.execute select).1 = .error e) ↔
      (∃ e, t₁.Forbids select e) ∨ ∀ e, t₁.Stumbles select e ↔ t₂.Stumbles select e) ∧
    ((∀ clause ∈ select.clauses.flatMap Clause.leaves, ∀ e, ¬ clause.Unbindable t₁.definition e) →
      ∀ e, (c₁.execute select).1 = .error e ↔ (c₂.execute select).1 = .error e) := by
  rw [execute_eq_select h₁, execute_eq_select h₂]
  have halike := StoredTable.select_error_congr_iff hdefinition hindexes select
  refine ⟨fun e => StoredTable.select_eq_error_iff, fun e => ?_,
    fun e hstumbles => hstumbles.exists_unbindable, halike, fun hbindable => ?_⟩
  · rw [StoredTable.forbids_congr hdefinition hindexes,
      StoredTable.forbidsOrder_congr hdefinition]
    exact StoredTable.select_eq_error_iff
  · have hfirst := StoredTable.not_stumbles_of_bindable hbindable
    have hsecond := StoredTable.not_stumbles_of_bindable (hdefinition ▸ hbindable)
    exact halike.mpr (.inr fun e => iff_of_false (hfirst e) (hsecond e))

section

open Cluster (writeAges)

/-- The select for an age in the search index. -/
def selectAged (age : Value) : Select :=
  .mk "search_indexes"
    [Clause.eq "INDEX_LABEL_NAME" (.text "byAge"), Clause.eq "FIELD_VALUES" age] [] none false

/-- A reader of what some requests lead to. -/
def readerAfter (requests : List (String × Request)) : Connection :=
  ⟨(World.run {} requests).cluster, { keyspace := "graph" }⟩

/-- The search index has no rows before ages are written to it, and an age that is a text is only
refused after that. -/
theorem exists_searchIndex :
    ∃ empty written,
      (readerAfter (writeAges.take 2)).cluster.table "graph" "search_indexes" = .ok empty ∧
      (readerAfter writeAges).cluster.table "graph" "search_indexes" = .ok written ∧
      empty = { definition := ElementKind.searchIndex.layout } ∧
      empty.definition = written.definition ∧ empty.indexes = written.indexes ∧
      empty.select (selectAged (.text "29.5")) = .ok [] ∧
      written.select (selectAged (.text "29.5")) = .error (.invalidValue "text" .decimal) := by
  have hempty :
      ((readerAfter (writeAges.take 2)).cluster.table "graph" "search_indexes").toOption.map
        (fun table => (table, table.select (selectAged (.text "29.5")))) =
      some ({ definition := ElementKind.searchIndex.layout }, .ok []) := by decide +kernel
  have hwritten : ((readerAfter writeAges).cluster.table "graph" "search_indexes").toOption.map
      (fun table => (table.definition, table.indexes,
        table.select (selectAged (.text "29.5")))) =
      some (ElementKind.searchIndex.layout, [], .error (.invalidValue "text" .decimal)) := by
    decide +kernel
  obtain ⟨empty, hfound, hfacts⟩ := exists_ok_of_map_toOption hempty
  obtain ⟨written, hfound', hfacts'⟩ := exists_ok_of_map_toOption hwritten
  simp only [Prod.mk.injEq] at hfacts hfacts'
  obtain ⟨rfl, haccepts⟩ := hfacts
  obtain ⟨hdefinition, hindexes, hrefuses⟩ := hfacts'
  exact ⟨_, written, hfound, hfound', rfl, hdefinition.symm, hindexes.symm, haccepts, hrefuses⟩

/-- An age that is a number can be bound. -/
theorem selectAged_bindable (n : Int64) :
    ∀ clause ∈ (selectAged (.bigint n)).clauses.flatMap Clause.leaves,
      ∀ e, ¬ clause.Unbindable ElementKind.searchIndex.layout e := by
  have hlabel : ElementKind.searchIndex.layout.resolve "INDEX_LABEL_NAME" =
      .ok (.indexLabelName, .text) := by decide +kernel
  have hage : ElementKind.searchIndex.layout.resolve "FIELD_VALUES" =
      .ok (.fieldValues, .decimal) := by decide +kernel
  intro clause hmem e hclause
  obtain rfl | rfl : clause = Clause.eq "INDEX_LABEL_NAME" (.text "byAge") ∨
      clause = Clause.eq "FIELD_VALUES" (.bigint n) := by
    simpa [selectAged, Clause.leaves, Clause.eq] using hmem
  · cases hclause with
    | compare hresolve hbind =>
      rw [hlabel] at hresolve
      cases hresolve
      cases hbind
  · cases hclause with
    | compare hresolve hbind =>
      rw [hage] at hresolve
      cases hresolve
      cases hbind

/-- The search index is asked alike for a number whether it has rows or not, but a text is refused
only once it has rows, the first of which comes upon it. -/
theorem refused_alike_unless_stumbling_searchIndex :
    ∃ empty written,
      (readerAfter (writeAges.take 2)).cluster.table "graph" "search_indexes" = .ok empty ∧
      (readerAfter writeAges).cluster.table "graph" "search_indexes" = .ok written ∧
      empty.definition = written.definition ∧ empty.indexes = written.indexes ∧
      (∀ n e, ((readerAfter (writeAges.take 2)).execute (selectAged (.bigint n))).1 = .error e ↔
        ((readerAfter writeAges).execute (selectAged (.bigint n))).1 = .error e) ∧
      (∀ e, ¬ empty.Stumbles (selectAged (.text "29.5")) e) ∧
      written.Stumbles (selectAged (.text "29.5")) (.invalidValue "text" .decimal) := by
  obtain ⟨empty, written, hempty, hwritten, rfl, hdefinition, hindexes, haccepts, hrefuses⟩ :=
    exists_searchIndex
  have halike := fun age => refused_alike_unless_stumbling (selectAged age) hempty hwritten
    hdefinition hindexes
  refine ⟨_, written, hempty, hwritten, hdefinition, hindexes, fun n => ?_, fun e => ?_, ?_⟩
  · exact (halike (.bigint n)).2.2.2.2 (selectAged_bindable n)
  · exact FirstFault.not_nil
  · obtain ⟨haccepted, hrefused, -⟩ := halike (.text "29.5")
    rw [execute_eq_select hempty] at haccepted
    rw [execute_eq_select hwritten] at hrefused
    obtain hforbids | ⟨-, hrest⟩ := FirstFault.cons_iff.mp ((hrefused _).mp hrefuses)
    · rw [(haccepted _).mpr (.here hforbids)] at haccepts
      cases haccepts
    · obtain hstumbles | ⟨-, horder⟩ := FirstFault.cons_iff.mp hrest
      · exact hstumbles
      · cases FirstFault.singleton_iff.mp horder

/-- Whether a select is refused depends on the rows that are there. -/
theorem text_refused_once_written :
    ¬ ∀ (c₁ c₂ : Connection) (select : Select) (t₁ t₂ : StoredTable),
      c₁.cluster.Reachable → c₂.cluster.Reachable →
      c₁.cluster.table c₁.session.keyspace select.table = .ok t₁ →
      c₂.cluster.table c₂.session.keyspace select.table = .ok t₂ →
      t₁.definition = t₂.definition → t₁.indexes = t₂.indexes →
      ∀ e, (c₁.execute select).1 = .error e ↔ (c₂.execute select).1 = .error e := by
  intro hall
  obtain ⟨empty, written, hempty, hwritten, -, hdefinition, hindexes, haccepts, hrefuses⟩ :=
    exists_searchIndex
  have hboth := hall (readerAfter (writeAges.take 2)) (readerAfter writeAges)
    (selectAged (.text "29.5")) empty written ⟨_, rfl⟩ ⟨_, rfl⟩ hempty hwritten hdefinition hindexes
    (.invalidValue "text" .decimal)
  rw [execute_eq_select hempty, execute_eq_select hwritten, haccepts, hrefuses] at hboth
  exact absurd (hboth.mpr rfl) nofun

end

end Connection

end WideGraph
