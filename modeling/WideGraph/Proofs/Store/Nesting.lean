import WideGraph.Proofs.Statement.Reading
import WideGraph.Proofs.Store.Answer

/-!
# How conjunctions are nested

A conjunction stands for the clauses that it joins, from left to right, and nothing depends on how
they are grouped. A row is decided by them one after the other, up to the first that does not match
or cannot be evaluated, and an error is therefore met at the same clause whether the clauses are
given one by one or joined. Selects whose conjunctions come apart into the same clauses are answered
alike, need filtering alike and have the same text.
-/

namespace WideGraph

/-- A conjunction needs filtering if a clause that it joins does. -/
theorem Clause.any_leaves_needsFiltering (clause : Clause) :
    clause.leaves.any needsFiltering = clause.needsFiltering := by
  induction clause with
  | and left right hleft hright => rw [leaves, List.any_append, hleft, hright, needsFiltering]
  | _ => simp [leaves]

/-- Clauses need filtering if a clause that they join does. -/
theorem any_flatMap_leaves_needsFiltering (clauses : List Clause) :
    (clauses.flatMap Clause.leaves).any Clause.needsFiltering =
      clauses.any Clause.needsFiltering := by
  rw [List.any_flatMap, funext Clause.any_leaves_needsFiltering]

namespace StoredTable

variable (table : StoredTable) (key : RowKey) (row : StoredRow)

/-- Clauses behind others are checked if those ahead pass. -/
theorem checkLeaves_append (allowed : Bool) (as bs : List Clause) :
    table.checkLeaves allowed (as ++ bs) =
      match table.checkLeaves allowed as with
      | .error e => .error e
      | .ok () => table.checkLeaves allowed bs := by
  simp only [checkLeaves_eq_mapExcept, mapExcept_append]
  cases mapExcept (table.checkLeaf allowed) as with
  | error e => rfl
  | ok _ => cases mapExcept (table.checkLeaf allowed) bs <;> rfl

/-- The clauses behind others are only looked at if those ahead are matched. -/
theorem rowMatchesAll_append (as bs : List Clause) :
    table.rowMatchesAll key row (as ++ bs) =
      match table.rowMatchesAll key row as with
      | .error e => .error e
      | .ok false => .ok false
      | .ok true => table.rowMatchesAll key row bs := by
  induction as with
  | nil => rfl
  | cons clause rest ih =>
    rw [List.cons_append, rowMatchesAll, rowMatchesAll, ih]
    rcases table.rowMatches key row clause with e | _ | _ <;> rfl

/-- A clause is decided by the clauses that it joins. -/
theorem rowMatchesAll_leaves (clause : Clause) :
    table.rowMatchesAll key row clause.leaves = table.rowMatches key row clause := by
  induction clause with
  | and left right hleft hright =>
    rw [Clause.leaves, rowMatchesAll_append, hleft, hright]
    rfl
  | _ =>
    -- Of a single clause the list is decided as the clause is.
    rw [Clause.leaves, rowMatchesAll]
    · generalize table.rowMatches key row _ = decided
      rcases decided with e | _ | _ <;> rfl
    · simp

/-- Clauses are decided by the clauses that they join. -/
theorem rowMatchesAll_flatMap_leaves (clauses : List Clause) :
    table.rowMatchesAll key row (clauses.flatMap Clause.leaves) =
      table.rowMatchesAll key row clauses := by
  induction clauses with
  | nil => rfl
  | cons clause rest ih =>
    rw [List.flatMap_cons, rowMatchesAll_append, rowMatchesAll_leaves, ih]
    rfl

/-- Clauses match the rows that the clauses match that they join. -/
theorem matchingRows_flatMap_leaves (clauses : List Clause) (rows : List (RowKey × StoredRow)) :
    table.matchingRows (clauses.flatMap Clause.leaves) rows = table.matchingRows clauses rows :=
  table.matchingRows_congr (fun key row => table.rowMatchesAll_flatMap_leaves key row clauses) rows

end StoredTable

/-- What clauses join cannot be taken apart further. -/
theorem Clause.flatMap_leaves_leaves (clause : Clause) :
    clause.leaves.flatMap leaves = clause.leaves := by
  induction clause with
  | and left right hleft hright => rw [leaves, List.flatMap_append, hleft, hright]
  | _ => rfl

namespace Select

/-- A select whose conjunctions have been taken apart has none left. -/
theorem flat_flat (select : Select) : select.flat.flat = select.flat := by
  simp only [flat, List.flatMap_assoc, Clause.flatMap_leaves_leaves]

/-- With its conjunctions taken apart a select is answered as before. -/
theorem select_flat (table : StoredTable) (select : Select) :
    table.select select.flat = table.select select := by
  simp only [StoredTable.select, flat, List.flatMap_assoc, Clause.flatMap_leaves_leaves,
    StoredTable.matchingRows_flatMap_leaves]

variable {select other : Select} (h : select.flat = other.flat)

include h

/-- Selects whose conjunctions come apart into the same clauses are answered alike. -/
theorem execute_congr_flat (c : Connection) : (c.execute select).1 = (c.execute other).1 := by
  have htable : select.flat.table = other.flat.table := congrArg Select.table h
  have hanswer : ∀ table : StoredTable, table.select select = table.select other := by
    intro table
    rw [← select_flat, h, select_flat]
  change select.table = other.table at htable
  simp only [Connection.execute, htable, hanswer]

/-- Selects whose conjunctions come apart into the same clauses have the same text. -/
theorem bound_congr_flat : select.bound = other.bound := by
  rw [bound_eq, bound_eq, ← symbols_flat, h, symbols_flat]

end Select

end WideGraph
