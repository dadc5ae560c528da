import WideGraph.BackendError

/-!
# Conditions as clauses

A condition becomes one clause: conjunctions stay conjunctions, each relation becomes a comparison
with the value of its operand, and a scan becomes the two bounds of a token range. Disjunctions and
inequalities have no clause.
-/

namespace WideGraph

/-- The clause of a condition, and whether the store answers it only when filtering is allowed. -/
structure CompiledCondition where
  clause : Clause
  allowFiltering : Bool
deriving DecidableEq

/-- The clause of one relation; a scan ranges over the tokens of the given columns. -/
def Relation.toClause (relation : Relation) (partitionColumns : List String) :
    Except BackendError Clause :=
  match relation.kind with
  | .compare comparison => .ok (.compare comparison relation.key relation.operand.toValue)
  | .containsKey => .ok (.containsKey relation.key relation.operand.toValue)
  | .isIn =>
    match relation.operand with
    | .list items => .ok (.isIn relation.key (Operand.toValues items))
    | _ => .error (.contractViolation (.listExpected relation))
  | .scan =>
    let range (stop : String) : Clause :=
      .and (.tokenAtLeast partitionColumns relation.key) (.tokenBelow partitionColumns stop)
    match relation.operand.toValue with
    | .text stop => .ok (range stop)
    | .bigint stop => .ok (range (toString stop.toInt))
    | other => .error (.contractViolation (.scanEnd other.kindName))
  | .notEqual => .error (.contractViolation (.inequality relation))

namespace Condition

/-- The greatest depth of a condition that is compiled. -/
def maxDepth : Nat :=
  32

/-- The clause of a condition of any depth; the leftmost fault is reported. -/
def toClause (partitionColumns : List String) : Condition → Except BackendError Clause
  | .and left right =>
    match left.toClause partitionColumns with
    | .error e => .error e
    | .ok l =>
      match right.toClause partitionColumns with
      | .error e => .error e
      | .ok r => .ok (.and l r)
  | .or _ _ => .error (.unsupported .disjunction)
  | .relation r => r.toClause partitionColumns

/-- The compiled form of a condition that is not too deep. -/
def compile (condition : Condition) (partitionColumns : List String) :
    Except BackendError CompiledCondition :=
  if maxDepth < condition.depth then
    .error (.invalidArgument (.conditionTooDeep condition.depth maxDepth))
  else
    (condition.toClause partitionColumns).map fun clause => ⟨clause, clause.needsFiltering⟩

end Condition

end WideGraph
