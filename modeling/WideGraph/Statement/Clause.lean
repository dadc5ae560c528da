import WideGraph.Value.Identity

/-!
# Restrictions on rows

A clause restricts the rows that a statement is about. Bound values are kept beside the text, in
the order of their markers; the bounds of a token range stand in the text as they are.
-/

namespace WideGraph

/-- The ways to compare a column with a value. -/
inductive Comparison where
  | eq
  | gt
  | gte
  | lt
  | lte
deriving DecidableEq, Repr

/-- The sign of a comparison in a statement. -/
def Comparison.sign : Comparison → String
  | .eq => "="
  | .gt => ">"
  | .gte => ">="
  | .lt => "<"
  | .lte => "<="

/-- Whether a comparison holds for two values in this order. -/
def Comparison.accepts : Comparison → Ordering → Bool
  | .eq, o => o.isEq
  | .gt, o => o.isGT
  | .gte, o => o.isGE
  | .lt, o => o.isLT
  | .lte, o => o.isLE

/-- A restriction on the rows of a statement. -/
inductive Clause where
  | compare (comparison : Comparison) (column : String) (value : Value)
  | isIn (column : String) (values : List Value)
  | containsKey (column : String) (value : Value)
  | tokenAtLeast (columns : List String) (token : String)
  | tokenBelow (columns : List String) (token : String)
  | and (left right : Clause)
deriving DecidableEq

namespace Clause

/-- The clause that a column equals a value. -/
def eq (column : String) (value : Value) : Clause :=
  .compare .eq column value

/-- Whether a clause is only answered when filtering is allowed. -/
def needsFiltering : Clause → Bool
  | .containsKey _ _ => true
  | .and left right => left.needsFiltering || right.needsFiltering
  | _ => false

/-- The clauses that a conjunction joins, from left to right. -/
def leaves : Clause → List Clause
  | .and left right => left.leaves ++ right.leaves
  | leaf => [leaf]

end Clause

/-- A statement's text with a marker for each bound value, and the values in marker order. -/
structure BoundText where
  text : String
  values : List Value
deriving DecidableEq

namespace BoundText

/-- Text without markers. -/
def plain (text : String) : BoundText :=
  ⟨text, []⟩

instance : Append BoundText := ⟨fun a b => ⟨a.text ++ b.text, a.values ++ b.values⟩⟩

/-- Several texts one after the other, with a separator between any two. -/
def joined (separator : String) : List BoundText → BoundText
  | [] => plain ""
  | [a] => a
  | a :: b :: rest => a ++ plain separator ++ joined separator (b :: rest)

end BoundText

/-- As many markers as there are items, separated by commas. -/
def markers {α : Type} (items : List α) : String :=
  ", ".intercalate (items.map fun _ => "?")

/-- The text of a clause. -/
def Clause.bound : Clause → BoundText
  | .compare comparison column value => ⟨column ++ " " ++ comparison.sign ++ " ?", [value]⟩
  | .isIn column values => ⟨column ++ " IN (" ++ markers values ++ ")", values⟩
  | .containsKey column value => ⟨column ++ " CONTAINS KEY ?", [value]⟩
  | .tokenAtLeast columns token =>
    .plain ("token(" ++ ", ".intercalate columns ++ ") >= " ++ token)
  | .tokenBelow columns token =>
    .plain ("token(" ++ ", ".intercalate columns ++ ") < " ++ token)
  | .and left right => left.bound ++ .plain " AND " ++ right.bound

/-- The restriction part of a statement, empty if nothing is restricted. -/
def whereText (clauses : List Clause) : BoundText :=
  if clauses = [] then .plain "" else .plain " WHERE " ++ .joined " AND " (clauses.map Clause.bound)

end WideGraph
