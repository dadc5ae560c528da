import WideGraph.Identifier
import WideGraph.Statement.Clause
import WideGraph.Schema.Column
import WideGraph.Value.Written

/-!
# Conditions of a query

A condition is a tree of relations between a column and an operand. It is given in the terms of the
graph, before identifiers and directions have become the texts that are stored. Two conditions are
taken as the same when they differ at most in how their values are represented.
-/

namespace WideGraph

/-- What a column is related to. -/
inductive Operand where
  | value (value : Value)
  | identifier (id : Identifier)
  | direction (direction : Direction)
  | list (items : List Operand)

/-- How a column is related to its operand. In a scan the place of the column is taken by the first
token of a range, and the operand is the token behind its last one. -/
inductive RelationKind where
  | compare (comparison : Comparison)
  | notEqual
  | isIn
  | containsKey
  | scan
deriving DecidableEq, Repr

/-- One relation between a column and an operand. -/
structure Relation where
  key : String
  kind : RelationKind
  operand : Operand

/-- A tree of relations. -/
inductive Condition where
  | and (left right : Condition)
  | or (left right : Condition)
  | relation (relation : Relation)

namespace Direction

/-- The name of a direction in tagged form. -/
def tag (direction : Direction) : String :=
  Text.camelCase direction.name

end Direction

namespace Operand

mutual

/-- Whether two operands are of one kind and the same in every part. -/
def same : Operand → Operand → Bool
  | .value a, .value b => a.same b
  | .identifier a, .identifier b => a == b
  | .direction a, .direction b => a == b
  | .list as, .list bs => sameLists as bs
  | _, _ => false

/-- Whether two lists of operands are the same item by item. -/
def sameLists : List Operand → List Operand → Bool
  | [], [] => true
  | a :: as, b :: bs => same a b && sameLists as bs
  | _, _ => false

end

mutual

/-- The value that is bound for an operand: an identifier's text, a direction's name. -/
def toValue : Operand → Value
  | .value v => v
  | .identifier id => .text id.text
  | .direction d => .text d.name
  | .list items => .list (toValues items)

/-- The values that are bound for several operands. -/
def toValues : List Operand → List Value
  | [] => []
  | item :: rest => toValue item :: toValues rest

end

mutual

/-- The tagged form of an operand. -/
def tagged : Operand → String
  | .value v => "Value(" ++ v.tagged ++ ")"
  | .identifier id => "Id(Id(" ++ Text.quoted id.text ++ "))"
  | .direction d => "Direction(" ++ d.tag ++ ")"
  | .list items => "List([" ++ Value.commaSeparated (taggedItems items) ++ "])"

/-- The tagged forms of several operands. -/
def taggedItems : List Operand → List String
  | [] => []
  | item :: rest => tagged item :: taggedItems rest

end

end Operand

namespace RelationKind

/-- The sign of a relation in a condition. -/
def sign : RelationKind → String
  | .compare .eq => "=="
  | .compare comparison => comparison.sign
  | .notEqual => "!="
  | .isIn => "in"
  | .containsKey => "containsk"
  | .scan => "scan"

/-- The name of a relation in tagged form. -/
def tag : RelationKind → String
  | .compare .eq => "Eq"
  | .compare .gt => "Gt"
  | .compare .gte => "Gte"
  | .compare .lt => "Lt"
  | .compare .lte => "Lte"
  | .notEqual => "Neq"
  | .isIn => "In"
  | .containsKey => "ContainsKey"
  | .scan => "Scan"

/-- Every relation. -/
def all : List RelationKind :=
  [.compare .eq, .notEqual, .compare .gt, .compare .gte, .compare .lt, .compare .lte, .isIn,
    .containsKey, .scan]

end RelationKind

namespace Relation

/-- A relation as it is shown in messages. -/
def shown (relation : Relation) : String :=
  relation.key ++ " " ++ relation.kind.sign ++ " " ++ relation.operand.tagged

/-- The tagged form of a relation. -/
def tagged (relation : Relation) : String :=
  "Relation \x7b key: " ++ Text.quoted relation.key ++ ", relation: " ++ relation.kind.tag ++
    ", value: " ++ relation.operand.tagged ++ " \x7d"

/-- Whether two relations are the same in every part. -/
def same (a b : Relation) : Bool :=
  a.key == b.key && a.kind == b.kind && a.operand.same b.operand

end Relation

namespace Condition

/-- The condition that a column compares with an operand. -/
def compare (comparison : Comparison) (column : Column) (operand : Operand) : Condition :=
  .relation ⟨column.nativeName, .compare comparison, operand⟩

/-- The condition that a row's token lies in a range, its end excluded. -/
def scan (start stop : String) : Condition :=
  .relation ⟨start, .scan, .value (.text stop)⟩

/-- Whether two conditions are trees of one shape with the same relations. -/
def same : Condition → Condition → Bool
  | .and a b, .and c d => a.same c && b.same d
  | .or a b, .or c d => a.same c && b.same d
  | .relation a, .relation b => a.same b
  | _, _ => false

/-- The length of the longest path from the root to a relation. -/
def depth : Condition → Nat
  | .relation _ => 1
  | .and left right | .or left right => 1 + max left.depth right.depth

/-- The tagged form of a condition. -/
def tagged : Condition → String
  | .and left right => "And(" ++ left.tagged ++ ", " ++ right.tagged ++ ")"
  | .or left right => "Or(" ++ left.tagged ++ ", " ++ right.tagged ++ ")"
  | .relation r => "Relation(" ++ r.tagged ++ ")"

end Condition

end WideGraph
