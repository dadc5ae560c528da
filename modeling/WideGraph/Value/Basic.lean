import WideGraph.Collection
import WideGraph.Decimal.Rounding
import WideGraph.Decimal.Layout
import WideGraph.Text.Quoted

/-!
# Column values

A value is what a statement binds or a cell holds. Whole and decimal numbers are compared by
magnitude across the two kinds; other kinds are ordered by kind first. Two values are taken as the
same when neither comes before the other, so the whole number three is the decimal three.
-/

namespace WideGraph

/-- A value bound to a column. -/
inductive Value where
  | null
  | text (t : String)
  | bigint (n : Int64)
  | decimal (x : Binary64)
  | set (elements : TextSet)
  | map (pairs : TextMap)
  | list (items : List Value)

instance : Inhabited Value := ⟨.null⟩

namespace Value

/-- The place of a value's kind in the order of kinds. -/
def kindRank : Value → Nat
  | .null => 0
  | .bigint _ => 1
  | .decimal _ => 2
  | .text _ => 3
  | .set _ => 4
  | .map _ => 5
  | .list _ => 6

/-- The name of a value's kind. -/
def kindName : Value → String
  | .null => "null"
  | .text _ => "text"
  | .bigint _ => "bigint"
  | .decimal _ => "decimal"
  | .set _ => "set"
  | .map _ => "map"
  | .list _ => "list"

/-- Whether a value is null. -/
def isNull : Value → Bool
  | .null => true
  | _ => false

/-- The text of a text value. -/
def text? : Value → Option String
  | .text t => some t
  | _ => none

/-- The whole number nearest to `n` that a signed 64-bit word holds. -/
def clampToWord (n : Int) : Int64 :=
  Int64.ofInt (min (max n Int64.minValue.toInt) Int64.maxValue.toInt)

/-- The value of a number without a fraction, clamped to the range of signed words. -/
def integer? : Value → Option Int64
  | .bigint n => some n
  | .decimal x => x.integer?.map clampToWord
  | _ => none

/-- Pairs of texts in the order of their keys, then of their values. -/
def comparePairs (a b : String × String) : Ordering :=
  (compare a.1 b.1).then (compare a.2 b.2)

mutual

/-- The order of values: numbers by magnitude, otherwise first by kind and then inside the kind. -/
def order : Value → Value → Ordering
  | .bigint n, .decimal x => (Binary64.ofInt n.toInt).compare x
  | .decimal x, .bigint n => x.compare (Binary64.ofInt n.toInt)
  | .text s, .text t => compare s t
  | .bigint n, .bigint m => compare n m
  | .decimal x, .decimal y => x.compare y
  | .set s, .set t => compare s.toList t.toList
  | .map m, .map n => List.compareLex comparePairs m.bindings n.bindings
  | .list as, .list bs => orderLists as bs
  | a, b => compare a.kindRank b.kindRank

/-- Lists of values in lexicographic order. -/
def orderLists : List Value → List Value → Ordering
  | [], [] => .eq
  | [], _ :: _ => .lt
  | _ :: _, [] => .gt
  | a :: as, b :: bs => (order a b).then (orderLists as bs)

end

instance : Ord Value := ⟨Value.order⟩

/-- Whether two values are taken as the same. -/
def same (a b : Value) : Bool :=
  order a b == .eq

end Value

end WideGraph
