import WideGraph.Value.Basic

/-!
# Identity of values

Identity is finer than being the same: it tells the whole number three from the decimal three.
It is decidable, so that statements, rows and answers can be compared exactly.
-/

namespace WideGraph.Value

mutual

/-- Whether two values are of one kind and equal in every part. -/
def identical : Value → Value → Bool
  | .null, .null => true
  | .text s, .text t => s == t
  | .bigint n, .bigint m => n == m
  | .decimal x, .decimal y => x == y
  | .set s, .set t => s == t
  | .map m, .map n => m == n
  | .list as, .list bs => identicalLists as bs
  | _, _ => false

/-- Whether two lists of values are identical item by item. -/
def identicalLists : List Value → List Value → Bool
  | [], [] => true
  | a :: as, b :: bs => identical a b && identicalLists as bs
  | _, _ => false

end

mutual

/-- Identity is equality. -/
theorem identical_iff : (a b : Value) → (identical a b = true ↔ a = b)
  | .null, b => by cases b <;> simp [identical]
  | .text s, b => by cases b <;> simp [identical]
  | .bigint n, b => by cases b <;> simp [identical]
  | .decimal x, b => by cases b <;> simp [identical]
  | .set s, b => by cases b <;> simp [identical]
  | .map m, b => by cases b <;> simp [identical]
  | .list as, b => by cases b <;> simp [identical, identicalLists_iff as]

/-- Identity of lists is equality. -/
theorem identicalLists_iff : (as bs : List Value) → (identicalLists as bs = true ↔ as = bs)
  | [], bs => by cases bs <;> simp [identicalLists]
  | a :: as, bs => by cases bs <;> simp [identicalLists, identical_iff a, identicalLists_iff as]

end

instance : DecidableEq Value := fun a b => decidable_of_iff _ (identical_iff a b)

end WideGraph.Value
