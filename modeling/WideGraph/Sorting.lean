/-!
# Stable sorting

A list in the order of a comparison, in which items that compare as equal keep their places
relative to each other.
-/

namespace WideGraph

variable {α : Type}

/-- Put an item before the first one that it does not come after. -/
def insertStable (order : α → α → Ordering) (a : α) : List α → List α
  | [] => [a]
  | b :: rest => if order a b = .gt then b :: insertStable order a rest else a :: b :: rest

/-- The items in order; equal ones stay as they were. -/
def sortStable (order : α → α → Ordering) : List α → List α
  | [] => []
  | a :: rest => insertStable order a (sortStable order rest)

/-- Putting an item into its place adds that item and nothing else. -/
theorem insertStable_perm (order : α → α → Ordering) (a : α) (items : List α) :
    (insertStable order a items).Perm (a :: items) := by
  induction items with
  | nil => exact List.Perm.refl _
  | cons b rest ih =>
    rw [insertStable]
    split
    · exact (ih.cons b).trans (List.Perm.swap a b rest)
    · exact List.Perm.refl _

/-- Sorting neither loses nor repeats an item. -/
theorem sortStable_perm (order : α → α → Ordering) (items : List α) :
    (sortStable order items).Perm items := by
  induction items with
  | nil => exact List.Perm.refl _
  | cons a rest ih => exact (insertStable_perm order a _).trans (ih.cons a)

end WideGraph
