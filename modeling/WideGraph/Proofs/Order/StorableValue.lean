import WideGraph.Proofs.Order.LawfulOn
import WideGraph.Store.Table

/-!
# The order of the values that tables keep

Binding turns every whole number into a decimal and every list into a set, so that neither is ever
stored. On what remains the order of values is a total order with identical equals, and so is the
order of the row keys made of it.
-/

namespace WideGraph

/-- Sets with the same elements in order are the same set. -/
theorem TextSet.toList_injective {s t : TextSet} (h : s.toList = t.toList) : s = t :=
  TextSet.eq_of_contains fun u => by rw [TextSet.contains, TextSet.contains, h]

/-- Maps with the same pairs in order are the same map. -/
theorem TextMap.bindings_injective {m n : TextMap} (h : m.bindings = n.bindings) : m = n :=
  TextMap.eq_of_find? fun key => by rw [TextMap.find?, TextMap.find?, h]

namespace Value

instance : Std.TransCmp comparePairs :=
  inferInstanceAs (Std.TransCmp (compareLex (compareOn Prod.fst) (compareOn Prod.snd)))

instance : Std.LawfulEqCmp comparePairs where
  compare_self {a} := by simp [comparePairs]
  eq_of_compare {a b} h := by
    rw [comparePairs, Ordering.then_eq_eq] at h
    exact Prod.ext (Std.LawfulEqCmp.eq_of_compare h.1) (Std.LawfulEqCmp.eq_of_compare h.2)

mutual

/-- Every value is in the same place as itself. -/
theorem order_self : (v : Value) → order v v = .eq
  | .null => rfl
  | .text t => by rw [order]; exact Std.ReflCmp.compare_self
  | .bigint n => by rw [order]; exact Std.ReflCmp.compare_self
  | .decimal x => by rw [order, Binary64.compare]; exact Std.ReflCmp.compare_self
  | .set s => by rw [order]; exact Std.ReflCmp.compare_self
  | .map m => by rw [order]; exact Std.ReflCmp.compare_self
  | .list items => by rw [order, orderLists_self items]

/-- Every list of values is in the same place as itself. -/
theorem orderLists_self : (vs : List Value) → orderLists vs vs = .eq
  | [] => rfl
  | v :: vs => by rw [orderLists, order_self v, orderLists_self vs]; rfl

end

/-- A table can hold the value: it is neither a whole number nor a list. -/
def Storable : Value → Prop
  | .bigint _ | .list _ => False
  | _ => True

/-- What a storable value is ordered by inside its kind: a number's place on the line, the texts of
a text or set, and the pairs of a map. -/
def sortKey : Value → Int × List String × List (String × String)
  | .decimal x => (x.position, [], [])
  | .text t => (0, [t], [])
  | .set s => (0, s.toList, [])
  | .map m => (0, [], m.bindings)
  | _ => (0, [], [])

/-- Sort keys part by part. -/
def compareSortKeys (a b : Int × List String × List (String × String)) : Ordering :=
  (compare a.1 b.1).then ((compare a.2.1 b.2.1).then (List.compareLex comparePairs a.2.2 b.2.2))

/-- Sort keys are in a total order. -/
theorem compareSortKeys_lawfulOn : LawfulOn compareSortKeys fun _ => True := by
  have numbers : LawfulOn (compare : Int → Int → Ordering) fun _ => True := .of_lawful
  have texts : LawfulOn (compare : List String → List String → Ordering) fun _ => True :=
    .of_lawful
  have pairs : LawfulOn (List.compareLex comparePairs) fun _ => True := .of_lawful
  have collections : LawfulOn (fun a b : List String × List (String × String) =>
      (compare a.1 b.1).then (List.compareLex comparePairs a.2 b.2)) fun _ => True :=
    .lex texts pairs Prod.fst Prod.snd (fun _ _ => trivial) (fun _ _ => trivial) fun _ _ => Prod.ext
  exact .lex numbers collections Prod.fst Prod.snd (fun _ _ => trivial) (fun _ _ => trivial)
    fun _ _ => Prod.ext

/-- Storable values are ordered by their kind and then by their sort key. -/
theorem order_eq_sortKey {a b : Value} (ha : a.Storable) (hb : b.Storable) :
    order a b = (compare a.kindRank b.kindRank).then (compareSortKeys a.sortKey b.sortKey) := by
  cases a <;> cases b <;> first | exact ha.elim | exact hb.elim | rfl | skip
  case text.text s t =>
    simp [order, kindRank, compareSortKeys, sortKey, List.compareLex_nil_nil]
  case decimal.decimal =>
    simp [order, kindRank, compareSortKeys, sortKey, Binary64.compare, List.compareLex_nil_nil]
  case set.set => simp [order, kindRank, compareSortKeys, sortKey, List.compareLex_nil_nil]

/-- A storable value is fixed by its kind and its sort key. -/
theorem eq_of_sortKey {a b : Value} (ha : a.Storable) (hb : b.Storable)
    (hkind : a.kindRank = b.kindRank) (hkey : a.sortKey = b.sortKey) : a = b := by
  cases a <;> cases b <;> simp_all [Storable, kindRank, sortKey]
  case decimal.decimal => exact Binary64.position_injective hkey
  case set.set => exact TextSet.toList_injective hkey
  case map.map => exact TextMap.bindings_injective hkey

/-- On storable values the order is total and equal values are identical. -/
theorem order_lawfulOn : LawfulOn order Storable := by
  have ranks : LawfulOn (compare : Nat → Nat → Ordering) fun _ => True := .of_lawful
  have law : LawfulOn (fun a b : Subtype Storable =>
      (compare a.1.kindRank b.1.kindRank).then (compareSortKeys a.1.sortKey b.1.sortKey))
      fun _ => True :=
    .lex ranks compareSortKeys_lawfulOn (fun a => a.1.kindRank) (fun a => a.1.sortKey)
      (fun _ _ => trivial) (fun _ _ => trivial)
      fun a b hkind hkey => Subtype.ext (eq_of_sortKey a.2 b.2 hkind hkey)
  refine ⟨fun a b ha hb => ?_, fun a b ha hb => ?_, fun a b c ha hb hc hab hbc => ?_⟩
  · rw [order_eq_sortKey ha hb, law.eq_iff ⟨a, ha⟩ ⟨b, hb⟩ trivial trivial, Subtype.mk.injEq]
  · rw [order_eq_sortKey ha hb, order_eq_sortKey hb ha]
    exact law.swap ⟨a, ha⟩ ⟨b, hb⟩ trivial trivial
  · rw [order_eq_sortKey ha hb] at hab
    rw [order_eq_sortKey hb hc] at hbc
    rw [order_eq_sortKey ha hc]
    exact law.lt_trans ⟨a, ha⟩ ⟨b, hb⟩ ⟨c, hc⟩ trivial trivial trivial hab hbc

/-- Storable values are taken as the same only if they are identical. -/
theorem same_iff {a b : Value} (ha : a.Storable) (hb : b.Storable) : a.same b = true ↔ a = b := by
  rw [same, beq_iff_eq, order_lawfulOn.eq_iff a b ha hb]

/-- Every value of a list is storable. -/
def AllStorable (values : List Value) : Prop :=
  ∀ v ∈ values, v.Storable

/-- Lists of storable values are in a total order, too. -/
theorem orderLists_lawfulOn : LawfulOn orderLists AllStorable where
  eq_iff as bs ha hb := by
    induction as generalizing bs with
    | nil => cases bs <;> simp [orderLists]
    | cons a as ih =>
      cases bs with
      | nil => simp [orderLists]
      | cons b bs =>
        rw [AllStorable, List.forall_mem_cons] at ha hb
        rw [orderLists, Ordering.then_eq_eq, order_lawfulOn.eq_iff a b ha.1 hb.1,
          ih bs ha.2 hb.2, List.cons.injEq]
  swap as bs ha hb := by
    induction as generalizing bs with
    | nil => cases bs <;> rfl
    | cons a as ih =>
      cases bs with
      | nil => rfl
      | cons b bs =>
        rw [AllStorable, List.forall_mem_cons] at ha hb
        rw [orderLists, orderLists, Ordering.swap_then, order_lawfulOn.swap a b ha.1 hb.1,
          ih bs ha.2 hb.2]
  lt_trans as bs cs ha hb hc hab hbc := by
    induction as generalizing bs cs with
    | nil => cases bs <;> cases cs <;> simp_all [orderLists]
    | cons a as ih =>
      cases bs with
      | nil => simp [orderLists] at hab
      | cons b bs =>
        cases cs with
        | nil => simp [orderLists] at hbc
        | cons c cs =>
          rw [AllStorable, List.forall_mem_cons] at ha hb hc
          rw [orderLists, Ordering.then_eq_lt] at hab hbc ⊢
          rcases hab with hab | ⟨heq, hab⟩
          · rcases hbc with hbc | ⟨heq, -⟩
            · exact .inl (order_lawfulOn.lt_trans a b c ha.1 hb.1 hc.1 hab hbc)
            · rw [order_lawfulOn.eq_iff b c hb.1 hc.1] at heq
              exact .inl (heq ▸ hab)
          · rw [order_lawfulOn.eq_iff a b ha.1 hb.1] at heq
            rw [heq]
            rcases hbc with hbc | ⟨heq', hbc⟩
            · exact .inl hbc
            · exact .inr ⟨heq', ih bs cs ha.2 hb.2 hc.2 hab hbc⟩

end Value

namespace RowKey

/-- Every row key is in the same place as itself. -/
theorem order_self (key : RowKey) : compare key key = .eq := by
  change RowKey.order key key = .eq
  simp [RowKey.order, Value.orderLists_self]

/-- Every part of a row key is storable. -/
def Storable (key : RowKey) : Prop :=
  Value.AllStorable key.partition ∧ Value.AllStorable key.clustering

/-- Row keys with storable parts are in a total order. -/
theorem compare_lawfulOn : LawfulOn (compare : RowKey → RowKey → Ordering) Storable := by
  have parts : LawfulOn (fun a b : List Value × List Value =>
      (Value.orderLists a.1 b.1).then (Value.orderLists a.2 b.2))
      fun parts => Value.AllStorable parts.1 ∧ Value.AllStorable parts.2 :=
    .lex Value.orderLists_lawfulOn Value.orderLists_lawfulOn Prod.fst Prod.snd
      (fun _ h => h.1) (fun _ h => h.2) fun _ _ => Prod.ext
  have tokens : LawfulOn (compare : Int64 → Int64 → Ordering) fun _ => True := .of_lawful
  refine .lex tokens parts RowKey.token (fun key => (key.partition, key.clustering))
    (fun _ _ => trivial) (fun _ h => h) fun a b htoken hparts => ?_
  cases a
  cases b
  simp_all

end RowKey

end WideGraph
