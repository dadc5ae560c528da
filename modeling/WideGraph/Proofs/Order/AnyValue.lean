import WideGraph.Proofs.Decimal.WholeNumbers
import WideGraph.Proofs.Order.StorableValue

/-!
# The order of all values

Two values always compare the same from either side. More than that depends on which values meet: a
whole number is compared with a decimal by the decimal nearest to it, and with another whole number
exactly. Two whole numbers that come to the same decimal are then told apart by each other but not
by that decimal, so that being the same is not transitive. This is the only way in which the laws of
an order fail. They hold of the values that are made of any numbers among which it does not happen,
in particular of those whose whole numbers lie within 2^53 in either direction.
-/

namespace WideGraph

namespace Value

/-- The value is not a list. -/
def Atomic : Value → Prop
  | .list _ => False
  | _ => True

/-- The value with a whole number turned into the decimal nearest to it. -/
def rounded : Value → Value
  | .bigint n => .decimal (Binary64.ofInt n.toInt)
  | v => v

/-- How two whole numbers compare. No other values are told apart in this way. -/
def compareExactly : Value → Value → Ordering
  | .bigint n, .bigint m => compare n m
  | _, _ => .eq

mutual

/-- The value has a property, or is a list of values made of values with the property. -/
def MadeOf (p : Value → Prop) : Value → Prop
  | .list items => AllMadeOf p items
  | v => p v

/-- Every value of a list is made of values with a property. -/
def AllMadeOf (p : Value → Prop) : List Value → Prop
  | [] => True
  | v :: vs => MadeOf p v ∧ AllMadeOf p vs

end

/-- Among the values with a property are two different whole numbers that come to the same decimal,
and that decimal. -/
def Collides (p : Value → Prop) : Prop :=
  ∃ n m : Int64, n ≠ m ∧ Binary64.ofInt n.toInt = Binary64.ofInt m.toInt ∧
    p (.bigint n) ∧ p (.bigint m) ∧ p (.decimal (Binary64.ofInt n.toInt))

/-- The laws of an order on the values with a property: whichever way two values compare, it carries
over a third one, and values that are the same compare alike with every other. -/
structure OrderLaws (p : Value → Prop) : Prop where
  trans : ∀ a b c, p a → p b → p c → ∀ o, order a b = o → order b c = o → order a c = o
  congr : ∀ a b c, p a → p b → p c → a.same b = true → order a c = order b c

/-- A value that is not a list can be kept when it is rounded. -/
theorem storable_rounded {v : Value} (h : v.Atomic) : v.rounded.Storable := by
  cases v with
  | list items => exact h.elim
  | _ => trivial

/-- A value that is not a list is made of values with a property if it has the property. -/
theorem madeOf_iff {p : Value → Prop} {v : Value} (h : v.Atomic) : MadeOf p v ↔ p v := by
  cases v with
  | list items => exact h.elim
  | _ => rfl

/-- Whole numbers compare as the decimals nearest to them do, unless these are equal. -/
theorem compare_eq_rounded (n m : Int64) :
    compare n m =
      ((Binary64.ofInt n.toInt).compare (Binary64.ofInt m.toInt)).then (compare n m) := by
  rw [Binary64.compare]
  cases hcompare : compare n m with
  | eq =>
    obtain rfl := Std.LawfulEqCmp.eq_of_compare hcompare
    have hself : ∀ place : Int, compare place place = .eq := fun _ => Std.ReflCmp.compare_self
    rw [hself]
    rfl
  | lt =>
    have hlt : n < m := Std.compare_eq_lt.mp hcompare
    have hle := Binary64.position_ofInt_mono (Int.le_of_lt (Int64.lt_iff_toInt_lt.mp hlt))
    cases hplaces : Ord.compare (Binary64.ofInt n.toInt).position
        (Binary64.ofInt m.toInt).position with
    | gt => exact absurd hle (Int.not_le.mpr (Std.compare_eq_gt.mp hplaces))
    | _ => rfl
  | gt =>
    have hlt : m < n := Std.compare_eq_gt.mp hcompare
    have hle := Binary64.position_ofInt_mono (Int.le_of_lt (Int64.lt_iff_toInt_lt.mp hlt))
    cases hplaces : Ord.compare (Binary64.ofInt n.toInt).position
        (Binary64.ofInt m.toInt).position with
    | lt => exact absurd hle (Int.not_le.mpr (Std.compare_eq_lt.mp hplaces))
    | _ => rfl

/-- Values that are not lists are ordered by what they are rounded to, and then exactly. -/
theorem order_eq_rounded {a b : Value} (ha : a.Atomic) (hb : b.Atomic) :
    order a b = (order a.rounded b.rounded).then (compareExactly a b) := by
  cases a with
  | list items => exact ha.elim
  | bigint n =>
    cases b with
    | list items => exact hb.elim
    | bigint m => exact compare_eq_rounded n m
    | _ => simp [order, rounded, compareExactly, kindRank] <;> decide
  | _ =>
    cases b with
    | list items => exact hb.elim
    | _ => simp [order, rounded, compareExactly, kindRank] <;> decide

/-- The exact comparison is the same from either side. -/
theorem compareExactly_swap (a b : Value) : (compareExactly a b).swap = compareExactly b a := by
  cases a with
  | bigint n =>
    cases b with
    | bigint m =>
      have hswap : compare m n = (compare n m).swap := Std.OrientedCmp.eq_swap
      exact hswap.symm
    | _ => rfl
  | _ => cases b <;> rfl

/-- A list comes behind every other value. -/
theorem order_list {v : Value} (h : v.Atomic) (items : List Value) :
    order v (.list items) = .lt ∧ order (.list items) v = .gt := by
  cases v with
  | list items => exact h.elim
  | _ => exact ⟨rfl, rfl⟩

/-- What compares first by one part and then by another goes on over a third item if both parts do.
-/
theorem then_chain {ab bc ac ab' bc' ac' : Ordering}
    (h : ab.isLE = true → bc.isLE = true → ac = ab.then bc)
    (h' : ab'.isLE = true → bc'.isLE = true → ac' = ab'.then bc')
    (hab : (ab.then ab').isLE = true) (hbc : (bc.then bc').isLE = true) :
    ac.then ac' = (ab.then ab').then (bc.then bc') := by
  cases ab <;> cases bc <;> cases ab' <;> cases bc' <;> simp_all

section Atomic

variable {p : Value → Prop} {a b c : Value}

/-- Values that are rounded to a decimal that is there are not told apart exactly, if nothing
collides. -/
theorem compareExactly_eq (hp : ¬Collides p) (ha : p a) (hb : p b) {x : Binary64}
    (hx : p (.decimal x)) (hax : a.rounded = .decimal x) (hbx : b.rounded = .decimal x) :
    compareExactly a b = .eq := by
  cases a with
  | bigint n =>
    cases b with
    | bigint m =>
      simp only [rounded, Value.decimal.injEq] at hax hbx
      have hnm : n = m := Decidable.byContradiction fun hne =>
        hp ⟨n, m, hne, hax.trans hbx.symm, ha, hb, hax.symm ▸ hx⟩
      have hself : compare m m = .eq := Std.ReflCmp.compare_self
      rw [hnm]
      exact hself
    | _ => rfl
  | _ => rfl

/-- Among values that are rounded to the same one the exact comparison is that of an order, if
nothing collides. -/
theorem compareExactly_chain (hp : ¬Collides p) (ha : p a) (hb : p b) (hc : p c)
    (hab : a.rounded = b.rounded) (hbc : b.rounded = c.rounded)
    (hle : (compareExactly a b).isLE = true) (hle' : (compareExactly b c).isLE = true) :
    compareExactly a c = (compareExactly a b).then (compareExactly b c) := by
  have hac := hab.trans hbc
  -- Where one of the three is the decimal, no two of them are told apart.
  cases a with
  | bigint n =>
    cases b with
    | bigint m =>
      cases c with
      | bigint k =>
        change compare n k = (compare n m).then (compare m k)
        change (compare n m).isLE = true at hle
        cases hnm : compare n m with
        | lt => exact Std.TransCmp.lt_of_lt_of_isLE hnm hle'
        | eq => rw [Std.LawfulEqCmp.eq_of_compare hnm]; rfl
        | gt => rw [hnm] at hle; cases hle
      | decimal x => rw [compareExactly_eq hp ha hb hc hac hbc]; rfl
      | _ => cases hbc
    | decimal x =>
      cases c with
      | bigint k => exact compareExactly_eq hp ha hc hb hab hbc.symm
      | _ => rfl
    | _ => cases hab
  | decimal x =>
    cases b with
    | bigint m => exact (compareExactly_eq hp hb hc ha hab.symm hac.symm).symm
    | _ => rfl
  | _ => cases b <;> first | rfl | cases hab

/-- Values that are not lists are in an order, if nothing collides. -/
theorem order_chain_atomic (hp : ¬Collides p) (ha : a.Atomic) (hb : b.Atomic) (hc : c.Atomic)
    (hpa : p a) (hpb : p b) (hpc : p c) (hab : (order a b).isLE = true)
    (hbc : (order b c).isLE = true) : order a c = (order a b).then (order b c) := by
  have law := order_lawfulOn
  have hra := storable_rounded ha
  have hrb := storable_rounded hb
  have hrc := storable_rounded hc
  rw [order_eq_rounded ha hb] at hab ⊢
  rw [order_eq_rounded hb hc] at hbc ⊢
  rw [order_eq_rounded ha hc]
  cases hroundedAB : order a.rounded b.rounded with
  | gt => rw [hroundedAB] at hab; cases hab
  | lt =>
    have hroundedAC : order a.rounded c.rounded = .lt := by
      cases hroundedBC : order b.rounded c.rounded with
      | gt => rw [hroundedBC] at hbc; cases hbc
      | lt => exact law.lt_trans _ _ _ hra hrb hrc hroundedAB hroundedBC
      | eq => rwa [← (law.eq_iff _ _ hrb hrc).mp hroundedBC]
    rw [hroundedAC]
    rfl
  | eq =>
    have heqAB := (law.eq_iff _ _ hra hrb).mp hroundedAB
    rw [hroundedAB] at hab
    rw [heqAB]
    cases hroundedBC : order b.rounded c.rounded with
    | gt => rw [hroundedBC] at hbc; cases hbc
    | lt =>
      cases hexact : compareExactly a b with
      | gt => rw [hexact] at hab; cases hab
      | _ => rfl
    | eq =>
      rw [hroundedBC] at hbc
      exact compareExactly_chain hp hpa hpb hpc heqAB ((law.eq_iff _ _ hrb hrc).mp hroundedBC) hab
        hbc

end Atomic

/-- A value that is not a list is in an order with any others, if nothing collides. -/
theorem order_chain_of_atomic {p : Value → Prop} (hp : ¬Collides p) {a : Value} (ha : a.Atomic)
    (b c : Value) (hpa : MadeOf p a) (hpb : MadeOf p b) (hpc : MadeOf p c)
    (hab : (order a b).isLE = true) (hbc : (order b c).isLE = true) :
    order a c = (order a b).then (order b c) := by
  cases hb : b with
  | list bs =>
    subst hb
    cases hc : c with
    | list cs =>
      rw [(order_list ha bs).1, (order_list ha cs).1]
      rfl
    | _ =>
      rw [(order_list (v := c) (by rw [hc]; trivial) bs).2] at hbc
      cases hbc
  | _ =>
    rw [← hb]
    have hatomic : b.Atomic := by rw [hb]; trivial
    cases hc : c with
    | list cs =>
      subst hc
      rw [(order_list ha cs).1, (order_list hatomic cs).1]
      cases horder : order a b with
      | gt => rw [horder] at hab; cases hab
      | _ => rfl
    | _ =>
      rw [← hc]
      have hatomic' : c.Atomic := by rw [hc]; trivial
      exact order_chain_atomic hp ha hatomic hatomic' ((madeOf_iff ha).mp hpa)
        ((madeOf_iff hatomic).mp hpb) ((madeOf_iff hatomic').mp hpc) hab hbc

mutual

/-- Of three values, none before the one ahead of it, the first compares with the last as the two
steps between them do together, if they are made of values among which nothing collides. -/
theorem order_chain {p : Value → Prop} (hp : ¬Collides p) (a b c : Value) (ha : MadeOf p a)
    (hb : MadeOf p b) (hc : MadeOf p c) (hab : (order a b).isLE = true)
    (hbc : (order b c).isLE = true) : order a c = (order a b).then (order b c) := by
  cases a with
  | list as =>
    cases b with
    | list bs =>
      cases c with
      | list cs =>
        simp only [order] at hab hbc ⊢
        exact orderLists_chain hp as bs cs ha hb hc hab hbc
      | _ => cases hbc
    | _ => cases hab
  | _ => exact order_chain_of_atomic hp (by trivial) b c ha hb hc hab hbc

/-- The same of lists of values. -/
theorem orderLists_chain {p : Value → Prop} (hp : ¬Collides p) (as bs cs : List Value)
    (ha : AllMadeOf p as) (hb : AllMadeOf p bs) (hc : AllMadeOf p cs)
    (hab : (orderLists as bs).isLE = true) (hbc : (orderLists bs cs).isLE = true) :
    orderLists as cs = (orderLists as bs).then (orderLists bs cs) := by
  cases as with
  | nil =>
    cases bs with
    | nil => rfl
    | cons b bs =>
      cases cs with
      | nil => cases hbc
      | cons c cs => rfl
  | cons a as =>
    cases bs with
    | nil => cases hab
    | cons b bs =>
      cases cs with
      | nil => cases hbc
      | cons c cs =>
        simp only [orderLists] at hab hbc ⊢
        exact then_chain (order_chain hp a b c ha.1 hb.1 hc.1)
          (orderLists_chain hp as bs cs ha.2 hb.2 hc.2) hab hbc

end

/-- Two values that are not lists compare the other way round from the other side. -/
theorem order_swap_atomic {a b : Value} (ha : a.Atomic) (hb : b.Atomic) :
    (order a b).swap = order b a := by
  rw [order_eq_rounded ha hb, order_eq_rounded hb ha, Ordering.swap_then, compareExactly_swap,
    order_lawfulOn.swap _ _ (storable_rounded ha) (storable_rounded hb)]

mutual

/-- Two values compare the other way round from the other side. -/
theorem order_swap (a b : Value) : (order a b).swap = order b a := by
  cases a with
  | list as =>
    cases b with
    | list bs =>
      simp only [order]
      exact orderLists_swap as bs
    | _ => rfl
  | _ =>
    cases b with
    | list bs => rfl
    | _ => exact order_swap_atomic (by trivial) (by trivial)

/-- So do two lists of values. -/
theorem orderLists_swap (as bs : List Value) : (orderLists as bs).swap = orderLists bs as := by
  cases as with
  | nil => cases bs <;> rfl
  | cons a as =>
    cases bs with
    | nil => rfl
    | cons b bs =>
      simp only [orderLists]
      rw [Ordering.swap_then, order_swap a b, orderLists_swap as bs]

end

/-- Where nothing collides, the laws of an order hold. -/
theorem orderLaws_of_not_collides {p : Value → Prop} (hp : ¬Collides p) :
    OrderLaws (MadeOf p) where
  trans a b c ha hb hc o hab hbc := by
    cases o with
    | gt =>
      -- What comes behind twice comes before twice from the other side.
      have hba : order b a = .lt := by rw [← order_swap, hab]; rfl
      have hcb : order c b = .lt := by rw [← order_swap, hbc]; rfl
      have hca := order_chain hp c b a hc hb ha (by rw [hcb]; rfl) (by rw [hba]; rfl)
      rw [← order_swap c a, hca, hcb]
      rfl
    | _ =>
      rw [order_chain hp a b c ha hb hc (by rw [hab]; rfl) (by rw [hbc]; rfl), hab, hbc]
      rfl
  congr a b c ha hb hc hsame := by
    have hab : order a b = .eq := eq_of_beq hsame
    have hba : order b a = .eq := by rw [← order_swap, hab]; rfl
    cases hbc : order b c with
    | gt =>
      have hcb : order c b = .lt := by rw [← order_swap, hbc]; rfl
      have hca := order_chain hp c b a hc hb ha (by rw [hcb]; rfl) (by rw [hba]; rfl)
      rw [← order_swap c a, hca, hcb]
      rfl
    | _ =>
      rw [order_chain hp a b c ha hb hc (by rw [hab]; rfl) (by rw [hbc]; rfl), hab, hbc]
      rfl

/-- Where something collides, being the same is not transitive. -/
theorem not_orderLaws_of_collides {p : Value → Prop} (hp : Collides p) :
    ¬OrderLaws (MadeOf p) := by
  obtain ⟨n, m, hne, hdecimal, hn, hm, hx⟩ := hp
  intro laws
  have hself : ∀ x : Binary64, x.compare x = .eq := fun x => by
    rw [Binary64.compare]
    exact Std.ReflCmp.compare_self
  have hleft : order (.bigint n) (.decimal (Binary64.ofInt n.toInt)) = .eq := by
    rw [order]
    exact hself _
  have hright : order (.decimal (Binary64.ofInt n.toInt)) (.bigint m) = .eq := by
    rw [order, hdecimal]
    exact hself _
  have hboth : order (.bigint n) (.bigint m) = .eq :=
    laws.trans (.bigint n) (.decimal _) (.bigint m) hn hx hm .eq hleft hright
  rw [order] at hboth
  exact hne (Std.LawfulEqCmp.eq_of_compare hboth)

/-- The order of values as an order. From either side two values compare the same, and every value
is the same as itself. Over a third value a comparison carries exactly as far as no two whole
numbers come to a decimal that is there as well: of values made of values with a property the laws
of an order hold if and only if nothing collides among those with the property. They do hold where
all whole numbers lie within 2^53 in either direction, whatever the decimals, texts, sets and maps
are. -/
theorem order_lawful_iff (p : Value → Prop) :
    (∀ a b : Value, (order a b).swap = order b a) ∧ (∀ a : Value, a.same a = true) ∧
    (∀ a b : Value, a.same b = b.same a) ∧ (OrderLaws (MadeOf p) ↔ ¬Collides p) ∧
    ((∀ n, p (.bigint n) → n.toInt.natAbs ≤ 2 ^ 53) → OrderLaws (MadeOf p)) := by
  refine ⟨order_swap, fun a => by rw [same, order_self]; rfl, fun a b => ?_,
    ⟨fun laws hp => not_orderLaws_of_collides hp laws, orderLaws_of_not_collides⟩, fun hexact => ?_⟩
  · rw [same, same, ← order_swap a b]
    cases order a b <;> rfl
  · refine orderLaws_of_not_collides fun hp => ?_
    obtain ⟨n, m, hne, hdecimal, hn, hm, -⟩ := hp
    refine hne ?_
    exact Int64.toInt_inj.mp (Binary64.ofInt_injective_upTo (hexact n hn) (hexact m hm) hdecimal)

/-- Not a whole number beyond 2^53. -/
def Exact : Value → Prop
  | .bigint n => n.toInt.natAbs ≤ 2 ^ 53
  | _ => True

/-- The list of the whole number three and not-a-number is the same as that of the decimal three and
not-a-number, and compares like it with every value that has no whole number beyond 2^53. -/
theorem order_lawful_iff_three :
    (∀ n, Exact (.bigint n) → n.toInt.natAbs ≤ 2 ^ 53) ∧
    MadeOf Exact (.list [.bigint 3, .decimal (Binary64.notANumber true)]) ∧
    ∀ c, MadeOf Exact c →
      order (.list [.bigint 3, .decimal (Binary64.notANumber true)]) c =
        order (.list [.decimal (Binary64.ofInt 3), .decimal (Binary64.notANumber true)]) c := by
  have hwhole : MadeOf Exact (.list [.bigint 3, .decimal (Binary64.notANumber true)]) :=
    ⟨show (3 : Int64).toInt.natAbs ≤ 2 ^ 53 by decide, trivial, trivial⟩
  refine ⟨fun _ h => h, hwhole, fun c hc => ?_⟩
  obtain ⟨-, -, -, -, hlaws⟩ := order_lawful_iff Exact
  exact (hlaws fun _ h => h).congr _ _ c hwhole ⟨trivial, trivial, trivial⟩ hc (by decide +kernel)

/-- The order of all values is not an order. The whole numbers 2^53 and 2^53 + 1 are the same as the
decimal 2^53 but not as each other, and the lists that begin with them come one before the next in a
circle. -/
theorem order_not_transitive :
    (¬ ∀ a b c : Value, a.same b = true → b.same c = true → a.same c = true) ∧
    ¬ ∀ a b c : Value, order a b = .lt → order b c = .lt → order a c = .lt := by
  refine ⟨fun hall => ?_, fun hall => ?_⟩
  · have hfalse := hall (.bigint 9007199254740993)
      (.decimal (Binary64.ofInt 9007199254740992)) (.bigint 9007199254740992)
      (by decide +kernel) (by decide +kernel)
    exact absurd hfalse (by decide +kernel)
  · have hfalse := hall (.list [.bigint 9007199254740993, .bigint 0])
      (.list [.decimal (Binary64.ofInt 9007199254740992), .bigint 1])
      (.list [.bigint 9007199254740992, .bigint 2]) (by decide +kernel) (by decide +kernel)
    exact absurd hfalse (by decide +kernel)

end Value

end WideGraph
