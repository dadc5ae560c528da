import WideGraph.Proofs.Order.AnyValue
import WideGraph.Proofs.Query.Compilation
import WideGraph.Proofs.Store.Nesting

/-!
# Conditions that are the same

Conditions are the same if their operands are, and a whole number is the same as the decimal nearest
to it. Two such operands need not say the same. They do once they are bound to a decimal column, but
a map is asked for the text that an operand is written as, a list becomes the set of the texts of
its items, and a scan takes its end from a whole number and not from a decimal. Conditions that are
also written alike in these places hold of the same rows, and their clauses are checked and decided
alike.
-/

namespace WideGraph

namespace Value

/-- The texts that a list becomes in a set of texts. Any other value is kept there as it is, or not
at all. -/
def elementTexts : Value → Option TextSet
  | .list items => some (.ofList (items.map plain))
  | _ => none

/-- A value becomes a set of texts if it is a list. -/
theorem elementTexts_eq_none_iff {value : Value} : value.elementTexts = none ↔ value.Atomic := by
  cases value <;> simp [elementTexts, Atomic]

/-- Values that are the same are rounded to the same decimal, if they are numbers, and are otherwise
identical, unless they are lists. -/
theorem rounded_eq_of_same {a b : Value} (ha : a.Atomic) (hb : b.Atomic) (h : a.same b = true) :
    a.rounded = b.rounded := by
  rw [same, beq_iff_eq, order_eq_rounded ha hb, Ordering.then_eq_eq] at h
  exact (order_lawfulOn.eq_iff _ _ (storable_rounded ha) (storable_rounded hb)).mp h.1

/-- A column keeps a value in the form in which it keeps the decimal nearest to it. -/
theorem toOption_bind_rounded (type : ColumnType) (value : Value) :
    (type.bind value.rounded).toOption = (type.bind value).toOption := by
  cases value with
  | bigint n => cases type <;> rfl
  | _ => rfl

/-- A list is kept by a set of texts only, as the set of the texts of its items. -/
theorem toOption_bind_of_elementTexts {value : Value} {texts : TextSet}
    (h : value.elementTexts = some texts) (type : ColumnType) :
    (type.bind value).toOption = if type = .textSet then some (.set texts) else none := by
  cases value with
  | list items =>
    cases h
    cases type <;> rfl
  | _ => cases h

/-- Values that are the same, and as lists have the same texts, are kept in the same form. -/
theorem toOption_bind_congr {a b : Value} (hsame : a.same b = true)
    (htexts : a.elementTexts = b.elementTexts) (type : ColumnType) :
    (type.bind a).toOption = (type.bind b).toOption := by
  cases ha : a.elementTexts with
  | none =>
    have hrounded := rounded_eq_of_same (elementTexts_eq_none_iff.mp ha)
      (elementTexts_eq_none_iff.mp (htexts ▸ ha)) hsame
    rw [← toOption_bind_rounded type a, hrounded, toOption_bind_rounded]
  | some texts =>
    rw [toOption_bind_of_elementTexts ha, toOption_bind_of_elementTexts (htexts ▸ ha)]

/-- Values of one kind that are the same are identical, unless they are lists. -/
theorem eq_of_same {a b : Value} (ha : a.Atomic) (hkind : a.kindName = b.kindName)
    (h : a.same b = true) : a = b := by
  cases a with
  | list items => exact ha.elim
  | bigint n =>
    cases b with
    | bigint m =>
      rw [same, beq_iff_eq, order] at h
      rw [Std.LawfulEqCmp.eq_of_compare h]
    | _ => simp [kindName] at hkind
  | _ =>
    refine (same_iff (by trivial) ?_).mp h
    cases b <;> first | trivial | simp [kindName] at hkind

/-- Ends of a scan that are the same and of one kind stand for one token, and stand in a statement
alike. -/
theorem scan_congr {a b : Value} (hkind : a.kindName = b.kindName) (h : a.same b = true) :
    a.scanEnd? = b.scanEnd? ∧ a.scanLiteral? = b.scanLiteral? := by
  cases a with
  | list items => cases b <;> first | exact ⟨rfl, rfl⟩ | simp [kindName] at hkind
  | _ =>
    rw [eq_of_same (by trivial) hkind h]
    exact ⟨rfl, rfl⟩

end Value

/-- Every column keeps two values in the same form, or keeps neither. -/
def Value.BoundAlike (a b : Value) : Prop :=
  ∀ type : ColumnType, (type.bind a).toOption = (type.bind b).toOption

/-- A value passes a test for the form in which it is kept if that form is there and passes. -/
theorem ColumnType.boundPasses_eq_any (type : ColumnType) (value : Value) (test : Value → Bool) :
    type.boundPasses value test = (type.bind value).toOption.any test := by
  rw [boundPasses]
  cases type.bind value <;> rfl

/-- Values that are kept in the same form pass the same tests. -/
theorem ColumnType.boundPasses_congr {a b : Value} (h : a.BoundAlike b) (type : ColumnType)
    (test : Value → Bool) : type.boundPasses a test = type.boundPasses b test := by
  rw [boundPasses_eq_any, boundPasses_eq_any, h type]

namespace Operand

/-- Lists of operands are the same if they are so item by item. -/
theorem sameLists_iff_forall₂ {as bs : List Operand} :
    sameLists as bs = true ↔ List.Forall₂ (fun a b => a.same b = true) as bs := by
  induction as generalizing bs with
  | nil => cases bs <;> simp [sameLists]
  | cons a as ih => cases bs <;> simp [sameLists, ih]

mutual

/-- Operands that are the same have values that are the same. -/
theorem same_toValue : (a b : Operand) → a.same b = true → a.toValue.same b.toValue = true
  | .value _, .value _, h => h
  | .identifier a, .identifier b, h => by
    rw [same, beq_iff_eq] at h
    rw [h, Value.same, Value.order_self]
    rfl
  | .direction a, .direction b, h => by
    rw [same, beq_iff_eq] at h
    rw [h, Value.same, Value.order_self]
    rfl
  | .list as, .list bs, h => by
    rw [same] at h
    rw [toValue, toValue, Value.same, Value.order, sameLists_toValues as bs h]
    rfl

/-- So have lists of operands. -/
theorem sameLists_toValues : (as bs : List Operand) → sameLists as bs = true →
    Value.orderLists (toValues as) (toValues bs) = .eq
  | [], [], _ => rfl
  | a :: as, b :: bs, h => by
    rw [sameLists, Bool.and_eq_true] at h
    rw [toValues, toValues, Value.orderLists, Ordering.then_eq_eq]
    exact ⟨eq_of_beq (same_toValue a b h.1), sameLists_toValues as bs h.2⟩

end

/-- Two operands of one relation are written alike where it depends on how they are written: a map
is asked for the same text, a scan has an end of the same kind, and lists become the same sets of
texts. -/
def writtenAlike : RelationKind → Operand → Operand → Bool
  | .isIn, .list as, .list bs =>
    as.map (·.toValue.elementTexts) == bs.map (·.toValue.elementTexts)
  | .isIn, _, _ => true
  | .containsKey, a, b => a.toValue.plain == b.toValue.plain
  | .scan, a, b => a.toValue.kindName == b.toValue.kindName
  | .compare _, a, b | .notEqual, a, b => a.toValue.elementTexts == b.toValue.elementTexts

/-- A relation of a kind makes the same of two operands. -/
inductive ReadAlike : RelationKind → Operand → Operand → Prop where
  | compare {comparison : Comparison} {a b : Operand} (h : a.toValue.BoundAlike b.toValue) :
      ReadAlike (.compare comparison) a b
  | notEqual {a b : Operand} (h : a.toValue.BoundAlike b.toValue) : ReadAlike .notEqual a b
  | isIn {as bs : List Operand}
      (h : List.Forall₂ (fun a b => a.toValue.BoundAlike b.toValue) as bs) :
      ReadAlike .isIn (.list as) (.list bs)
  | notList {a b : Operand} (ha : ∀ items, a ≠ .list items) (hb : ∀ items, b ≠ .list items) :
      ReadAlike .isIn a b
  | containsKey {a b : Operand} (h : a.toValue.plain = b.toValue.plain) :
      ReadAlike .containsKey a b
  | scan {a b : Operand} (hend : a.toValue.scanEnd? = b.toValue.scanEnd?)
      (hliteral : a.toValue.scanLiteral? = b.toValue.scanLiteral?) : ReadAlike .scan a b

/-- Operands that are the same, and as lists become the same set of texts, are kept in one form. -/
theorem boundAlike_of_same {a b : Operand} (hsame : a.same b = true)
    (htexts : a.toValue.elementTexts = b.toValue.elementTexts) :
    a.toValue.BoundAlike b.toValue :=
  Value.toOption_bind_congr (same_toValue a b hsame) htexts

/-- A relation makes the same of operands that are the same and written alike. -/
theorem readAlike_of_same {kind : RelationKind} {a b : Operand} (hsame : a.same b = true)
    (halike : writtenAlike kind a b = true) : ReadAlike kind a b := by
  cases kind with
  | compare comparison => exact .compare (boundAlike_of_same hsame (eq_of_beq halike))
  | notEqual => exact .notEqual (boundAlike_of_same hsame (eq_of_beq halike))
  | containsKey => exact .containsKey (eq_of_beq halike)
  | scan =>
    obtain ⟨hend, hliteral⟩ := Value.scan_congr (eq_of_beq halike) (same_toValue a b hsame)
    exact .scan hend hliteral
  | isIn =>
    cases a with
    | list as =>
      cases b with
      | list bs =>
        have htexts : List.Forall₂
            (fun a b => a.toValue.elementTexts = b.toValue.elementTexts) as bs := by
          have heq := eq_of_beq halike
          rwa [← List.forall₂_eq_eq_eq, List.forall₂_map_left_iff,
            List.forall₂_map_right_iff] at heq
        exact .isIn (.mp (fun a b => boundAlike_of_same) (sameLists_iff_forall₂.mp hsame) htexts)
      | _ => cases hsame
    | _ =>
      cases b with
      | list bs => cases hsame
      | _ => exact .notList nofun nofun

end Operand

/-- Two clauses are checked alike and match the same rows, as far as they can be evaluated. -/
structure Clause.Alike (a b : Clause) : Prop where
  checked : ∀ (table : StoredTable) (allowed : Bool),
    table.checkLeaves allowed a.leaves = table.checkLeaves allowed b.leaves
  decided : ∀ (table : StoredTable) (key : RowKey) (row : StoredRow),
    (table.rowMatches key row a).toOption = (table.rowMatches key row b).toOption
  filtering : a.needsFiltering = b.needsFiltering

namespace StoredTable

/-- A cell is among values that are kept in the same form. -/
theorem isAmong_congr {as bs : List Value} (h : List.Forall₂ Value.BoundAlike as bs)
    (type : ColumnType) (current : Value) :
    (isAmong type current as).toOption = (isAmong type current bs).toOption := by
  induction h with
  | nil => rfl
  | @cons a b _ _ hfirst _ ih =>
    have hbind := hfirst type
    rw [isAmong, isAmong]
    revert hbind
    rcases type.bind a with e | bound <;> rcases type.bind b with e' | bound' <;> intro hbind <;>
      cases hbind
    · rfl
    · dsimp only
      split
      · rfl
      · exact ih

variable (table : StoredTable) (key : RowKey) (row : StoredRow)

/-- A comparison is decided in the column that it names by the form in which its value is kept. -/
theorem toOption_rowMatches_compare (comparison : Comparison) (name : String) (value : Value) :
    (table.rowMatches key row (.compare comparison name value)).toOption =
      (table.definition.resolve name).toOption.bind fun found =>
        (found.2.bind value).toOption.map fun bound =>
          !(row.valueOf found.1).isNull &&
            comparison.accepts ((row.valueOf found.1).order bound) := by
  rw [rowMatches]
  rcases table.definition.resolve name with e | found
  · rfl
  · rcases hbind : found.2.bind value with e | bound <;>
      simp [hbind, bind, Except.bind, Except.toOption]

/-- A conjunction is decided on its right side if its left side matches. -/
theorem toOption_rowMatches_and (left right : Clause) :
    (table.rowMatches key row (.and left right)).toOption =
      (table.rowMatches key row left).toOption.bind fun matched =>
        if matched then (table.rowMatches key row right).toOption else some false := by
  rw [rowMatches]
  rcases table.rowMatches key row left with e | _ | _ <;> rfl

end StoredTable

namespace Clause.Alike

/-- A clause is like itself. -/
theorem refl (clause : Clause) : clause.Alike clause :=
  ⟨fun _ _ => rfl, fun _ _ _ => rfl, rfl⟩

/-- Comparisons with values that are kept in the same form are alike. -/
theorem compare {a b : Value} (h : a.BoundAlike b) (comparison : Comparison) (name : String) :
    (Clause.compare comparison name a).Alike (.compare comparison name b) where
  checked _ _ := rfl
  decided table key row := by
    simp only [StoredTable.toOption_rowMatches_compare, h _]
  filtering := rfl

/-- So are alternatives with such values one by one. -/
theorem isIn {as bs : List Value} (h : List.Forall₂ Value.BoundAlike as bs) (name : String) :
    (Clause.isIn name as).Alike (.isIn name bs) where
  checked _ _ := rfl
  decided table key row := by
    rw [StoredTable.rowMatches, StoredTable.rowMatches]
    cases table.definition.resolve name with
    | error e => rfl
    | ok found => exact StoredTable.isAmong_congr h found.2 (row.valueOf found.1)
  filtering := rfl

/-- Requests for keys that are written the same are alike. -/
theorem containsKey {a b : Value} (h : a.plain = b.plain) (name : String) :
    (Clause.containsKey name a).Alike (.containsKey name b) where
  checked _ _ := rfl
  decided table key row := by rw [StoredTable.rowMatches, StoredTable.rowMatches, h]
  filtering := rfl

/-- Conjunctions of clauses that are alike are alike. -/
theorem and {left right left' right' : Clause} (hleft : left.Alike left')
    (hright : right.Alike right') : (Clause.and left right).Alike (.and left' right') where
  checked table allowed := by
    rw [leaves, leaves, StoredTable.checkLeaves_append, StoredTable.checkLeaves_append,
      hleft.checked, hright.checked]
  decided table key row := by
    rw [StoredTable.toOption_rowMatches_and, StoredTable.toOption_rowMatches_and,
      hleft.decided, hright.decided]
  filtering := by rw [needsFiltering, needsFiltering, hleft.filtering, hright.filtering]

end Clause.Alike

/-- Two conditions of one shape have operands that are written alike. -/
def Condition.writtenAlike : Condition → Condition → Bool
  | .and a b, .and c d | .or a b, .or c d => a.writtenAlike c && b.writtenAlike d
  | .relation r, .relation s => Operand.writtenAlike r.kind r.operand s.operand
  | _, _ => false

namespace Relation

/-- Relations are the same in each of their parts. -/
theorem same_iff {r s : Relation} :
    r.same s = true ↔ r.key = s.key ∧ r.kind = s.kind ∧ r.operand.same s.operand = true := by
  simp [same, and_assoc]

variable {key : String} {kind : RelationKind} {a b : Operand}

/-- With operands of which it makes the same a relation holds of the same rows. -/
theorem holds_congr (h : Operand.ReadAlike kind a b) (d : TableDefinition) (token : Int64)
    (cell? : Column → Option Value) :
    holds d token cell? ⟨key, kind, a⟩ = holds d token cell? ⟨key, kind, b⟩ := by
  cases h with
  | compare h => simp only [holds, ColumnType.boundPasses_congr h]
  | notEqual h => simp only [holds, ColumnType.boundPasses_congr h]
  | containsKey h => simp only [holds, h]
  | scan hend hliteral => simp only [holds, inScan, hend]
  | notList ha hb =>
    cases a <;> cases b <;> first | rfl | exact absurd rfl (ha _) | exact absurd rfl (hb _)
  | @isIn as bs h =>
    have hany : ∀ (type : ColumnType) (test : Value → Bool),
        as.any (fun item => type.boundPasses item.toValue test) =
          bs.any fun item => type.boundPasses item.toValue test := by
      intro type test
      induction h with
      | nil => rfl
      | cons hfirst _ ih =>
        rw [List.any_cons, List.any_cons, ColumnType.boundPasses_congr hfirst, ih]
    simp only [holds, hany]

/-- With operands of which it makes the same a relation has clauses that are alike, or none. -/
theorem toClause_congr (h : Operand.ReadAlike kind a b) {columns : List String} {clause : Clause}
    (hclause : toClause ⟨key, kind, a⟩ columns = .ok clause) :
    ∃ other, toClause ⟨key, kind, b⟩ columns = .ok other ∧ clause.Alike other := by
  cases h with
  | compare h =>
    cases hclause
    exact ⟨_, rfl, .compare h _ key⟩
  | containsKey h =>
    cases hclause
    exact ⟨_, rfl, .containsKey h key⟩
  | notEqual h => cases hclause
  | notList ha hb =>
    cases a with
    | list items => exact absurd rfl (ha items)
    | _ => cases hclause
  | isIn h =>
    cases hclause
    refine ⟨_, rfl, .isIn ?_ key⟩
    rw [Operand.toValues_eq_map, Operand.toValues_eq_map, List.forall₂_map_left_iff,
      List.forall₂_map_right_iff]
    exact h
  | scan hend hliteral =>
    rw [toClause_scan] at hclause
    rw [toClause_scan, ← hliteral]
    cases hstop : a.toValue.scanLiteral? with
    | none => simp [hstop] at hclause
    | some stop => exact ⟨clause, by rwa [hstop] at hclause, .refl clause⟩

end Relation

namespace Condition

/-- Conditions of one shape whose relations make the same of their operands. -/
inductive ReadAlike : Condition → Condition → Prop where
  | relation {key : String} {kind : RelationKind} {a b : Operand}
      (h : Operand.ReadAlike kind a b) :
      ReadAlike (.relation ⟨key, kind, a⟩) (.relation ⟨key, kind, b⟩)
  | and {left right left' right' : Condition} (hleft : ReadAlike left left')
      (hright : ReadAlike right right') : ReadAlike (.and left right) (.and left' right')
  | or {left right left' right' : Condition} (hleft : ReadAlike left left')
      (hright : ReadAlike right right') : ReadAlike (.or left right) (.or left' right')

/-- Conditions that are the same and written alike are of this kind. -/
theorem readAlike_of_same {a b : Condition} (hsame : a.same b = true)
    (halike : a.writtenAlike b = true) : a.ReadAlike b := by
  induction a generalizing b with
  | relation r =>
    cases b with
    | relation s =>
      obtain ⟨key, kind, a⟩ := r
      obtain ⟨key', kind', b⟩ := s
      obtain ⟨rfl, rfl, hoperand⟩ := Relation.same_iff.mp hsame
      exact .relation (Operand.readAlike_of_same hoperand halike)
    | _ => cases hsame
  | and left right ihl ihr =>
    cases b with
    | and left' right' =>
      rw [same, Bool.and_eq_true] at hsame
      rw [writtenAlike, Bool.and_eq_true] at halike
      exact .and (ihl hsame.1 halike.1) (ihr hsame.2 halike.2)
    | _ => cases hsame
  | or left right ihl ihr =>
    cases b with
    | or left' right' =>
      rw [same, Bool.and_eq_true] at hsame
      rw [writtenAlike, Bool.and_eq_true] at halike
      exact .or (ihl hsame.1 halike.1) (ihr hsame.2 halike.2)
    | _ => cases hsame

namespace ReadAlike

variable {a b : Condition} (h : a.ReadAlike b)

include h

/-- They hold of the same rows. -/
theorem holds_eq (d : TableDefinition) (token : Int64) (cell? : Column → Option Value) :
    a.holds d token cell? = b.holds d token cell? := by
  induction h with
  | relation h => exact Relation.holds_congr h d token cell?
  | and _ _ ihl ihr => rw [holds, holds, ihl, ihr]
  | or _ _ ihl ihr => rw [holds, holds, ihl, ihr]

/-- They are equally deep. -/
theorem depth_eq : a.depth = b.depth := by
  induction h with
  | relation h => rfl
  | and _ _ ihl ihr => rw [depth, depth, ihl, ihr]
  | or _ _ ihl ihr => rw [depth, depth, ihl, ihr]

/-- If one has a clause then so has the other, and the clauses are alike. -/
theorem exists_toClause {columns : List String} {clause : Clause}
    (hclause : a.toClause columns = .ok clause) :
    ∃ other, b.toClause columns = .ok other ∧ clause.Alike other := by
  induction h generalizing clause with
  | relation h => exact Relation.toClause_congr h hclause
  | or _ _ _ _ => cases hclause
  | and _ _ ihl ihr =>
    rw [toClause] at hclause
    split at hclause
    · cases hclause
    · rename_i l hl
      split at hclause
      · cases hclause
      · rename_i r hr
        cases hclause
        obtain ⟨l', hl', hleft⟩ := ihl hl
        obtain ⟨r', hr', hright⟩ := ihr hr
        exact ⟨.and l' r', by rw [toClause, hl', hr'], hleft.and hright⟩

/-- If one is compiled then so is the other, to a clause that is alike. -/
theorem exists_compile {columns : List String} {compiled : CompiledCondition}
    (hcompiled : a.compile columns = .ok compiled) :
    ∃ other, b.compile columns = .ok other ∧ compiled.clause.Alike other.clause ∧
      compiled.allowFiltering = other.allowFiltering := by
  obtain ⟨hdepth, hclause, hfiltering⟩ := compile_eq_ok_iff.mp hcompiled
  obtain ⟨other, hother, halike⟩ := h.exists_toClause hclause
  refine ⟨⟨other, other.needsFiltering⟩,
    compile_eq_ok_iff.mpr ⟨h.depth_eq ▸ hdepth, hother, rfl⟩, halike, ?_⟩
  rw [hfiltering, halike.filtering]

end ReadAlike

end Condition

end WideGraph
