import WideGraph.Proofs.FirstFault
import WideGraph.Proofs.Query.Reading

/-!
# Which conditions have a clause

A condition is compiled if it is not too deep and each of its nodes can be expressed as a clause.
The clause then joins the comparisons of the relations, from left to right, and needs filtering if
a relation asks for a key. Otherwise the depth is reported before anything else, and of several
nodes that cannot be expressed the one that is met first, every node being met ahead of those below
it and those on its left ahead of those on its right.
-/

namespace WideGraph

namespace Condition

/-- The nodes of a condition in the order in which they are met. -/
def nodes : Condition → List Condition
  | .relation r => [.relation r]
  | .and left right => .and left right :: (left.nodes ++ right.nodes)
  | .or left right => .or left right :: (left.nodes ++ right.nodes)

/-- A node that cannot be expressed as a clause, and how that is reported. A disjunction is a
request that the store cannot answer; an inequality, alternatives that are not a list, and a scan
whose end is neither a text nor a whole number are against the rules. -/
inductive Offends : Condition → BackendError → Prop where
  | disjunction {left right : Condition} : Offends (.or left right) (.unsupported .disjunction)
  | inequality {r : Relation} (hkind : r.kind = .notEqual) :
      Offends (.relation r) (.contractViolation (.inequality r))
  | alternatives {r : Relation} (hkind : r.kind = .isIn)
      (hlist : ∀ items, r.operand ≠ .list items) :
      Offends (.relation r) (.contractViolation (.listExpected r))
  | scanEnd {r : Relation} (hkind : r.kind = .scan)
      (htext : ∀ stop, r.operand.toValue ≠ .text stop)
      (hbigint : ∀ stop, r.operand.toValue ≠ .bigint stop) :
      Offends (.relation r) (.contractViolation (.scanEnd r.operand.toValue.kindName))

end Condition

/-- The end of a scan as it stands in a statement. -/
def Value.scanLiteral? : Value → Option String
  | .text stop => some stop
  | .bigint stop => some (toString stop.toInt)
  | _ => none

/-- What a relation compares: one comparison with the value of its operand, or the two bounds of a
scan over the tokens of the given columns. -/
def Relation.comparisons (partitionColumns : List String) (relation : Relation) : List Clause :=
  match relation.kind, relation.operand with
  | .compare comparison, operand => [.compare comparison relation.key operand.toValue]
  | .containsKey, operand => [.containsKey relation.key operand.toValue]
  | .isIn, .list items => [.isIn relation.key (items.map Operand.toValue)]
  | .scan, operand => operand.toValue.scanLiteral?.toList.flatMap fun stop =>
      [.tokenAtLeast partitionColumns relation.key, .tokenBelow partitionColumns stop]
  | _, _ => []

/-- The clause joins the comparisons of some relations, and needs filtering if one of them asks for
a key. -/
structure Clause.Expresses (columns : List String) (clause : Clause) (relations : List Relation) :
    Prop where
  leaves_eq : clause.leaves = relations.flatMap (·.comparisons columns)
  needsFiltering_iff : clause.needsFiltering = true ↔ ∃ r ∈ relations, r.kind = .containsKey

/-- Joined clauses express the relations of both. -/
theorem Clause.Expresses.and {columns : List String} {left right : Clause}
    {relations others : List Relation} (hleft : left.Expresses columns relations)
    (hright : right.Expresses columns others) :
    (Clause.and left right).Expresses columns (relations ++ others) where
  leaves_eq := by
    rw [leaves, hleft.leaves_eq, hright.leaves_eq, List.flatMap_append]
  needsFiltering_iff := by
    rw [needsFiltering, Bool.or_eq_true, hleft.needsFiltering_iff, hright.needsFiltering_iff]
    simp only [List.mem_append, or_and_right, exists_or]

/-- The end of a scan stands in a statement if it is a text or a whole number. -/
theorem Value.scanLiteral?_eq_none_iff (value : Value) :
    value.scanLiteral? = none ↔ (∀ stop, value ≠ .text stop) ∧ ∀ stop, value ≠ .bigint stop := by
  cases value <;> simp [scanLiteral?]

namespace Relation

variable (columns : List String)

/-- A scan becomes the bounds of its range if its end stands in a statement. -/
theorem toClause_scan (key : String) (operand : Operand) :
    toClause ⟨key, .scan, operand⟩ columns =
      match operand.toValue.scanLiteral? with
      | some stop => .ok (.and (.tokenAtLeast columns key) (.tokenBelow columns stop))
      | none => .error (.contractViolation (.scanEnd operand.toValue.kindName)) := by
  rw [toClause]
  cases operand.toValue <;> rfl

/-- A relation that is no inequality, whose alternatives are a list, and whose scan has an end that
stands in a statement, does not offend. -/
theorem not_offends {relation : Relation} (hinequality : relation.kind ≠ .notEqual)
    (halternatives : relation.kind = .isIn → ∃ items, relation.operand = .list items)
    (hscan : relation.kind = .scan → ∃ stop, relation.operand.toValue.scanLiteral? = some stop)
    (e : BackendError) : ¬ (Condition.relation relation).Offends e := by
  intro h
  cases h with
  | inequality hkind => exact hinequality hkind
  | alternatives hkind hlist =>
    obtain ⟨items, hitems⟩ := halternatives hkind
    exact hlist items hitems
  | scanEnd hkind htext hbigint =>
    obtain ⟨stop, hstop⟩ := hscan hkind
    rw [(Value.scanLiteral?_eq_none_iff _).mpr ⟨htext, hbigint⟩] at hstop
    cases hstop

/-- A relation has a clause that expresses it, or it offends. -/
theorem toClause_or_offends (relation : Relation) :
    (∃ clause, relation.toClause columns = .ok clause ∧ clause.Expresses columns [relation] ∧
      ∀ e, ¬ (Condition.relation relation).Offends e) ∨
    ∃ e, relation.toClause columns = .error e ∧ (Condition.relation relation).Offends e := by
  obtain ⟨key, kind, operand⟩ := relation
  cases kind with
  | compare comparison =>
    exact .inl ⟨_, rfl, ⟨rfl, by simp [Clause.needsFiltering]⟩, not_offends nofun nofun nofun⟩
  | containsKey =>
    exact .inl ⟨_, rfl, ⟨rfl, by simp [Clause.needsFiltering]⟩, not_offends nofun nofun nofun⟩
  | notEqual => exact .inr ⟨_, rfl, .inequality rfl⟩
  | isIn =>
    cases operand with
    | list items =>
      refine .inl ⟨_, rfl, ⟨?_, by simp [Clause.needsFiltering]⟩,
        not_offends nofun (fun _ => ⟨items, rfl⟩) nofun⟩
      rw [Operand.toValues_eq_map]
      rfl
    | _ => exact .inr ⟨_, rfl, .alternatives rfl nofun⟩
  | scan =>
    rw [toClause_scan]
    cases hstop : operand.toValue.scanLiteral? with
    | some stop =>
      refine .inl ⟨_, rfl, ⟨?_, by simp [Clause.needsFiltering]⟩,
        not_offends nofun nofun fun _ => ⟨stop, hstop⟩⟩
      simp [Clause.leaves, comparisons, hstop]
    | none =>
      obtain ⟨htext, hbigint⟩ := (Value.scanLiteral?_eq_none_iff _).mp hstop
      exact .inr ⟨_, rfl, .scanEnd rfl htext hbigint⟩

end Relation

namespace Condition

/-- A conjunction does not offend by itself. -/
theorem not_offends_and (left right : Condition) (e : BackendError) :
    ¬ (and left right).Offends e :=
  nofun

/-- A condition has a clause that expresses its relations, or the first of its nodes that offends is
reported. -/
theorem toClause_or_firstFault (condition : Condition) (columns : List String) :
    (∃ clause, condition.toClause columns = .ok clause ∧
      clause.Expresses columns condition.relations ∧
      ∀ node ∈ condition.nodes, ∀ e, ¬ node.Offends e) ∨
    ∃ e, condition.toClause columns = .error e ∧ FirstFault Offends condition.nodes e := by
  induction condition with
  | relation r =>
    simp only [toClause, relations, nodes, FirstFault.singleton_iff, List.mem_singleton,
      forall_eq]
    exact r.toClause_or_offends columns
  | or left right => exact .inr ⟨_, rfl, .here .disjunction⟩
  | and left right ihleft ihright =>
    rw [toClause, nodes, relations]
    -- The nodes on the left are met first, so the right side only counts if they are sound.
    obtain ⟨l, hl, hlexpresses, hlsound⟩ | ⟨e, he, hfault⟩ := ihleft
    · obtain ⟨r, hr, hrexpresses, hrsound⟩ | ⟨e, he, hfault⟩ := ihright
      · refine .inl ⟨.and l r, by rw [hl, hr], hlexpresses.and hrexpresses, ?_⟩
        exact List.forall_mem_cons.mpr ⟨not_offends_and left right,
          List.forall_mem_append.mpr ⟨hlsound, hrsound⟩⟩
      · exact .inr ⟨e, by rw [hl, he], .behind (not_offends_and left right)
          (FirstFault.append_iff.mpr (.inr ⟨hlsound, hfault⟩))⟩
    · exact .inr ⟨e, by rw [he], .behind (not_offends_and left right)
        (FirstFault.append_iff.mpr (.inl hfault))⟩

/-- A condition has a clause if none of its nodes offends. -/
theorem exists_toClause_iff (condition : Condition) (columns : List String) :
    (∃ clause, condition.toClause columns = .ok clause) ↔
      ∀ node ∈ condition.nodes, ∀ e, ¬ node.Offends e := by
  obtain ⟨clause, hclause, -, hsound⟩ | ⟨e, he, hfault⟩ :=
    condition.toClause_or_firstFault columns
  · exact iff_of_true ⟨clause, hclause⟩ hsound
  · refine iff_of_false ?_ fun hsound => ?_
    · rintro ⟨clause, hclause⟩
      rw [he] at hclause
      cases hclause
    · exact FirstFault.forall_not_iff.mpr hsound e hfault

/-- A node offends in one way only. -/
theorem Offends.unique {node : Condition} {e e' : BackendError} (h : node.Offends e)
    (h' : node.Offends e') : e = e' := by
  cases h with
  | disjunction => cases h' with | disjunction => rfl
  | inequality hkind => cases h' <;> simp_all
  | alternatives hkind => cases h' <;> simp_all
  | scanEnd hkind => cases h' <;> simp_all

/-- A condition has no clause for the reason that the first of its nodes that offends gives. -/
theorem toClause_eq_error_iff (condition : Condition) (columns : List String) (e : BackendError) :
    condition.toClause columns = .error e ↔ FirstFault Offends condition.nodes e := by
  obtain ⟨clause, hclause, -, hsound⟩ | ⟨e', he, hfault⟩ :=
    condition.toClause_or_firstFault columns
  · rw [hclause]
    exact iff_of_false nofun (FirstFault.forall_not_iff.mpr hsound e)
  · rw [he, Except.error.injEq]
    exact ⟨fun h => h ▸ hfault, hfault.unique (fun _ _ _ ha hb => ha.unique hb)⟩

/-- A compiled condition is its clause, and needs filtering if its clause does. -/
theorem compile_eq_ok_iff {condition : Condition} {columns : List String}
    {compiled : CompiledCondition} :
    condition.compile columns = .ok compiled ↔
      condition.depth ≤ maxDepth ∧ condition.toClause columns = .ok compiled.clause ∧
        compiled.allowFiltering = compiled.clause.needsFiltering := by
  obtain ⟨clause, allowFiltering⟩ := compiled
  rw [compile]
  split
  · rename_i hdeep
    exact iff_of_false nofun fun h => absurd h.1 (Nat.not_le.mpr hdeep)
  · rename_i hdepth
    rw [map_ok_iff]
    constructor
    · rintro ⟨clause', hclause, heq⟩
      cases heq
      exact ⟨Nat.not_lt.mp hdepth, hclause, rfl⟩
    · rintro ⟨-, hclause, hfiltering⟩
      exact ⟨clause, hclause, congrArg _ hfiltering.symm⟩

/-- A condition is not compiled if it is too deep, and otherwise if it has no clause. -/
theorem compile_eq_error_iff {condition : Condition} {columns : List String} {e : BackendError} :
    condition.compile columns = .error e ↔
      maxDepth < condition.depth ∧
          e = .invalidArgument (.conditionTooDeep condition.depth maxDepth) ∨
        condition.depth ≤ maxDepth ∧ condition.toClause columns = .error e := by
  rw [compile]
  split
  · rename_i hdeep
    simp [hdeep, Nat.not_le.mpr hdeep, eq_comm]
  · rename_i hdepth
    simp [hdepth, Nat.not_lt.mp hdepth, map_error_iff]

/-- A compiled condition has a clause that expresses its relations. -/
theorem expresses_of_compile {condition : Condition} {columns : List String}
    {compiled : CompiledCondition} (h : condition.compile columns = .ok compiled) :
    compiled.clause.Expresses columns condition.relations := by
  obtain ⟨-, hclause, -⟩ := compile_eq_ok_iff.mp h
  obtain ⟨clause, hclause', hexpresses, -⟩ | ⟨e, he, -⟩ :=
    condition.toClause_or_firstFault columns
  · rw [hclause, Except.ok.injEq] at hclause'
    exact hclause' ▸ hexpresses
  · rw [hclause] at he
    cases he

/-- Which conditions are compiled, and into what. A condition is compiled exactly if it has at most
thirty-two levels and no node offends, that is, there is no disjunction, no inequality, no
alternatives that are not a list and no scan whose end is neither a text nor a whole number. The
clause then joins the comparisons of the relations from left to right, and filtering is needed
exactly if a relation asks for a key. A deeper condition is refused for its depth, and any other for
the first of its nodes that offends. -/
theorem compile_expressible (condition : Condition) (columns : List String) :
    ((∃ compiled, condition.compile columns = .ok compiled) ↔
      condition.depth ≤ 32 ∧ ∀ node ∈ condition.nodes, ∀ e, ¬ node.Offends e) ∧
    (∀ compiled, condition.compile columns = .ok compiled →
      compiled.clause.leaves = condition.relations.flatMap (·.comparisons columns) ∧
      (compiled.allowFiltering = true ↔ ∃ r ∈ condition.relations, r.kind = .containsKey)) ∧
    ∀ e, condition.compile columns = .error e ↔
      32 < condition.depth ∧ e = .invalidArgument (.conditionTooDeep condition.depth 32) ∨
        condition.depth ≤ 32 ∧ FirstFault Offends condition.nodes e := by
  refine ⟨?_, fun compiled h => ?_, fun e => ?_⟩
  · rw [← exists_toClause_iff condition columns]
    simp only [compile_eq_ok_iff]
    constructor
    · rintro ⟨compiled, hdepth, hclause, -⟩
      exact ⟨hdepth, _, hclause⟩
    · rintro ⟨hdepth, clause, hclause⟩
      exact ⟨⟨clause, clause.needsFiltering⟩, hdepth, hclause, rfl⟩
  · obtain ⟨hleaves, hfiltering⟩ := expresses_of_compile h
    rw [(compile_eq_ok_iff.mp h).2.2]
    exact ⟨hleaves, hfiltering⟩
  · rw [compile_eq_error_iff, toClause_eq_error_iff]
    rfl

/-- A condition that asks for one of several values, for a key and for a range of tokens. -/
def valuesKeyAndRange : Condition :=
  .and (.relation ⟨"LABEL", .isIn,
      .list [.identifier ⟨"1:marko"⟩, .list [.direction .outgoing, .value (.bigint 5)]]⟩)
    (.and (.relation ⟨"PROPERTIES", .containsKey, .value (.text "age")⟩)
      (.relation ⟨"-10", .scan, .value (.bigint 10)⟩))

/-- The clause of the condition has a comparison for the values, one for the key and two for the
range, and it needs filtering for the key. With a disjunction and an inequality behind it the
disjunction is what is refused. -/
theorem compile_expressible_valuesKeyAndRange :
    (∃ compiled, valuesKeyAndRange.compile ["ID"] = .ok compiled ∧
      compiled.clause.leaves =
        [.isIn "LABEL" [.text "1:marko", .list [.text "OUT", .bigint 5]],
          .containsKey "PROPERTIES" (.text "age"), .tokenAtLeast ["ID"] "-10",
          .tokenBelow ["ID"] "10"] ∧
      compiled.allowFiltering = true) ∧
    (Condition.and valuesKeyAndRange (.or
        (.relation ⟨"LABEL", .notEqual, .value .null⟩) valuesKeyAndRange)).compile ["ID"] =
      .error (.unsupported .disjunction) := by
  have hsound : ∀ node ∈ valuesKeyAndRange.nodes, ∀ e, ¬ node.Offends e :=
    (exists_toClause_iff _ ["ID"]).mp ⟨_, rfl⟩
  constructor
  · obtain ⟨compiled, h⟩ := (compile_expressible valuesKeyAndRange ["ID"]).1.mpr
      ⟨by decide, hsound⟩
    obtain ⟨hleaves, hfiltering⟩ := (compile_expressible valuesKeyAndRange ["ID"]).2.1 compiled h
    refine ⟨compiled, h, hleaves.trans rfl, hfiltering.mpr ?_⟩
    exact ⟨⟨"PROPERTIES", .containsKey, .value (.text "age")⟩,
      List.mem_cons_of_mem _ List.mem_cons_self, rfl⟩
  · refine ((compile_expressible _ _).2.2 _).mpr (.inr ⟨by decide, ?_⟩)
    exact .behind (not_offends_and _ _)
      (FirstFault.append_iff.mpr (.inr ⟨hsound, .here .disjunction⟩))

end Condition

end WideGraph
