import Mathlib.Data.List.Basic
import Mathlib.Logic.Function.Basic
import WideGraph.Proofs.Store.WorkingCopy
import WideGraph.Schema.Layout

/-!
# Commits are all or nothing

Applying a batch is told apart from committing it: the relations below say, statement by statement,
where a batch leads and where it gets stuck. A commit installs the tables that the whole batch leads
to, in its own keyspace and only in the tables that the batch names, or it changes nothing at all.
-/

namespace WideGraph

namespace Bindings

variable {α : Type}

/-- A binding under another name is not changed by an insertion. -/
theorem find?_insert_of_ne {name other : String} (h : other ≠ name) (a : α)
    (bindings : List (String × α)) : find? other (insert name a bindings) = find? other bindings := by
  rw [find?_insert, if_neg]
  intro heq
  exact h (Std.LawfulEqCmp.eq_of_compare heq)

/-- An inserted binding is found under its name. -/
theorem find?_insert_self (name : String) (a : α) (bindings : List (String × α)) :
    find? name (insert name a bindings) = some a := by
  rw [find?_insert, if_pos Std.ReflCmp.compare_self]

end Bindings

namespace Keyspace

/-- Where a batch leads when each statement in turn changes the table it names. -/
inductive Applies : Keyspace → List Statement → Keyspace → Prop where
  | nil (tables : Keyspace) : Applies tables [] tables
  | cons {tables reached : Keyspace} {statement : Statement} {rest : List Statement}
      {table changed : StoredTable} (hfound : Bindings.find? statement.table tables = some table)
      (happly : table.apply statement = .ok changed)
      (hrest : Applies (Bindings.insert statement.table changed tables) rest reached) :
      Applies tables (statement :: rest) reached

/-- A batch gets stuck with an error at a statement whose table is missing or refuses it, after the
statements before it have been applied. -/
def StuckWith (tables : Keyspace) (batch : List Statement) (e : StoreError) : Prop :=
  ∃ before statement rest reached, batch = before ++ statement :: rest ∧
    Applies tables before reached ∧
    ((Bindings.find? statement.table reached = none ∧ e = .unconfiguredTable statement.table) ∨
      ∃ table, Bindings.find? statement.table reached = some table ∧
        table.apply statement = .error e)

/-- Applying a batch gives the tables that it leads to. -/
theorem applyBatch_eq_ok_iff (tables : Keyspace) (batch : List Statement) (reached : Keyspace) :
    applyBatch tables batch = .ok reached ↔ Applies tables batch reached := by
  induction batch generalizing tables with
  | nil =>
    constructor
    · intro h
      cases h
      exact .nil _
    · intro h
      cases h
      rfl
  | cons statement rest ih =>
    rw [applyBatch, applyStatement]
    constructor
    · intro h
      cases hfound : Bindings.find? statement.table tables with
      | none => simp [hfound] at h
      | some table =>
        cases happly : table.apply statement with
        | error e => simp [hfound, happly, Except.map] at h
        | ok changed =>
          simp only [hfound, happly, Except.map] at h
          exact .cons hfound happly ((ih _).mp h)
    · intro h
      cases h with
      | cons hfound happly hrest =>
        simp only [hfound, happly, Except.map]
        exact (ih _).mpr hrest

/-- Applying a batch fails with the error with which it gets stuck. -/
theorem applyBatch_eq_error_iff (tables : Keyspace) (batch : List Statement) (e : StoreError) :
    applyBatch tables batch = .error e ↔ StuckWith tables batch e := by
  induction batch generalizing tables with
  | nil =>
    constructor
    · intro h
      cases h
    · rintro ⟨before, statement, rest, reached, hbatch, -, -⟩
      simp at hbatch
  | cons statement rest ih =>
    rw [applyBatch, applyStatement]
    constructor
    · intro h
      cases hfound : Bindings.find? statement.table tables with
      | none =>
        simp only [hfound, Except.error.injEq] at h
        exact ⟨[], statement, rest, tables, rfl, .nil tables, .inl ⟨hfound, h.symm⟩⟩
      | some table =>
        cases happly : table.apply statement with
        | error e' =>
          simp only [hfound, happly, Except.map, Except.error.injEq] at h
          subst h
          exact ⟨[], statement, rest, tables, rfl, .nil tables, .inr ⟨table, hfound, happly⟩⟩
        | ok changed =>
          simp only [hfound, happly, Except.map] at h
          obtain ⟨before, stuck, after, reached, rfl, hbefore, hstuck⟩ := (ih _).mp h
          exact ⟨statement :: before, stuck, after, reached, rfl, .cons hfound happly hbefore,
            hstuck⟩
    · rintro ⟨before, stuck, after, reached, hbatch, hbefore, hstuck⟩
      cases hbefore with
      | nil =>
        obtain ⟨rfl, rfl⟩ := List.cons.inj hbatch
        obtain ⟨hmissing, rfl⟩ | ⟨table, hfound, hrefused⟩ := hstuck
        · simp [hmissing]
        · simp [hfound, hrefused, Except.map]
      | cons hfound happly hrest =>
        rw [List.cons_append, List.cons.injEq] at hbatch
        obtain ⟨rfl, rfl⟩ := hbatch
        simp only [hfound, happly, Except.map]
        exact (ih _).mpr ⟨_, stuck, after, reached, rfl, hrest, hstuck⟩

/-- One batch after another leads where they lead together. -/
theorem Applies.append {tables middle reached : Keyspace} {first second : List Statement}
    (hfirst : Applies tables first middle) (hsecond : Applies middle second reached) :
    Applies tables (first ++ second) reached := by
  induction hfirst with
  | nil => exact hsecond
  | cons hfound happly _ ih => exact .cons hfound happly (ih hsecond)

/-- A single statement leads to the tables with the one it names changed. -/
theorem Applies.of_singleton {tables reached : Keyspace} {statement : Statement}
    (h : Applies tables [statement] reached) :
    ∃ table changed, Bindings.find? statement.table tables = some table ∧
      table.apply statement = .ok changed ∧
      reached = Bindings.insert statement.table changed tables := by
  cases h with
  | cons hfound happly hrest =>
    cases hrest
    exact ⟨_, _, hfound, happly, rfl⟩

/-- A table that no statement names is as it was. -/
theorem Applies.find?_of_not_named {tables reached : Keyspace} {batch : List Statement}
    (h : Applies tables batch reached) {name : String} (hname : ∀ s ∈ batch, s.table ≠ name) :
    Bindings.find? name reached = Bindings.find? name tables := by
  induction h with
  | nil => rfl
  | cons _ _ _ ih =>
    rw [List.forall_mem_cons] at hname
    rw [ih hname.2, Bindings.find?_insert_of_ne hname.1.symm]

end Keyspace

namespace Cluster

/-- A table is what is found under its name in its keyspace. -/
theorem table_eq_ok_iff {cluster : Cluster} {keyspace name : String} {stored : StoredTable} :
    cluster.table keyspace name = .ok stored ↔
      Bindings.find? name (cluster.tables keyspace) = some stored := by
  rw [Cluster.table]
  cases Bindings.find? name (cluster.tables keyspace) <;> simp

/-- The tables that were put into a keyspace are there. -/
theorem tables_setTables_self (cluster : Cluster) (keyspace : String) (tables : Keyspace) :
    (cluster.setTables keyspace tables).tables keyspace = tables := by
  rw [Cluster.tables, setTables, Bindings.find?_insert_self]
  rfl

/-- Other keyspaces keep their tables. -/
theorem tables_setTables_of_ne (cluster : Cluster) {keyspace other : String} (h : other ≠ keyspace)
    (tables : Keyspace) : (cluster.setTables keyspace tables).tables other = cluster.tables other := by
  rw [Cluster.tables, setTables, Bindings.find?_insert_of_ne h, Cluster.tables]

/-- Only the replaced keyspace has other tables. -/
theorem tables_setTables (cluster : Cluster) (keyspace : String) (tables : Keyspace) :
    (cluster.setTables keyspace tables).tables =
      Function.update cluster.tables keyspace tables := by
  funext other
  by_cases h : other = keyspace
  · subst h
    rw [tables_setTables_self, Function.update_self]
  · rw [tables_setTables_of_ne _ h, Function.update_of_ne h]

/-- Where a batch on one table leads, every other table is as it was. -/
theorem table_setTables_of_applies {cluster : Cluster} {keyspace name : String}
    {batch : List Statement} {reached : Keyspace}
    (happlies : Keyspace.Applies (cluster.tables keyspace) batch reached)
    (hbatch : ∀ s ∈ batch, s.table = name) {otherKeyspace other : String}
    (hne : (otherKeyspace, other) ≠ (keyspace, name)) :
    (cluster.setTables keyspace reached).table otherKeyspace other =
      cluster.table otherKeyspace other := by
  rw [Cluster.table, Cluster.table]
  by_cases hkeyspace : otherKeyspace = keyspace
  · subst hkeyspace
    have hname : ∀ s ∈ batch, s.table ≠ other := fun s hs heq =>
      hne (by rw [← heq, hbatch s hs])
    rw [tables_setTables_self, happlies.find?_of_not_named hname]
  · rw [tables_setTables_of_ne _ hkeyspace]

/-- Of two replacements of one keyspace only the second is left. -/
theorem setTables_setTables (cluster : Cluster) (keyspace : String) (first second : Keyspace) :
    (cluster.setTables keyspace first).setTables keyspace second =
      cluster.setTables keyspace second := by
  rw [setTables, setTables, setTables, Bindings.insert_insert Std.ReflCmp.compare_self]

end Cluster

namespace Connection

/-- Stage several statements, one after the other. -/
def stageAll (statements : List Statement) (c : Connection) : Connection :=
  statements.foldl (fun c statement => c.add statement) c

/-- Staged statements go behind those that are staged already. -/
theorem stageAll_eq (statements : List Statement) (c : Connection) :
    c.stageAll statements =
      { c with session := { c.session with batch := c.session.batch ++ statements } } := by
  induction statements generalizing c with
  | nil => simp [stageAll]
  | cons statement rest ih =>
    have hstep : c.stageAll (statement :: rest) = (c.add statement).stageAll rest := rfl
    rw [hstep, ih]
    simp [add]

/-- A commit whose batch leads somewhere installs the tables that it leads to. -/
theorem commit_of_applies {c : Connection} {reached : Keyspace}
    (h : Keyspace.Applies c.tables c.session.batch reached) :
    c.commit = (.ok c.session.batch.length,
      { c.rollback with cluster := c.cluster.setTables c.session.keyspace reached }) := by
  rw [commit, (Keyspace.applyBatch_eq_ok_iff _ _ _).mpr h]

/-- A commit whose batch gets stuck only spends the batch. -/
theorem commit_of_stuck {c : Connection} {e : StoreError}
    (h : Keyspace.StuckWith c.tables c.session.batch e) : c.commit = (.error e, c.rollback) := by
  rw [commit, (Keyspace.applyBatch_eq_error_iff _ _ _).mpr h]

/-- A batch either leads somewhere or gets stuck. -/
theorem applies_or_stuck (c : Connection) :
    (∃ reached, Keyspace.Applies c.tables c.session.batch reached) ∨
      ∃ e, Keyspace.StuckWith c.tables c.session.batch e := by
  cases h : Keyspace.applyBatch c.tables c.session.batch with
  | error e => exact .inr ⟨e, (Keyspace.applyBatch_eq_error_iff _ _ _).mp h⟩
  | ok reached => exact .inl ⟨reached, (Keyspace.applyBatch_eq_ok_iff _ _ _).mp h⟩

/-- A commit succeeds only by installing the tables that its batch leads to. -/
theorem applies_of_commit {c c' : Connection} {n : Nat} (h : c.commit = (.ok n, c')) :
    ∃ reached, Keyspace.Applies c.tables c.session.batch reached ∧ n = c.session.batch.length ∧
      c' = { c.rollback with cluster := c.cluster.setTables c.session.keyspace reached } := by
  obtain ⟨reached, happlies⟩ | ⟨e, hstuck⟩ := c.applies_or_stuck
  · rw [commit_of_applies happlies, Prod.mk.injEq, Except.ok.injEq] at h
    exact ⟨reached, happlies, h.1.symm, h.2.symm⟩
  · rw [commit_of_stuck hstuck] at h
    cases h

/-- A single statement that was staged on an empty batch and that its table takes is committed. It
changes its table and no other. -/
theorem commit_add {c : Connection} (hbatch : c.session.batch = []) {statement : Statement}
    {before changed : StoredTable}
    (hbefore : c.cluster.table c.session.keyspace statement.table = .ok before)
    (happly : before.apply statement = .ok changed) :
    ∃ after, (c.add statement).commit = (.ok 1, after) ∧
      after.session.keyspace = c.session.keyspace ∧
      after.cluster.table c.session.keyspace statement.table = .ok changed ∧
      ∀ keyspace name, (keyspace, name) ≠ (c.session.keyspace, statement.table) →
        after.cluster.table keyspace name = c.cluster.table keyspace name := by
  have happlies : Keyspace.Applies (c.add statement).tables (c.add statement).session.batch
      (Bindings.insert statement.table changed c.tables) := by
    rw [add, hbatch, List.nil_append]
    exact .cons (Cluster.table_eq_ok_iff.mp hbefore) happly (.nil _)
  have hone : ∀ s ∈ (c.add statement).session.batch, s.table = statement.table := by
    simp [add, hbatch]
  have hcount : (c.add statement).session.batch.length = 1 := by
    rw [add, hbatch]
    rfl
  have hcommit := commit_of_applies happlies
  rw [hcount] at hcommit
  refine ⟨_, hcommit, rfl, ?_, fun keyspace name hne =>
    Cluster.table_setTables_of_applies happlies hone hne⟩
  rw [Cluster.table_eq_ok_iff]
  exact (congrArg _ (Cluster.tables_setTables_self _ _ _)).trans (Bindings.find?_insert_self _ _ _)

/-- If a single statement was staged on an empty batch and committed then its table took it. -/
theorem apply_of_commit_add {c after : Connection} (hbatch : c.session.batch = [])
    {statement : Statement} {n : Nat} (hcommit : (c.add statement).commit = (.ok n, after)) :
    ∃ before changed, c.cluster.table c.session.keyspace statement.table = .ok before ∧
      before.apply statement = .ok changed ∧ after.session.keyspace = c.session.keyspace ∧
      after.cluster.table c.session.keyspace statement.table = .ok changed ∧
      ∀ keyspace name, (keyspace, name) ≠ (c.session.keyspace, statement.table) →
        after.cluster.table keyspace name = c.cluster.table keyspace name := by
  obtain ⟨reached, happlies, -, -⟩ := applies_of_commit hcommit
  rw [add, hbatch, List.nil_append] at happlies
  obtain ⟨before, changed, hfound, happly, -⟩ := happlies.of_singleton
  have hbefore : c.cluster.table c.session.keyspace statement.table = .ok before :=
    Cluster.table_eq_ok_iff.mpr hfound
  obtain ⟨final, hfinal, hkeyspace, hafter, hothers⟩ := commit_add hbatch hbefore happly
  rw [hcommit, Prod.mk.injEq] at hfinal
  rw [hfinal.2]
  exact ⟨before, changed, hbefore, happly, hkeyspace, hafter, hothers⟩

/-- Two successful commits, the second of a batch staged after the first, come to the same as the
commit of both batches at once. -/
theorem commit_stageAll_append {c c₁ c₂ : Connection} {first second : List Statement} {n m : Nat}
    (hfirst : (c.stageAll first).commit = (.ok n, c₁))
    (hsecond : (c₁.stageAll second).commit = (.ok m, c₂)) :
    (c.stageAll (first ++ second)).commit = (.ok (n + m), c₂) := by
  obtain ⟨middle, hmiddle, rfl, rfl⟩ := applies_of_commit hfirst
  obtain ⟨reached, hreached, rfl, rfl⟩ := applies_of_commit hsecond
  simp only [stageAll_eq, rollback, tables, Cluster.tables_setTables_self, List.nil_append]
    at hmiddle hreached
  have hboth : Keyspace.Applies (c.stageAll (first ++ second)).tables
      (c.stageAll (first ++ second)).session.batch reached := by
    simp only [stageAll_eq, tables]
    rw [← List.append_assoc]
    exact hmiddle.append hreached
  rw [commit_of_applies hboth]
  simp [stageAll_eq, rollback, Cluster.setTables_setTables, Nat.add_assoc]

/-- A commit is all or nothing and sequential. Where the batch gets stuck, nothing but the batch
changes, whatever a run in place would have left behind. Otherwise the tables are those that the
batch leads to, its statements are counted, and other keyspaces and tables that it does not name are
as they were. One of the two is always the case, and batches committed in turn come to the same as
one batch. -/
theorem commit_all_or_nothing (c : Connection) :
    (∀ e, Keyspace.StuckWith c.tables c.session.batch e →
      c.commit = (.error e, { c with session := { c.session with batch := [] } })) ∧
    (∀ reached, Keyspace.Applies c.tables c.session.batch reached →
      ∃ c', c.commit = (.ok c.session.batch.length, c') ∧
        c'.session = { c.session with batch := [] } ∧ c'.tables = reached ∧
        (∀ keyspace, keyspace ≠ c.session.keyspace →
          c'.cluster.tables keyspace = c.cluster.tables keyspace) ∧
        ∀ name, (∀ s ∈ c.session.batch, s.table ≠ name) →
          c'.cluster.table c.session.keyspace name = c.cluster.table c.session.keyspace name) ∧
    ((∃ e, Keyspace.StuckWith c.tables c.session.batch e) ∨
      ∃ reached, Keyspace.Applies c.tables c.session.batch reached) ∧
    c.commit = c.commitOverCopy ∧
    ∀ first second n m c₁ c₂, (c.stageAll first).commit = (.ok n, c₁) →
      (c₁.stageAll second).commit = (.ok m, c₂) →
      (c.stageAll (first ++ second)).commit = (.ok (n + m), c₂) := by
  refine ⟨fun e hstuck => commit_of_stuck hstuck, fun reached happlies => ?_,
    c.applies_or_stuck.symm, c.commit_eq_commitOverCopy,
    fun first second n m c₁ c₂ hfirst hsecond => commit_stageAll_append hfirst hsecond⟩
  refine ⟨_, commit_of_applies happlies, rfl, ?_, fun keyspace hne => ?_, fun name hname => ?_⟩
  · exact Cluster.tables_setTables_self _ _ _
  · exact Cluster.tables_setTables_of_ne _ hne _
  · have hfound := happlies.find?_of_not_named hname
    simp only [Cluster.table, Cluster.tables_setTables_self, hfound, tables]

/-- A connection to an empty vertex table with some statements staged. -/
def onVertices (batch : List Statement) : Connection where
  cluster := ⟨[("graph", [("vertices", { definition := ElementKind.vertex.layout })])]⟩
  session := { keyspace := "graph", batch }

/-- The vertex `1` written whole. -/
def writeVertex : Statement :=
  .insert ⟨"vertices", [("ID", .text "1"), ("LABEL", .text "person")]⟩

/-- An update of the vertex `1` that gives it a property and fails at the second change. -/
def failHalfWay : Statement :=
  .update ⟨"vertices", [.append "PROPERTIES" (.map (.ofList [("age", "29")])),
    .append "PROPERTIES" (.text "29")], [Clause.eq "ID" (.text "1")]⟩

/-- In place the failing update creates the vertex and takes its property away again. -/
example : ((Keyspace.runInPlace (onVertices []).tables [failHalfWay]).2.map
    fun table => table.2.rows.map fun row => row.2.cells.columns) = [[[.id]]] := by
  decide +kernel

/-- The update that fails half-way takes the vertex written before it along, and alone the vertex is
written. -/
theorem commit_all_or_nothing_onVertices :
    (onVertices [writeVertex, failHalfWay]).commit =
      (.error (.invalidAssignment "PROPERTIES" .textMap), onVertices []) ∧
    (onVertices [writeVertex]).commit.1 = .ok 1 ∧
    ((onVertices []).stageAll ([writeVertex] ++ [writeVertex])).commit.1 = .ok (1 + 1) := by
  have hstuck : Keyspace.StuckWith (onVertices [writeVertex, failHalfWay]).tables
      [writeVertex, failHalfWay] (.invalidAssignment "PROPERTIES" .textMap) :=
    (Keyspace.applyBatch_eq_error_iff _ _ _).mp (by decide +kernel)
  obtain ⟨c₁, hcommit⟩ : ∃ c₁, ((onVertices []).stageAll [writeVertex]).commit = (.ok 1, c₁) :=
    ⟨_, Prod.ext (by decide +kernel) rfl⟩
  obtain ⟨c₂, hagain⟩ : ∃ c₂, (c₁.stageAll [writeVertex]).commit = (.ok 1, c₂) := by
    have hc₁ : c₁ = ((onVertices []).stageAll [writeVertex]).commit.2 := by rw [hcommit]
    rw [hc₁]
    exact ⟨_, Prod.ext (by decide +kernel) rfl⟩
  have hlaws := commit_all_or_nothing (onVertices [])
  refine ⟨(commit_all_or_nothing (onVertices [writeVertex, failHalfWay])).1 _ hstuck, ?_, ?_⟩
  · exact congrArg Prod.fst hcommit
  · rw [hlaws.2.2.2.2 _ _ _ _ _ _ hcommit hagain]

end Connection

end WideGraph
