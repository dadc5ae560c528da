import WideGraph.GraphTable.Writing
import WideGraph.Proofs.Store.Commit

/-!
# Plans carried out

What carrying out a plan comes to on any session. A plan that was refused leaves the session alone. A
plan for the rows of a select runs the select: if that fails the session stays where the select left
it, and otherwise the rows are staged, each as its statement, up to the first one that has none.
-/

namespace WideGraph

variable {σ : Type} [Session σ]

/-- The session after statements have been staged one after the other. -/
def Session.addAll (statements : List Statement) (s : σ) : σ :=
  statements.foldl (fun s statement => Session.add statement s) s

/-- On a connection statements are staged as it stages them. -/
theorem Connection.addAll_eq (statements : List Statement) (c : Connection) :
    Session.addAll statements c = c.stageAll statements :=
  rfl

namespace ChangePlan

section Rows

variable {toStatement : Row → Except BackendError Statement} {ahead rows : List Row}
  {statements : List Statement}

/-- Rows that have statements each are staged, and then the rows behind them. -/
theorem stageRows_append
    (hahead : List.Forall₂ (fun row statement => toStatement row = .ok statement) ahead statements)
    (behind : List Row) (s : σ) :
    stageRows toStatement (ahead ++ behind) s =
      stageRows toStatement behind (Session.addAll statements s) := by
  induction hahead generalizing s with
  | nil => rfl
  | cons hrow _ ih =>
    rw [List.cons_append, stageRows, SessionM.bind_apply, SessionM.ofExcept, hrow]
    exact ih _

/-- Rows that have statements each are staged as these. -/
theorem stageRows_of_statements
    (h : List.Forall₂ (fun row statement => toStatement row = .ok statement) rows statements)
    (s : σ) : stageRows toStatement rows s = (.ok (), Session.addAll statements s) := by
  have hrows := stageRows_append h [] s
  rwa [List.append_nil] at hrows

/-- Rows are staged up to the first one that has no statement, which is what the failure reports. -/
theorem stageRows_of_fault
    (hahead : List.Forall₂ (fun row statement => toStatement row = .ok statement) ahead statements)
    {faulty : Row} {e : BackendError} (hfaulty : toStatement faulty = .error e) (behind : List Row)
    (s : σ) :
    stageRows toStatement (ahead ++ faulty :: behind) s =
      (.error e, Session.addAll statements s) := by
  rw [stageRows_append hahead, stageRows, SessionM.bind_apply, SessionM.ofExcept, hfaulty]

/-- Either each row has a statement, or there is a first row that has none. -/
theorem statements_or_fault (toStatement : Row → Except BackendError Statement) (rows : List Row) :
    (∃ statements, List.Forall₂ (fun row statement => toStatement row = .ok statement) rows
      statements) ∨
    ∃ ahead statements faulty e behind, rows = ahead ++ faulty :: behind ∧
      List.Forall₂ (fun row statement => toStatement row = .ok statement) ahead statements ∧
      toStatement faulty = .error e := by
  induction rows with
  | nil => exact .inl ⟨[], .nil⟩
  | cons row rest ih =>
    cases hrow : toStatement row with
    | error e => exact .inr ⟨[], [], row, e, rest, rfl, .nil, hrow⟩
    | ok statement =>
      obtain ⟨statements, hrest⟩ | ⟨ahead, statements, faulty, e, behind, rfl, hahead, hfaulty⟩ := ih
      · exact .inl ⟨statement :: statements, .cons hrow hrest⟩
      · exact .inr ⟨row :: ahead, statement :: statements, faulty, e, behind, rfl,
          .cons hrow hahead, hfaulty⟩

variable {s s' : σ}

/-- Rows could all be staged if each has a statement. -/
theorem statements_of_stageRows (h : stageRows toStatement rows s = (.ok (), s')) :
    ∃ statements, List.Forall₂ (fun row statement => toStatement row = .ok statement) rows
      statements ∧ s' = Session.addAll statements s := by
  obtain ⟨statements, hrows⟩ | ⟨ahead, statements, faulty, e, behind, rfl, hahead, hfaulty⟩ :=
    statements_or_fault toStatement rows
  · rw [stageRows_of_statements hrows, Prod.mk.injEq] at h
    exact ⟨statements, hrows, h.2.symm⟩
  · rw [stageRows_of_fault hahead hfaulty] at h
    cases h

/-- Rows that could not all be staged have a first one that has no statement. -/
theorem fault_of_stageRows {e : BackendError} (h : stageRows toStatement rows s = (.error e, s')) :
    ∃ ahead statements faulty behind, rows = ahead ++ faulty :: behind ∧
      List.Forall₂ (fun row statement => toStatement row = .ok statement) ahead statements ∧
      toStatement faulty = .error e ∧ s' = Session.addAll statements s := by
  obtain ⟨statements, hrows⟩ | ⟨ahead, statements, faulty, e', behind, rfl, hahead, hfaulty⟩ :=
    statements_or_fault toStatement rows
  · rw [stageRows_of_statements hrows] at h
    cases h
  · rw [stageRows_of_fault hahead hfaulty, Prod.mk.injEq, Except.error.injEq] at h
    obtain ⟨rfl, rfl⟩ := h
    exact ⟨ahead, statements, faulty, behind, rfl, hahead, hfaulty, rfl⟩

end Rows

section Select

variable {select : Select} {context : String} {toStatement : Row → Except BackendError Statement}
  {s s' : σ}

/-- A plan for each row of a select stages the rows that are answered, unless the select fails. -/
theorem run_perRow (select : Select) (context : String)
    (toStatement : Row → Except BackendError Statement) (s : σ) :
    (perRow select context toStatement).run s =
      match (Session.execute select s).1 with
      | .ok rows => stageRows toStatement rows (Session.execute select s).2
      | .error failure => (.error (.store context failure), (Session.execute select s).2) := by
  change (SessionM.ofStore context (Session.execute select) >>= stageRows toStatement) s = _
  rw [SessionM.bind_apply, SessionM.ofStore]
  rcases Session.execute select s with ⟨_ | _, _⟩ <;> rfl

/-- A plan for each row of a select succeeds by staging a statement for every row answered. -/
theorem statements_of_run_perRow (h : (perRow select context toStatement).run s = (.ok (), s')) :
    ∃ rows statements, (Session.execute select s).1 = .ok rows ∧
      List.Forall₂ (fun row statement => toStatement row = .ok statement) rows statements ∧
      s' = Session.addAll statements (Session.execute select s).2 := by
  rw [run_perRow] at h
  cases hanswered : (Session.execute select s).1 with
  | error failure =>
    rw [hanswered] at h
    cases h
  | ok rows =>
    rw [hanswered] at h
    obtain ⟨statements, hstatements, hstaged⟩ := statements_of_stageRows h
    exact ⟨rows, statements, rfl, hstatements, hstaged⟩

end Select

end ChangePlan

end WideGraph
