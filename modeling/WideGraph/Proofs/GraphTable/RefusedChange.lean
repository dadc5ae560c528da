import WideGraph.Proofs.GraphTable.IndexPlans
import WideGraph.Proofs.GraphTable.LabelDeletion
import WideGraph.ScriptedSession

/-!
# Refused changes

A change that is refused while it is planned leaves the batch of its session alone, whatever the
session is. Deleting a label is planned before its rows are known, and its deletes are staged while
the rows are still being looked at: a row that cannot be used refuses the change, and the deletes of
the rows ahead of it stay on the batch. This is the only way in which a refused change leaves
anything behind.
-/

namespace WideGraph

/-- A session with a batch: what is staged goes to its end, and a select leaves it alone. Nothing is
said of what the session answers. -/
class BatchedSession (σ : Type) extends Session σ where
  batch : σ → List Statement
  batch_add : ∀ statement s, batch (Session.add statement s) = batch s ++ [statement]
  batch_execute : ∀ select s, batch (Session.execute select s).2 = batch s

instance : BatchedSession Connection where
  batch c := c.session.batch
  batch_add _ _ := rfl
  batch_execute _ _ := rfl

instance : BatchedSession ScriptedSession where
  batch s := s.batch
  batch_add _ _ := rfl
  batch_execute select s := by
    obtain ⟨answers, estimate, schema, batch, history⟩ := s
    cases answers <;> rfl

open BatchedSession

/-- Statements that are staged go to the end of the batch. -/
theorem BatchedSession.batch_addAll {σ : Type} [BatchedSession σ] (statements : List Statement)
    (s : σ) : batch (Session.addAll statements s) = batch s ++ statements := by
  induction statements generalizing s with
  | nil => exact (List.append_nil _).symm
  | cons statement rest ih =>
    have hstep : Session.addAll (statement :: rest) s =
        Session.addAll rest (Session.add statement s) := rfl
    rw [hstep, ih, batch_add, List.append_assoc, List.singleton_append]

namespace GraphTable

variable {table : GraphTable} {row : EntryRow} {label : String}

/-- An entry has a label deleted: it stands for the label, which for an index must not be empty. -/
def DeletesLabel (table : GraphTable) (row : EntryRow) (label : String) : Prop :=
  row.NamesLabel table.kind label ∧ (table.kind.isIndex = true → label ≠ "")

/-- The scan for a label that is deleted. The search index is not filtered. -/
def deletionScan (table : GraphTable) (label : String) : Select :=
  table.labelScan label (table.kind != .searchIndex)

/-- The delete that is staged for a returned row of a label. -/
def labelDelete (table : GraphTable) (label : String) : Row → Except BackendError Statement :=
  match table.kind with
  | .edge => table.edgeLabelDelete label
  | _ => table.indexLabelDelete label

/-- A returned row can be deleted with its group: it has the columns that make up the group. -/
def Usable (table : GraphTable) (returned : Row) : Prop :=
  ∀ column ∈ table.kind.groupColumns, (returned.find? column.nativeName).isSome = true

/-- The label under which an entry asks to delete from an index is the one that it stands for. -/
theorem clearedLabel?_eq_some_iff : row.clearedLabel? = some label ↔
    row.NamesLabel .secondaryIndex label ∧ label ≠ "" := by
  have htext : row.text? .indexLabelName = some label ↔
      row.find? .indexLabelName = some (.text label) := by
    rw [EntryRow.text?, Option.bind_eq_some_iff]
    constructor
    · rintro ⟨value, hname, hvalue⟩
      cases value with
      | text t =>
        cases hvalue
        exact hname
      | _ => cases hvalue
    · exact fun hname => ⟨_, hname, rfl⟩
  rw [EntryRow.NamesLabel, ← htext, EntryRow.clearedLabel?]
  cases row.find? .fieldValues with
  | some value => simp
  | none =>
    cases row.text? .indexLabelName with
    | none => simp
    | some found => by_cases hempty : found = "" <;> aesop

/-- An entry that has a label deleted is planned as a scan for the label and a delete for each row. -/
theorem DeletesLabel.deletePlan (h : table.DeletesLabel row label) :
    ∃ context, table.deletePlan row =
      .ok (.perRow (table.deletionScan label) context (table.labelDelete label)) := by
  obtain ⟨hnames, hlabel⟩ := h
  obtain ⟨kind, configuration⟩ := table
  cases kind with
  | edge => exact ⟨_, deleteEdgePlan_of_namesLabel hnames⟩
  | secondaryIndex =>
    exact ⟨_, deletePlan_of_label rfl (clearedLabel?_eq_some_iff.mpr ⟨hnames, hlabel rfl⟩)⟩
  | searchIndex =>
    exact ⟨_, deletePlan_of_label rfl (clearedLabel?_eq_some_iff.mpr ⟨hnames, hlabel rfl⟩)⟩
  | _ => exact hnames.elim

/-- An identifier that is read as one part of an edge has that one part. -/
theorem split_of_edgeParts {id : Identifier} {direction : Direction}
    (h : id.edgeParts direction = [label]) : id.split = [label] := by
  rw [Identifier.edgeParts] at h
  split at h
  · split at h <;> cases h
  · exact h

section Plans

/-- A change comes to one statement, unless it is refused. -/
def ComesToOne (plan : Except BackendError ChangePlan) : Prop :=
  ∀ p, plan = .ok p → ∃ statement, p = .stage statement

/-- A change that is refused comes to one statement at most. -/
theorem comesToOne_error (e : BackendError) : ComesToOne (.error e) := by
  intro p h
  cases h

/-- Staging a statement comes to one statement. -/
theorem comesToOne_stage (statement : Statement) : ComesToOne (.ok (.stage statement)) := by
  intro p h
  cases h
  exact ⟨statement, rfl⟩

/-- An insertion comes to one statement. -/
theorem comesToOne_insertPlan (table : GraphTable) (row : EntryRow) :
    ComesToOne (table.insertPlan row) := by
  rw [insertPlan]
  split
  · exact comesToOne_error _
  · split
    · exact comesToOne_error _
    · exact comesToOne_stage _

/-- A change of collections comes to one statement. -/
theorem comesToOne_updatePlan (table : GraphTable) (operation : String) (row : EntryRow)
    (assignments : List Assignment) :
    ComesToOne (table.updatePlan operation row assignments) := by
  rw [updatePlan]
  split
  · exact comesToOne_error _
  · intro p h
    obtain ⟨clauses, -, rfl⟩ := map_ok_iff.mp h
    exact ⟨_, rfl⟩

/-- A change of collections that is checked first comes to one statement. -/
theorem comesToOne_checked (table : GraphTable) (operation : String) (row : EntryRow)
    (assignments : List Assignment) :
    ComesToOne (table.checkModifiable row >>= fun _ =>
      table.updatePlan operation row assignments) := by
  intro p h
  obtain ⟨_, -, h⟩ := bind_ok_iff.mp h
  exact comesToOne_updatePlan _ _ _ _ p h

/-- Deleting an element by its row comes to one statement. -/
theorem comesToOne_deleteRowPlan (table : GraphTable) (row : EntryRow) :
    ComesToOne (table.deleteRowPlan row) := by
  rw [deleteRowPlan]
  split
  · intro p h
    obtain ⟨clauses, -, rfl⟩ := map_ok_iff.mp h
    exact ⟨_, rfl⟩
  · split
    · exact comesToOne_stage _
    · exact comesToOne_error _

/-- A delete of edges comes to one statement unless the entry stands for a label. -/
theorem comesToOne_deleteEdgePlan (table : GraphTable) (row : EntryRow) :
    ComesToOne (table.deleteEdgePlan row) ∨ ∃ label, row.NamesLabel .edge label := by
  rw [deleteEdgePlan.eq_def]
  split
  · exact .inl (comesToOne_deleteRowPlan table row)
  · rename_i id hid
    split
    · rename_i label hparts
      split
      · exact .inl (comesToOne_deleteRowPlan table row)
      · rename_i hcolumns
        exact .inr ⟨label, by simpa using hcolumns, id, hid, split_of_edgeParts hparts⟩
    · exact .inl (comesToOne_deleteRowPlan table row)

/-- A delete from an index is refused unless the entry names a label and no field values. -/
theorem comesToOne_deletePlan_of_index (hindex : table.kind.isIndex = true) (row : EntryRow) :
    ComesToOne (table.deletePlan row) ∨
      ∃ label, row.NamesLabel .secondaryIndex label ∧ label ≠ "" := by
  cases hlabel : row.clearedLabel? with
  | some label => exact .inr ⟨label, clearedLabel?_eq_some_iff.mp hlabel⟩
  | none =>
    refine .inl fun p hplan => ?_
    have hnone := deletePlan_toOption hindex row
    rw [hplan, hlabel] at hnone
    cases hnone

/-- A delete comes to one statement unless the entry has a label deleted. -/
theorem comesToOne_deletePlan (table : GraphTable) (row : EntryRow) :
    ComesToOne (table.deletePlan row) ∨ ∃ label, table.DeletesLabel row label := by
  obtain ⟨kind, configuration⟩ := table
  cases kind with
  | edge =>
    refine (comesToOne_deleteEdgePlan _ row).imp_right ?_
    rintro ⟨label, hnames⟩
    exact ⟨label, hnames, fun h => by cases h⟩
  | secondaryIndex =>
    refine (comesToOne_deletePlan_of_index rfl row).imp_right ?_
    rintro ⟨label, hnames, hlabel⟩
    exact ⟨label, hnames, fun _ => hlabel⟩
  | searchIndex =>
    refine (comesToOne_deletePlan_of_index rfl row).imp_right ?_
    rintro ⟨label, hnames, hlabel⟩
    exact ⟨label, hnames, fun _ => hlabel⟩
  | _ => exact .inl (comesToOne_deleteRowPlan _ row)

/-- A change that comes to one statement leaves the session as it was if it is refused. -/
theorem ComesToOne.eq_of_refused {σ : Type} [Session σ] {plan : Except BackendError ChangePlan}
    (hplan : ComesToOne plan) {s s' : σ} {e : BackendError}
    (h : carryOut plan s = (.error e, s')) : s' = s := by
  cases plan with
  | error e =>
    rw [carryOut_error] at h
    cases h
    rfl
  | ok p =>
    obtain ⟨statement, rfl⟩ := hplan p rfl
    rw [carryOut_ok] at h
    cases h

end Plans

section Labels

/-- The delete that is staged for a returned row is that of its group. -/
theorem DeletesLabel.isGroupDelete (h : table.DeletesLabel row label) {returned : Row}
    {statement : Statement} (hstatement : table.labelDelete label returned = .ok statement) :
    ∃ delete, statement = .delete delete ∧
      table.IsGroupDelete label (fun column => returned.find? column.nativeName) delete := by
  obtain ⟨kind, configuration⟩ := table
  cases kind with
  | edge => exact isGroupDelete_of_edgeLabelDelete rfl hstatement
  | secondaryIndex => exact isGroupDelete_of_indexLabelDelete rfl hstatement
  | searchIndex => exact isGroupDelete_of_indexLabelDelete rfl hstatement
  | _ => exact h.1.elim

/-- A returned row has a delete exactly if it is usable. -/
theorem DeletesLabel.usable_iff (h : table.DeletesLabel row label) {returned : Row} :
    table.Usable returned ↔ ∃ statement, table.labelDelete label returned = .ok statement := by
  constructor
  · intro husable
    have hkey : ∀ description, ∀ column ∈ table.kind.groupColumns,
        ∃ value, returnedKey description column returned = .ok value := fun _ column hcolumn =>
      (Option.isSome_iff_exists.mp (husable column hcolumn)).imp fun _ =>
        returnedKey_eq_ok_iff.mpr
    obtain ⟨kind, configuration⟩ := table
    cases kind with
    | edge =>
      obtain ⟨owner, howner⟩ := hkey "edge" .ownerVertex (.head _)
      obtain ⟨direction, hdirection⟩ := hkey "edge" .direction (.tail _ (.head _))
      exact ⟨_, bind_ok_iff.mpr ⟨owner, howner, bind_ok_iff.mpr ⟨direction, hdirection, rfl⟩⟩⟩
    | secondaryIndex =>
      obtain ⟨values, hvalues⟩ := hkey _ .fieldValues (.head _)
      exact ⟨_, bind_ok_iff.mpr ⟨values, hvalues, rfl⟩⟩
    | searchIndex =>
      obtain ⟨values, hvalues⟩ := hkey _ .fieldValues (.head _)
      exact ⟨_, bind_ok_iff.mpr ⟨values, hvalues, rfl⟩⟩
    | _ => exact h.1.elim
  · rintro ⟨statement, hstatement⟩ column hcolumn
    obtain ⟨delete, -, pairs, hcolumns, hcells, -⟩ := h.isGroupDelete hstatement
    rw [← hcolumns] at hcolumn
    obtain ⟨pair, hpair, rfl⟩ := List.mem_map.mp hcolumn
    exact Option.isSome_iff_exists.mpr ⟨_, hcells pair hpair⟩

/-- Usable rows have a delete each, which is that of their group. -/
theorem DeletesLabel.exists_deletes (h : table.DeletesLabel row label) {ahead : List Row}
    (husable : ∀ returned ∈ ahead, table.Usable returned) :
    ∃ deletes, List.Forall₂ (fun returned delete => table.IsGroupDelete label
        (fun column => returned.find? column.nativeName) delete) ahead deletes ∧
      List.Forall₂ (fun returned statement => table.labelDelete label returned = .ok statement)
        ahead (deletes.map .delete) := by
  induction ahead with
  | nil => exact ⟨[], .nil, .nil⟩
  | cons returned rest ih =>
    obtain ⟨hfirst, hrest⟩ := List.forall_mem_cons.mp husable
    obtain ⟨statement, hstatement⟩ := h.usable_iff.mp hfirst
    obtain ⟨delete, rfl, hgroup⟩ := h.isGroupDelete hstatement
    obtain ⟨deletes, hgroups, hstatements⟩ := ih hrest
    exact ⟨delete :: deletes, .cons hgroup hgroups, .cons hstatement hstatements⟩

variable {σ : Type} [BatchedSession σ] {s s' : σ} {ahead : List Row} {faulty : Row}

/-- The session answers the scan for a label that is to be deleted with rows of which the first ones
are usable and the one behind them is not. -/
structure HaltsHalfway (table : GraphTable) (row : EntryRow) (s : σ) (label : String)
    (ahead : List Row) (faulty : Row) : Prop where
  deletesLabel : table.DeletesLabel row label
  answered : ∃ behind,
    (Session.execute (table.deletionScan label) s).1 = .ok (ahead ++ faulty :: behind)
  nonempty : ahead ≠ []
  usable : ∀ returned ∈ ahead, table.Usable returned
  unusable : ¬table.Usable faulty

/-- Deleting a label stages the deletes of the rows that the scan is answered with, and fails where it
does if the scan fails. -/
theorem DeletesLabel.delete_eq (h : table.DeletesLabel row label) (s : σ) :
    ∃ context, table.delete row s =
      match (Session.execute (table.deletionScan label) s).1 with
      | .ok rows => ChangePlan.stageRows (table.labelDelete label) rows
          (Session.execute (table.deletionScan label) s).2
      | .error failure =>
        (.error (.store context failure), (Session.execute (table.deletionScan label) s).2) := by
  obtain ⟨context, hplan⟩ := h.deletePlan
  refine ⟨context, ?_⟩
  rw [GraphTable.delete, hplan, carryOut_ok]
  exact ChangePlan.run_perRow _ _ _ s

/-- Deleting a label stages the deletes of the rows that the session answers. -/
theorem DeletesLabel.delete_of_answered (h : table.DeletesLabel row label) {rows : List Row}
    (hanswered : (Session.execute (table.deletionScan label) s).1 = .ok rows) :
    table.delete row s = ChangePlan.stageRows (table.labelDelete label) rows
      (Session.execute (table.deletionScan label) s).2 := by
  obtain ⟨context, hdelete⟩ := h.delete_eq s
  rw [hdelete, hanswered]

/-- Deleting a label leaves the batch as it was if the scan fails. -/
theorem DeletesLabel.batch_of_scan_failed (h : table.DeletesLabel row label) {failure : StoreError}
    (hfailed : (Session.execute (table.deletionScan label) s).1 = .error failure) :
    batch (table.delete row s).2 = batch s := by
  obtain ⟨context, hdelete⟩ := h.delete_eq s
  rw [hdelete, hfailed]
  exact batch_execute _ _

/-- A delete that halts halfway is refused and leaves the deletes of the rows ahead on the batch. -/
theorem HaltsHalfway.delete (h : table.HaltsHalfway row s label ahead faulty) :
    ∃ e s' deletes, table.delete row s = (.error e, s') ∧
      List.Forall₂ (fun returned delete => table.IsGroupDelete label
        (fun column => returned.find? column.nativeName) delete) ahead deletes ∧
      batch s' = batch s ++ deletes.map .delete := by
  obtain ⟨behind, hanswered⟩ := h.answered
  obtain ⟨deletes, hgroups, hstatements⟩ := h.deletesLabel.exists_deletes h.usable
  cases hfaulty : table.labelDelete label faulty with
  | ok statement => exact absurd (h.deletesLabel.usable_iff.mpr ⟨statement, hfaulty⟩) h.unusable
  | error e =>
    refine ⟨e, Session.addAll (deletes.map .delete)
      (Session.execute (table.deletionScan label) s).2, deletes, ?_, hgroups, ?_⟩
    · rw [h.deletesLabel.delete_of_answered hanswered,
        ChangePlan.stageRows_of_fault hstatements hfaulty]
    · rw [batch_addAll, batch_execute]

/-- A delete that halts halfway changes the batch. -/
theorem HaltsHalfway.batch_ne (h : table.HaltsHalfway row s label ahead faulty) :
    batch (table.delete row s).2 ≠ batch s := by
  obtain ⟨e, s', deletes, hdelete, hgroups, hbatch⟩ := h.delete
  rw [hdelete, hbatch]
  intro hsame
  have hdeletes : deletes = [] := by simpa using hsame
  rw [hdeletes, List.forall₂_nil_right_iff] at hgroups
  exact h.nonempty hgroups

/-- A refused delete of a label that does not halt halfway leaves the batch as it was. -/
theorem DeletesLabel.batch_of_refused (h : table.DeletesLabel row label) {e : BackendError}
    (hrefused : table.delete row s = (.error e, s'))
    (hhalfway : ¬∃ ahead faulty, table.HaltsHalfway row s label ahead faulty) :
    batch s' = batch s := by
  cases hanswered : (Session.execute (table.deletionScan label) s).1 with
  | error failure =>
    have hbatch := h.batch_of_scan_failed hanswered
    rwa [hrefused] at hbatch
  | ok rows =>
    rw [h.delete_of_answered hanswered] at hrefused
    obtain ⟨ahead, statements, faulty, behind, rfl, hahead, hfaulty, rfl⟩ :=
      ChangePlan.fault_of_stageRows hrefused
    rw [batch_addAll, batch_execute]
    by_cases hempty : ahead = []
    · rw [hempty, List.forall₂_nil_left_iff] at hahead
      rw [hahead, List.append_nil]
    · refine absurd ⟨ahead, faulty, h, ⟨behind, hanswered⟩, hempty, ?_, ?_⟩ hhalfway
      · intro returned hreturned
        obtain ⟨statement, -, hstatement⟩ := exists_mem_of_forall₂ hahead.flip hreturned
        exact h.usable_iff.mpr ⟨statement, hstatement⟩
      · intro husable
        obtain ⟨statement, hstatement⟩ := h.usable_iff.mp husable
        rw [hfaulty] at hstatement
        cases hstatement

/-- What a refused change stages, for every kind, every entry and whatever the session answers.
Insertions and changes of collections stage nothing. A refused delete stages nothing exactly if it
does not halt halfway; one that halts halfway is refused, and leaves on the batch the deletes of the
groups of the rows ahead of the one it halts at. -/
theorem refused_change_stages (table : GraphTable) (row : EntryRow) (s : σ) :
    (∀ e s', table.insert row s = (.error e, s') → batch s' = batch s) ∧
    (∀ e s', table.append row s = (.error e, s') → batch s' = batch s) ∧
    (∀ e s', table.eliminate row s = (.error e, s') → batch s' = batch s) ∧
    (∀ e s', table.delete row s = (.error e, s') →
      (batch s' = batch s ↔ ¬∃ label ahead faulty, table.HaltsHalfway row s label ahead faulty)) ∧
    ∀ label ahead faulty, table.HaltsHalfway row s label ahead faulty →
      ∃ e s' deletes, table.delete row s = (.error e, s') ∧
        List.Forall₂ (fun returned delete => table.IsGroupDelete label
          (fun column => returned.find? column.nativeName) delete) ahead deletes ∧
        batch s' = batch s ++ deletes.map .delete := by
  refine ⟨fun e s' h => ?_, fun e s' h => ?_, fun e s' h => ?_, fun e s' h => ?_,
    fun label ahead faulty h => h.delete⟩
  · rw [(comesToOne_insertPlan table row).eq_of_refused h]
  · rw [ComesToOne.eq_of_refused (comesToOne_checked table _ row _) h]
  · rw [ComesToOne.eq_of_refused (comesToOne_checked table _ row _) h]
  · constructor
    · rintro hsame ⟨label, ahead, faulty, hhalfway⟩
      have hne := hhalfway.batch_ne
      rw [h] at hne
      exact hne hsame
    · intro hhalfway
      obtain hone | ⟨label, hlabel⟩ := comesToOne_deletePlan table row
      · rw [hone.eq_of_refused h]
      · exact hlabel.batch_of_refused h fun ⟨ahead, faulty, halts⟩ =>
          hhalfway ⟨label, ahead, faulty, halts⟩

end Labels

/-- The entry that stands for the edges of a label. -/
def allKnows : EntryRow :=
  { kind := .edge, id := some ⟨"knows"⟩ }

/-- An edge as it is returned whole. -/
def returnedWhole : Row :=
  ⟨[("OWNER_VERTEX", .text "marko"), ("DIRECTION", .text "OUT"), ("LABEL", .text "knows")]⟩

/-- An edge as it is returned without its owner. -/
def returnedWithoutOwner : Row :=
  ⟨[("DIRECTION", .text "OUT"), ("LABEL", .text "knows")]⟩

/-- A session that answers with a whole edge and then with one that has no owner. -/
def answersWithoutOwner : ScriptedSession :=
  { answers := [.ok [returnedWhole, returnedWithoutOwner]] }

/-- The delete of the label halts at the edge without owner. -/
theorem haltsHalfway_allKnows :
    HaltsHalfway ⟨.edge, {}⟩ allKnows answersWithoutOwner "knows" [returnedWhole]
      returnedWithoutOwner where
  deletesLabel := ⟨⟨rfl, _, rfl, by decide +kernel⟩, fun h => by cases h⟩
  answered := ⟨[], rfl⟩
  nonempty := List.cons_ne_nil _ _
  usable := by
    simp only [List.forall_mem_singleton]
    unfold Usable
    decide +kernel
  unusable := by
    unfold Usable
    decide +kernel

/-- An entry without columns can neither be written nor added to nor taken out of, and none of this
stages anything; its label can be deleted, which halts after one of two edges. -/
theorem refused_change_stages_allKnows :
    (insert ⟨.edge, {}⟩ allKnows answersWithoutOwner).2.batch = [] ∧
    (append ⟨.edge, {}⟩ allKnows answersWithoutOwner).2.batch = [] ∧
    (eliminate ⟨.edge, {}⟩ allKnows answersWithoutOwner).2.batch = [] ∧
    (append ⟨.edge, {}⟩ allKnows answersWithoutOwner).1.toOption = none ∧
    ∃ e s', delete ⟨.edge, {}⟩ allKnows answersWithoutOwner = (.error e, s') ∧
      s'.batch.length = 1 := by
  obtain ⟨hinsert, happend, heliminate, -, hdelete⟩ :=
    refused_change_stages ⟨.edge, {}⟩ allKnows answersWithoutOwner
  obtain ⟨e, s', deletes, hrefused, hgroups, hbatch⟩ := hdelete _ _ _ haltsHalfway_allKnows
  have hlength : s'.batch.length = 1 := by
    change s'.batch = [] ++ deletes.map .delete at hbatch
    rw [hbatch, List.nil_append, List.length_map, ← hgroups.length_eq, List.length_singleton]
  exact ⟨hinsert _ _ rfl, happend _ _ rfl, heliminate _ _ rfl, rfl, e, s', hrefused, hlength⟩

/-- Not every refused change leaves the batch as it was. -/
theorem refused_delete_stages :
    ¬ ∀ (table : GraphTable) (row : EntryRow) (s s' : ScriptedSession) (e : BackendError),
      table.delete row s = (.error e, s') → s'.batch = s.batch := by
  intro hnothing
  obtain ⟨e, s', -, hrefused, -⟩ := haltsHalfway_allKnows.delete
  have hne := haltsHalfway_allKnows.batch_ne
  rw [hrefused] at hne
  exact hne (hnothing _ _ _ _ _ hrefused)

end GraphTable

end WideGraph
