import WideGraph.Proofs.GraphTable.Creation
import WideGraph.Proofs.GraphTable.IndexPlans

/-!
# Index tables refine maps

A batch on an index table stands for changes of a map if it does to a table that keeps a map what
the changes do to the map. Every operation stages a batch that stands for the change that is meant,
so that a table keeps the map as it is meant after any steps. A delete stands for the keys that are
there when it is called, whatever happens before it is committed.
-/

namespace WideGraph

namespace Keyspace

/-- A batch behind another one is applied to what that gives. -/
theorem applyBatch_append (tables : Keyspace) (first second : List Statement) :
    applyBatch tables (first ++ second) = (applyBatch tables first).bind (applyBatch · second) := by
  induction first generalizing tables with
  | nil => rfl
  | cons statement rest ih =>
    rw [List.cons_append, applyBatch, applyBatch]
    cases applyStatement tables statement with
    | error e => rfl
    | ok changed => exact ih changed

/-- A statement on a table that is there leads where it leads the table. -/
theorem applyBatch_singleton {tables : Keyspace} {statement : Statement} {stored : StoredTable}
    (h : Bindings.find? statement.table tables = some stored) :
    applyBatch tables [statement] = (stored.apply statement).map fun changed =>
      Bindings.insert statement.table changed tables := by
  rw [applyBatch, applyStatement, h]
  cases happly : stored.apply statement <;> simp [happly, Except.map, applyBatch]

end Keyspace

/-- A batch on an index table stands for changes of a map. -/
structure GraphTable.StandsFor (table : GraphTable) (batch : List Statement)
    (changes : List (Option IndexChange)) : Prop where
  applies : ∀ (tables : Keyspace) (stored : StoredTable) (map after : IndexMap),
    Bindings.find? table.name tables = some stored → stored.KeepsIndex table.kind map →
    IndexChange.applyAll map changes = some after →
    ∃ reached changed, Keyspace.applyBatch tables batch = .ok reached ∧
      Bindings.find? table.name reached = some changed ∧ changed.KeepsIndex table.kind after
  refuses : ∀ (tables : Keyspace) (stored : StoredTable) (map : IndexMap),
    Bindings.find? table.name tables = some stored → stored.KeepsIndex table.kind map →
    IndexChange.applyAll map changes = none →
    ∃ e, Keyspace.applyBatch tables batch = .error e

namespace GraphTable.StandsFor

variable {table : GraphTable} {batch more : List Statement}
  {changes later : List (Option IndexChange)}

/-- No statements stand for no changes. -/
theorem nil : table.StandsFor [] [] where
  applies tables stored map after hfound hkeeps happly := by
    cases happly
    exact ⟨tables, stored, rfl, hfound, hkeeps⟩
  refuses tables stored map hfound hkeeps happly := by cases happly

/-- Statements behind others stand for changes behind others. -/
theorem append (hfirst : table.StandsFor batch changes) (hsecond : table.StandsFor more later) :
    table.StandsFor (batch ++ more) (changes ++ later) where
  applies tables stored map after hfound hkeeps happly := by
    rw [IndexChange.applyAll_append, Option.bind_eq_some_iff] at happly
    obtain ⟨between, hbetween, hafter⟩ := happly
    obtain ⟨reached, changed, hreached, hchanged, hkept⟩ :=
      hfirst.applies tables stored map between hfound hkeeps hbetween
    rw [Keyspace.applyBatch_append, hreached]
    exact hsecond.applies reached changed between after hchanged hkept hafter
  refuses tables stored map hfound hkeeps happly := by
    rw [IndexChange.applyAll_append] at happly
    rw [Keyspace.applyBatch_append]
    cases hbetween : IndexChange.applyAll map changes with
    | none =>
      obtain ⟨e, he⟩ := hfirst.refuses tables stored map hfound hkeeps hbetween
      exact ⟨e, by rw [he]; rfl⟩
    | some between =>
      obtain ⟨reached, changed, hreached, hchanged, hkept⟩ :=
        hfirst.applies tables stored map between hfound hkeeps hbetween
      rw [hbetween] at happly
      rw [hreached]
      exact hsecond.refuses reached changed between hchanged hkept happly

/-- Changes may be put in place of others that do the same. -/
theorem congr (h : table.StandsFor batch changes)
    (hsame : ∀ map, IndexChange.applyAll map changes = IndexChange.applyAll map later) :
    table.StandsFor batch later where
  applies tables stored map after hfound hkeeps happly :=
    h.applies tables stored map after hfound hkeeps ((hsame map).trans happly)
  refuses tables stored map hfound hkeeps happly :=
    h.refuses tables stored map hfound hkeeps ((hsame map).trans happly)

/-- A statement that always makes a change stands for it. -/
theorem of_applied {statement : Statement} {change : IndexChange}
    (hname : statement.table = table.name)
    (h : ∀ (stored : StoredTable) (map : IndexMap), stored.KeepsIndex table.kind map →
      ∃ changed, stored.apply statement = .ok changed ∧
        changed.KeepsIndex table.kind (change.apply map)) :
    table.StandsFor [statement] [some change] where
  applies tables stored map after hfound hkeeps happly := by
    obtain ⟨changed, hchanged, hkept⟩ := h stored map hkeeps
    cases happly
    rw [← hname] at hfound ⊢
    rw [Keyspace.applyBatch_singleton hfound, hchanged]
    exact ⟨_, changed, rfl, Bindings.find?_insert_self _ _ _, hkept⟩
  refuses tables stored map hfound hkeeps happly := by cases happly

/-- A statement that is always refused stands for a change that cannot be made. -/
theorem of_refused {statement : Statement} (hname : statement.table = table.name)
    (h : ∀ (stored : StoredTable) (map : IndexMap), stored.KeepsIndex table.kind map →
      ∃ e, stored.apply statement = .error e) :
    table.StandsFor [statement] [none] where
  applies tables stored map after hfound hkeeps happly := by cases happly
  refuses tables stored map hfound hkeeps happly := by
    obtain ⟨e, he⟩ := h stored map hkeeps
    rw [← hname] at hfound
    exact ⟨e, by rw [Keyspace.applyBatch_singleton hfound, he]; rfl⟩

/-- An update stands for what its assignment does to the set of its key. -/
theorem keyUpdate (hindex : table.kind.isIndex = true) {assignment : Assignment}
    (hcolumn : assignment.column = Column.elementIds.nativeName) {stated : Value × Value}
    {key : IndexKey} (hkey : table.kind.boundKey? stated = some key) {change : IndexChange}
    {f : Finset String → Finset String} (hmaps : assignment.Maps f)
    (hchange : ∀ map, change.apply map = Function.update map key (f (map key))) :
    table.StandsFor [table.keyUpdate stated assignment] [some change] := by
  apply of_applied
  · rfl
  · intro stored map hkeeps
    rw [hchange]
    exact hkeeps.update hindex table.name hcolumn hmaps hkey

/-- An update whose key cannot be bound or whose assignment is refused stands for a change that
cannot be made. -/
theorem keyUpdate_refused (hindex : table.kind.isIndex = true) {assignment : Assignment}
    (hcolumn : assignment.column = Column.elementIds.nativeName) {stated : Value × Value}
    (hrefused : table.kind.boundKey? stated = none ∨ assignment.Refused) :
    table.StandsFor [table.keyUpdate stated assignment] [none] := by
  apply of_refused
  · rfl
  · intro stored map hkeeps
    exact hkeeps.update_refused hindex table.name hcolumn hrefused

/-- Deletes of keys stand for clearing them. -/
theorem keyDeletes (hindex : table.kind.isIndex = true) {keys : List IndexKey}
    (hkeys : ∀ key ∈ keys, key.Bound table.kind) :
    table.StandsFor (keys.map table.keyDelete) [some (.clear fun key => decide (key ∈ keys))] := by
  induction keys with
  | nil =>
    apply nil.congr
    intro map
    simp [IndexChange.applyAll, IndexChange.apply]
  | cons key rest ih =>
    obtain ⟨hkey, hrest⟩ := List.forall_mem_cons.mp hkeys
    have hfirst : table.StandsFor [table.keyDelete key]
        [some (.clear fun other => decide (other = key))] := by
      apply of_applied
      · rfl
      · intro stored map hkeeps
        have hchange : (IndexChange.clear fun other => decide (other = key)).apply map =
            Function.update map key ∅ := by
          funext other
          by_cases heq : other = key
          · simp [IndexChange.apply, heq]
          · simp [IndexChange.apply, heq]
        rw [hchange]
        exact hkeeps.delete hindex table.name hkey
    apply (hfirst.append (ih hrest)).congr
    intro map
    refine congrArg some (funext fun other => ?_)
    by_cases heq : other = key
    · simp [IndexChange.apply, heq]
    · simp [IndexChange.apply, heq]

end GraphTable.StandsFor

namespace GraphTable

/-- Whether an operation succeeds, and what it leaves behind. -/
def outcome {ε α σ : Type} (result : Except ε α × σ) : Bool × σ :=
  (result.1.isOk, result.2)

/-- What a step does on an index table. -/
def indexStep (table : GraphTable) (c : Connection) : IndexStep → Bool × Connection
  | .append row => outcome (table.append row c)
  | .eliminate row => outcome (table.eliminate row c)
  | .delete row => outcome (table.delete row c)
  | .commit => outcome c.commit
  | .rollback => (true, c.rollback)

/-- A connection is to an index as it is meant: the table keeps the committed map, and the batch
stands for the staged changes. -/
structure Realises (table : GraphTable) (keyspace : String) (c : Connection)
    (state : IndexState) : Prop where
  connected : c.session.keyspace = keyspace
  keeps : ∃ stored, c.cluster.table keyspace table.name = .ok stored ∧
    stored.KeepsIndex table.kind state.committed
  staged : table.StandsFor c.session.batch state.staged

namespace Realises

variable {table : GraphTable} {keyspace : String} {c : Connection} {state : IndexState}

/-- One more statement is staged for one more change. -/
theorem stage (h : table.Realises keyspace c state) {statement : Statement}
    {change : Option IndexChange} (hstands : table.StandsFor [statement] [change]) :
    table.Realises keyspace (c.add statement) (state.stage change) where
  connected := h.connected
  keeps := h.keeps
  staged := h.staged.append hstands

/-- With nothing staged on either side the committed map is kept. -/
theorem rollback (h : table.Realises keyspace c state) :
    table.Realises keyspace c.rollback { state with staged := [] } where
  connected := h.connected
  keeps := h.keeps
  staged := .nil

/-- Appending stages the addition that is meant. -/
theorem append (h : table.Realises keyspace c state) (hindex : table.kind.isIndex = true)
    (row : EntryRow) :
    (table.indexStep c (.append row)).1 = (state.step table.kind (.append row)).1 ∧
      table.Realises keyspace (table.indexStep c (.append row)).2
        (state.step table.kind (.append row)).2 := by
  rw [indexStep, IndexState.step]
  cases hrequest : table.kind.indexRequest? row with
  | none =>
    obtain ⟨e, he⟩ := append_refused hindex hrequest c
    rw [he]
    exact ⟨rfl, h⟩
  | some request =>
    obtain ⟨stated, ids⟩ := request
    rw [append_of_request hindex hrequest]
    refine ⟨rfl, h.stage ?_⟩
    cases hkey : table.kind.boundKey? stated with
    | none => exact .keyUpdate_refused hindex rfl (.inl hkey)
    | some key =>
      cases htexts : ids.addedTexts? with
      | none => exact .keyUpdate_refused hindex rfl (.inr (Assignment.refused_append _ htexts))
      | some texts =>
        exact .keyUpdate hindex rfl hkey (Assignment.maps_append _ htexts) fun _ => rfl

/-- Eliminating stages the removal that is meant. -/
theorem eliminate (h : table.Realises keyspace c state) (hindex : table.kind.isIndex = true)
    (row : EntryRow) :
    (table.indexStep c (.eliminate row)).1 = (state.step table.kind (.eliminate row)).1 ∧
      table.Realises keyspace (table.indexStep c (.eliminate row)).2
        (state.step table.kind (.eliminate row)).2 := by
  rw [indexStep, IndexState.step]
  cases hrequest : table.kind.indexRequest? row with
  | none =>
    obtain ⟨e, he⟩ := eliminate_refused hindex hrequest c
    rw [he]
    exact ⟨rfl, h⟩
  | some request =>
    obtain ⟨stated, ids⟩ := request
    have hcolumn : (removal Column.elementIds.nativeName ids).column =
        Column.elementIds.nativeName := by
      cases ids <;> rfl
    rw [eliminate_of_request hindex hrequest]
    refine ⟨rfl, h.stage ?_⟩
    cases hkey : table.kind.boundKey? stated with
    | none => exact .keyUpdate_refused hindex hcolumn (.inl hkey)
    | some key =>
      exact .keyUpdate hindex hcolumn hkey (Assignment.maps_removal _ ids) fun _ => rfl

/-- Deleting stages the clearing of the keys that the label has at this moment. -/
theorem delete (h : table.Realises keyspace c state) (hindex : table.kind.isIndex = true)
    (row : EntryRow) :
    (table.indexStep c (.delete row)).1 = (state.step table.kind (.delete row)).1 ∧
      table.Realises keyspace (table.indexStep c (.delete row)).2
        (state.step table.kind (.delete row)).2 := by
  rw [indexStep, IndexState.step]
  cases hlabel : row.clearedLabel? with
  | none =>
    obtain ⟨e, he⟩ := delete_refused hindex hlabel c
    rw [he]
    exact ⟨rfl, h⟩
  | some label =>
    obtain ⟨stored, hstored, hkeeps⟩ := h.keeps
    rw [← h.connected] at hstored
    obtain ⟨keys, hdelete, hkeys⟩ := delete_of_label hindex hstored hkeeps hlabel
    rw [hdelete, Connection.stageAll_eq]
    refine ⟨rfl, h.connected, h.keeps, h.staged.append ?_⟩
    have hbound : ∀ key ∈ keys, key.Bound table.kind := fun key hkey =>
      hkeeps.bound key ((hkeys key).mp hkey).2
    apply (StandsFor.keyDeletes hindex hbound).congr
    intro map
    refine congrArg some (funext fun key => ?_)
    simp [IndexChange.apply, hkeys]

/-- A commit makes the staged changes, all of them or none. -/
theorem commit (h : table.Realises keyspace c state) :
    (table.indexStep c .commit).1 = (state.step table.kind .commit).1 ∧
      table.Realises keyspace (table.indexStep c .commit).2
        (state.step table.kind .commit).2 := by
  obtain ⟨stored, hstored, hkeeps⟩ := h.keeps
  have hfound : Bindings.find? table.name c.tables = some stored := by
    rw [Connection.tables, h.connected]
    exact Cluster.table_eq_ok_iff.mp hstored
  rw [indexStep, IndexState.step, Connection.commit]
  cases happly : IndexChange.applyAll state.committed state.staged with
  | none =>
    obtain ⟨e, he⟩ := h.staged.refuses c.tables stored state.committed hfound hkeeps happly
    rw [he]
    exact ⟨rfl, h.rollback⟩
  | some after =>
    obtain ⟨reached, changed, hreached, hchanged, hkept⟩ :=
      h.staged.applies c.tables stored state.committed after hfound hkeeps happly
    rw [hreached]
    refine ⟨rfl, h.connected, ⟨changed, ?_, hkept⟩, .nil⟩
    rw [← h.connected, Cluster.table_eq_ok_iff]
    change Bindings.find? table.name
      ((c.cluster.setTables c.session.keyspace reached).tables c.session.keyspace) = some changed
    rw [Cluster.tables_setTables_self, hchanged]

/-- Every step does on the table what is meant. -/
theorem step (h : table.Realises keyspace c state) (hindex : table.kind.isIndex = true)
    (step : IndexStep) :
    (table.indexStep c step).1 = (state.step table.kind step).1 ∧
      table.Realises keyspace (table.indexStep c step).2 (state.step table.kind step).2 := by
  cases step with
  | append row => exact h.append hindex row
  | eliminate row => exact h.eliminate hindex row
  | delete row => exact h.delete hindex row
  | commit => exact h.commit
  | rollback => exact ⟨rfl, h.rollback⟩

end Realises

/-- An index table that was initialised while its name was free refines a map from keys to finite
sets of texts, whatever steps are taken on it: they succeed and fail as those of the map, the table
has a row for every key whose set is not empty, with that set in it, and no other row, and the next
step leaves the set of every key that no staged change is about. -/
theorem indexStep_refines (table : GraphTable) (hindex : table.kind.isIndex = true)
    {start c : Connection}
    (hfree : ∀ stored, start.cluster.table start.session.keyspace table.name ≠ .ok stored)
    (hbatch : start.session.batch = []) (hinit : table.init start = (.ok (), c))
    (steps : List IndexStep) :
    let reached := runSteps table.indexStep steps c
    let meant := runSteps (IndexState.step table.kind) steps {}
    reached.1 = meant.1 ∧
      (∃ stored, reached.2.cluster.table start.session.keyspace table.name = .ok stored ∧
        stored.KeepsIndex table.kind meant.2.committed) ∧
      ∀ step key, (∀ change, some change ∈ meant.2.staged → ¬ change.Touches key) →
        (meant.2.step table.kind step).2.committed key = meant.2.committed key := by
  intro reached meant
  obtain ⟨created, hcreated, hsession, indexes, htable⟩ := table.init_creates hfree
  rw [hcreated, Prod.mk.injEq] at hinit
  obtain ⟨-, rfl⟩ := hinit
  have hstart : table.Realises start.session.keyspace created {} := by
    refine ⟨by rw [hsession], ⟨_, htable, StoredTable.keepsIndex_of_no_rows rfl rfl⟩, ?_⟩
    rw [hsession, hbatch]
    exact .nil
  obtain ⟨houtcomes, hend⟩ := runSteps_related (table.Realises start.session.keyspace)
    (fun step c state h => h.step hindex step) steps hstart
  exact ⟨houtcomes, hend.keeps,
    fun step key => IndexState.step_of_not_touches table.kind meant.2 step⟩

/-- An entry of the search index for the elements with one age. -/
def ageEntry (ids : Value) : EntryRow where
  kind := .searchIndex
  columns := .ofList [(.fieldValues, .bigint 29), (.indexLabelName, .text "byAge"),
    (.elementIds, ids)]

/-- Two elements are added to the search index, one of them is taken out again, and a third is
added together with a map, which no commit takes. -/
def ageSteps : List IndexStep :=
  [.append (ageEntry (.list [.text "1", .text "2"])), .eliminate (ageEntry (.text "1")), .commit,
    .append (ageEntry (.text "3")), .append (ageEntry (.map .empty)), .commit]

/-- The second element is left in the search index. -/
theorem indexStep_refines_ages :
    ∃ c stored, init ⟨.searchIndex, {}⟩ (⟨{}, { keyspace := "graph" }⟩ : Connection) = (.ok (), c) ∧
      (runSteps (indexStep ⟨.searchIndex, {}⟩) ageSteps c).1 =
        [true, true, true, true, true, false] ∧
      (runSteps (indexStep ⟨.searchIndex, {}⟩) ageSteps c).2.cluster.table "graph"
        "search_indexes" = .ok stored ∧
      stored.KeepsIndex .searchIndex
        (runSteps (IndexState.step .searchIndex) ageSteps {}).2.committed ∧
      (runSteps (IndexState.step .searchIndex) ageSteps {}).2.committed
        ⟨.decimal (Binary64.ofInt 29), .text "byAge"⟩ = {"2"} := by
  have hfree : ∀ stored, (⟨{}, { keyspace := "graph" }⟩ : Connection).cluster.table "graph"
      (name ⟨.searchIndex, {}⟩) ≠ .ok stored := by
    intro stored h
    cases h
  obtain ⟨c, hinit, -, -⟩ := init_creates ⟨.searchIndex, {}⟩ hfree
  obtain ⟨houtcomes, ⟨stored, hstored, hkeeps⟩, -⟩ :=
    indexStep_refines ⟨.searchIndex, {}⟩ rfl hfree rfl hinit ageSteps
  have hmeant : (runSteps (IndexState.step .searchIndex) ageSteps {}).1 =
      [true, true, true, true, true, false] := by decide +kernel
  refine ⟨c, stored, hinit, houtcomes.trans hmeant, hstored, hkeeps, ?_⟩
  decide +kernel

end GraphTable

end WideGraph
