import Mathlib.Data.Finset.Basic
import Mathlib.Logic.Function.Basic
import WideGraph.GraphTable.Basic
import WideGraph.Store.Binding

/-!
# Indexes as maps from keys to sets

An index is meant as a map from keys to finite sets of texts, a key being field values and an index
label. Texts are added to the set of a key or removed from it, and the keys of a label are cleared.
Changes are staged, and reach the map when they are committed, all of them or none.

The steps here take the same entries as those of an index table, but know neither rows nor
statements.
-/

namespace WideGraph

namespace TextSet

/-- The elements of a set of texts. -/
def toFinset (s : TextSet) : Finset String :=
  s.toList.toFinset

@[simp] theorem mem_toFinset {s : TextSet} {t : String} : t ∈ s.toFinset ↔ s.contains t = true := by
  rw [toFinset, List.mem_toFinset, contains_iff]

@[simp] theorem toFinset_union (s t : TextSet) :
    (s.union t).toFinset = s.toFinset ∪ t.toFinset := by
  ext u
  simp

@[simp] theorem toFinset_diff (s t : TextSet) : (s.diff t).toFinset = s.toFinset \ t.toFinset := by
  ext u
  simp

@[simp] theorem toFinset_erase (s : TextSet) (t : String) :
    (s.erase t).toFinset = s.toFinset \ {t} := by
  ext u
  simp

@[simp] theorem toFinset_ofList (ts : List String) : (ofList ts).toFinset = ts.toFinset := by
  ext u
  simp

/-- Sets of texts with the same elements are equal. -/
theorem toFinset_injective : Function.Injective toFinset := by
  intro s t h
  refine eq_of_contains fun u => ?_
  rw [Bool.eq_iff_iff, ← mem_toFinset, ← mem_toFinset, h]

/-- A set of texts is empty if it has no elements. -/
theorem isEmpty_iff {s : TextSet} : s.isEmpty = true ↔ s.toFinset = ∅ := by
  rw [isEmpty, List.isEmpty_iff, toFinset, List.toFinset_eq_empty_iff, toList, List.map_eq_nil_iff]

end TextSet

namespace Value

/-- The texts that a value denotes: the members of a set, the texts of the items of a list, the keys
of a map, and the text of any other value. -/
def texts : Value → Finset String
  | .set s => s.toFinset
  | .list items => (items.map plain).toFinset
  | .map m => m.keys.toFinset
  | scalar => {scalar.plain}

/-- The texts that a value adds to a set, to which a map cannot be added. -/
def addedTexts? : Value → Option (Finset String)
  | .map _ => none
  | value => some value.texts

end Value

/-- What an index is searched for: field values under an index label, as they are kept. -/
structure IndexKey where
  fieldValues : Value
  label : Value
deriving DecidableEq

/-- The sets of an index by key. A key that is not in the index has the empty set. -/
abbrev IndexMap :=
  IndexKey → Finset String

/-- A change of an index. -/
inductive IndexChange where
  | add (key : IndexKey) (texts : Finset String)
  | remove (key : IndexKey) (texts : Finset String)
  | clear (keys : IndexKey → Bool)

namespace IndexChange

/-- A change is about a key. -/
def Touches : IndexChange → IndexKey → Prop
  | .add key _, other | .remove key _, other => other = key
  | .clear keys, other => keys other = true

/-- The map after a change. -/
def apply (map : IndexMap) : IndexChange → IndexMap
  | .add key texts => Function.update map key (map key ∪ texts)
  | .remove key texts => Function.update map key (map key \ texts)
  | .clear keys => fun key => if keys key then ∅ else map key

/-- A change leaves the set of every key that it is not about. -/
theorem apply_of_not_touches {change : IndexChange} {key : IndexKey} (h : ¬ change.Touches key)
    (map : IndexMap) : change.apply map key = map key := by
  cases change with
  | add other texts => exact Function.update_of_ne h _ _
  | remove other texts => exact Function.update_of_ne h _ _
  | clear keys => exact if_neg h

/-- The map after several changes, one after the other. A change that cannot be made is no change,
and with it none of them is made. -/
def applyAll (map : IndexMap) : List (Option IndexChange) → Option IndexMap
  | [] => some map
  | none :: _ => none
  | some change :: rest => applyAll (change.apply map) rest

/-- Changes behind others start from what those give. -/
theorem applyAll_append (map : IndexMap) (first second : List (Option IndexChange)) :
    applyAll map (first ++ second) = (applyAll map first).bind (applyAll · second) := by
  induction first generalizing map with
  | nil => rfl
  | cons change rest ih =>
    cases change with
    | none => rfl
    | some change => exact ih (change.apply map)

/-- Changes that are made leave the set of every key that none of them is about. -/
theorem applyAll_of_not_touches {changes : List (Option IndexChange)} {map after : IndexMap}
    (happly : applyAll map changes = some after) {key : IndexKey}
    (h : ∀ change, some change ∈ changes → ¬ change.Touches key) : after key = map key := by
  induction changes generalizing map with
  | nil =>
    cases happly
    rfl
  | cons change rest ih =>
    cases change with
    | none => cases happly
    | some change =>
      have hrest := ih happly fun other hother => h other (List.mem_cons_of_mem _ hother)
      rw [hrest, apply_of_not_touches (h change List.mem_cons_self)]

end IndexChange

/-- An entry has no columns but those of an index. -/
def EntryRow.hasIndexColumnsOnly (row : EntryRow) : Bool :=
  row.columns.columns.all [Column.fieldValues, .indexLabelName, .elementIds].contains

namespace ElementKind

/-- The type in which an index keeps field values. -/
def fieldType : ElementKind → ColumnType
  | .searchIndex => .decimal
  | _ => .text

/-- The key made of field values and a label, if both can be kept. -/
def boundKey? (kind : ElementKind) (stated : Value × Value) : Option IndexKey :=
  match kind.fieldType.bind stated.1, ColumnType.text.bind stated.2 with
  | .ok fieldValues, .ok label => some ⟨fieldValues, label⟩
  | _, _ => none

/-- The field values and the label that an identifier stands for. The search index puts the label
first, and its field values are a decimal. -/
def idKey? (kind : ElementKind) (id : Identifier) : Option (Value × Value) :=
  match kind, id.split with
  | .secondaryIndex, [fieldValues, label] => some (.text fieldValues, .text label)
  | .searchIndex, [label, fieldValues] =>
    (Decimal.literal? (Text.trim fieldValues.toList)).map fun x => (.decimal x, .text label)
  | _, _ => none

/-- The field values and the label that an entry is about: those of its identifier or, without one,
those of its columns. -/
def statedKey? (kind : ElementKind) (row : EntryRow) : Option (Value × Value) :=
  match row.id with
  | some id => kind.idKey? id
  | none =>
    match row.find? .fieldValues, row.find? .indexLabelName with
    | some fieldValues, some label => some (fieldValues, label)
    | _, _ => none

/-- The key that an entry is about and its element identifiers, if it has no column besides. -/
def indexRequest? (kind : ElementKind) (row : EntryRow) : Option ((Value × Value) × Value) :=
  if row.hasIndexColumnsOnly then
    match kind.statedKey? row, row.find? .elementIds with
    | some stated, some ids => some (stated, ids)
    | _, _ => none
  else none

end ElementKind

/-- The label under which an entry asks to delete: it may not name field values. -/
def EntryRow.clearedLabel? (row : EntryRow) : Option String :=
  match row.find? .fieldValues, row.text? .indexLabelName with
  | none, some label => if label = "" then none else some label
  | _, _ => none

/-- An index as it is meant: the committed sets and the changes staged on them. -/
structure IndexState where
  committed : IndexMap := fun _ => ∅
  staged : List (Option IndexChange) := []

/-- What may be asked of an index. -/
inductive IndexStep where
  | append (row : EntryRow)
  | eliminate (row : EntryRow)
  | delete (row : EntryRow)
  | commit
  | rollback

namespace IndexState

/-- Stage one more change. -/
def stage (state : IndexState) (change : Option IndexChange) : IndexState :=
  { state with staged := state.staged ++ [change] }

/-- Whether a step succeeds, and the index after it. A delete clears the keys of its label that are
committed when it is called. -/
def step (kind : ElementKind) (state : IndexState) : IndexStep → Bool × IndexState
  | .append row =>
    match kind.indexRequest? row with
    | none => (false, state)
    | some (stated, ids) =>
      (true, state.stage <|
        match kind.boundKey? stated, ids.addedTexts? with
        | some key, some texts => some (.add key texts)
        | _, _ => none)
  | .eliminate row =>
    match kind.indexRequest? row with
    | none => (false, state)
    | some (stated, ids) =>
      (true, state.stage ((kind.boundKey? stated).map (.remove · ids.texts)))
  | .delete row =>
    match row.clearedLabel? with
    | none => (false, state)
    | some label =>
      (true, state.stage (some (.clear fun key =>
        decide (key.label = .text label ∧ (state.committed key).Nonempty))))
  | .commit =>
    match IndexChange.applyAll state.committed state.staged with
    | none => (false, { state with staged := [] })
    | some after => (true, { committed := after })
  | .rollback => (true, { state with staged := [] })

/-- A step leaves the set of every key that no staged change is about. -/
theorem step_of_not_touches (kind : ElementKind) (state : IndexState) (step : IndexStep)
    {key : IndexKey} (h : ∀ change, some change ∈ state.staged → ¬ change.Touches key) :
    (state.step kind step).2.committed key = state.committed key := by
  cases step with
  | append row =>
    rw [IndexState.step]
    split <;> rfl
  | eliminate row =>
    rw [IndexState.step]
    split <;> rfl
  | delete row =>
    rw [IndexState.step]
    split <;> rfl
  | commit =>
    rw [IndexState.step]
    split
    · rfl
    · rename_i after happly
      exact IndexChange.applyAll_of_not_touches happly h
  | rollback => rfl

end IndexState

/-- What several steps give, one after the other, and where they end. -/
def runSteps {σ step : Type} (next : σ → step → Bool × σ) : List step → σ → List Bool × σ
  | [], s => ([], s)
  | step :: rest, s =>
    let after := runSteps next rest (next s step).2
    ((next s step).1 :: after.1, after.2)

/-- What is related and stays so at every step gives the same outcomes and is related at the end. -/
theorem runSteps_related {σ τ step : Type} {next : σ → step → Bool × σ}
    {next' : τ → step → Bool × τ} (related : σ → τ → Prop)
    (hstep : ∀ step s t, related s t →
      (next s step).1 = (next' t step).1 ∧ related (next s step).2 (next' t step).2)
    (steps : List step) {s : σ} {t : τ} (h : related s t) :
    (runSteps next steps s).1 = (runSteps next' steps t).1 ∧
      related (runSteps next steps s).2 (runSteps next' steps t).2 := by
  induction steps generalizing s t with
  | nil => exact ⟨rfl, h⟩
  | cons step rest ih =>
    obtain ⟨houtcome, hrelated⟩ := hstep step s t h
    obtain ⟨houtcomes, hend⟩ := ih hrelated
    refine ⟨?_, hend⟩
    rw [runSteps, runSteps, houtcome, houtcomes]

end WideGraph
