import WideGraph.BackendError
import WideGraph.Row
import WideGraph.Statement.Basic

/-!
# Sessions

A session is a connection to a store: selects are answered at once, changes are staged on a batch
and applied when the batch is committed, and the schema is changed directly. Graph tables work over
any session. An operation that fails leaves behind what the session did up to then.
-/

namespace WideGraph

/-- What a graph table asks of a session whose state is `σ`. -/
class Session (σ : Type) where
  execute : Select → σ → Except StoreError (List Row) × σ
  executeSchema : SchemaStatement → σ → Except StoreError Unit × σ
  add : Statement → σ → σ
  sizeEstimate : String → σ → Except StoreError Nat × σ

/-- An operation that runs on a session and may fail. -/
abbrev SessionM (σ : Type) :=
  ExceptT BackendError (StateM σ)

namespace SessionM

variable {σ α : Type}

/-- The operation that does not touch the session. -/
def ofExcept (result : Except BackendError α) : SessionM σ α :=
  fun s => (result, s)

/-- A step of the store as a step of an operation; a failure names what was being done. -/
def ofStore (context : String) (step : σ → Except StoreError α × σ) : SessionM σ α :=
  fun s =>
    match step s with
    | (.ok a, s) => (.ok a, s)
    | (.error e, s) => (.error (.store context e), s)

/-- Stage a change on the session's batch. -/
def stage [Session σ] (statement : Statement) : SessionM σ Unit :=
  fun s => (.ok (), Session.add statement s)

/-- One operation after another runs from where the first left the session, unless that failed. -/
theorem bind_apply {β : Type} (first : SessionM σ α) (next : α → SessionM σ β) (s : σ) :
    (first >>= next) s =
      match first s with
      | (.ok a, s) => next a s
      | (.error e, s) => (.error e, s) := by
  simp only [bind, ExceptT.bind, ExceptT.mk, StateT.bind, ExceptT.bindCont]
  cases first s with
  | mk result s => cases result <;> rfl

/-- An operation that only gives a value leaves the session as it is. -/
theorem pure_apply (a : α) (s : σ) : (pure a : SessionM σ α) s = (.ok a, s) :=
  rfl

/-- One operation after another gives a result if the first gives one that the second takes on. -/
theorem fst_bind_eq_ok_iff {β : Type} {first : SessionM σ α} {next : α → SessionM σ β} {s : σ}
    {b : β} :
    ((first >>= next) s).1 = .ok b ↔ ∃ a, (first s).1 = .ok a ∧ (next a (first s).2).1 = .ok b := by
  rw [bind_apply]
  cases first s with
  | mk result s => cases result <;> simp

/-- A step of the store gives what the store answers. -/
theorem fst_ofStore_eq_ok_iff {context : String} {step : σ → Except StoreError α × σ} {s : σ}
    {a : α} : (ofStore context step s).1 = .ok a ↔ (step s).1 = .ok a := by
  rw [ofStore]
  cases step s with
  | mk result s => cases result <;> simp

/-- A step of the store leaves the session where the store does. -/
theorem snd_ofStore (context : String) (step : σ → Except StoreError α × σ) (s : σ) :
    (ofStore context step s).2 = (step s).2 := by
  rw [ofStore]
  cases step s with
  | mk result s => cases result <;> rfl

end SessionM

end WideGraph
