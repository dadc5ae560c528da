import WideGraph.Session

/-!
# Sessions that follow a script

A session whose answers are written down beforehand, for trying out operations against any store
behaviour: each select takes the next answer, and finds no rows once the answers have run out.
-/

namespace WideGraph

/-- The answers still to be given, and what has been asked, the latest first, and staged. -/
structure ScriptedSession where
  answers : List (Except StoreError (List Row)) := []
  estimate : Except StoreError Nat := .ok 0
  schema : Except StoreError Unit := .ok ()
  batch : List Statement := []
  history : List Select := []

namespace ScriptedSession

/-- The selects that have been run, in the order of running. -/
def executed (s : ScriptedSession) : List Select :=
  s.history.reverse

instance : Session ScriptedSession where
  execute select s :=
    let s := { s with history := select :: s.history }
    match s.answers with
    | [] => (.ok [], s)
    | answer :: rest => (answer, { s with answers := rest })
  executeSchema _ s := (s.schema, s)
  add statement s := { s with batch := s.batch ++ [statement] }
  sizeEstimate _ s := (s.estimate, s)

end ScriptedSession

end WideGraph
