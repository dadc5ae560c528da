import Mathlib.Data.List.Induction
import Mathlib.Data.List.Nodup
import WideGraph.Schema.ColumnValues

/-!
# Values given for columns

Of values that are given for columns one after the other the last one for a column stays. What is
kept is listed in the order of all columns, each column that has a value once.
-/

namespace WideGraph

namespace Column

/-- Every column is in the list of all. -/
theorem mem_all (column : Column) : column ∈ all := by
  cases column <;> decide

/-- The list of all columns is in order. -/
theorem all_increasing : all.Pairwise fun a b => compare a b = .lt := by
  decide +kernel

end Column

namespace ColumnValues

/-- The values of columns are listed with them. -/
theorem mem_bindings_iff {values : ColumnValues} {column : Column} {value : Value} :
    (column, value) ∈ values.bindings ↔ values.find? column = some value :=
  (Bindings.find?_eq_some_iff values.increasing column value).symm

/-- A column that has a value is listed once. -/
theorem nodup_bindings (values : ColumnValues) : (values.bindings.map (·.1)).Nodup := by
  refine List.pairwise_map.mpr (values.increasing.imp fun hlt heq => ?_)
  simp [heq] at hlt

/-- The last of given pairs is set last. -/
theorem ofList_concat (pairs : List (Column × Value)) (pair : Column × Value) :
    ofList (pairs ++ [pair]) = (ofList pairs).set pair.1 pair.2 := by
  rw [ofList, List.foldl_append]
  rfl

/-- Among given pairs a column has a value that one of them gives it. -/
theorem mem_of_find?_ofList {pairs : List (Column × Value)} {column : Column} {value : Value}
    (h : (ofList pairs).find? column = some value) : (column, value) ∈ pairs := by
  induction pairs using List.reverseRecOn with
  | nil => cases h
  | append_singleton rest pair ih =>
    rw [ofList_concat, find?_set] at h
    split at h
    · rename_i heq
      cases h
      simp [heq]
    · exact List.mem_append_left _ (ih h)

/-- The last of given pairs gives its column the value. -/
theorem find?_ofList_concat (pairs : List (Column × Value)) (column : Column) (value : Value) :
    (ofList (pairs ++ [(column, value)])).find? column = some value := by
  rw [ofList_concat, find?_set, if_pos rfl]

/-- A column of given pairs has the value of one of them. -/
theorem exists_find?_ofList {pairs : List (Column × Value)} {column : Column}
    (h : column ∈ pairs.map (·.1)) : ∃ value, (ofList pairs).find? column = some value := by
  induction pairs using List.reverseRecOn with
  | nil => cases h
  | append_singleton rest pair ih =>
    rw [ofList_concat, find?_set]
    split
    · exact ⟨pair.2, rfl⟩
    · rename_i hne
      rw [List.map_append, List.mem_append] at h
      exact ih (h.resolve_right fun hlast => hne (List.mem_singleton.mp hlast))

/-- The pairs for some columns give these columns the values that all pairs do. -/
theorem find?_ofList_filter (p : Column → Bool) (pairs : List (Column × Value)) (column : Column) :
    (ofList (pairs.filter fun pair => p pair.1)).find? column =
      if p column then (ofList pairs).find? column else none := by
  induction pairs using List.reverseRecOn with
  | nil => cases p column <;> rfl
  | append_singleton rest pair ih =>
    rw [List.filter_append, List.filter_singleton, ofList_concat, find?_set]
    by_cases heq : column = pair.1
    · subst heq
      cases hpair : p pair.1 with
      | true => simp [ofList_concat]
      | false => simpa [hpair] using ih
    · rw [if_neg heq, ← ih]
      cases p pair.1 with
      | true => simp [ofList_concat, heq]
      | false => simp

/-- Given pairs give some column a value. -/
theorem isEmpty_ofList {pairs : List (Column × Value)} (h : pairs ≠ []) :
    (ofList pairs).isEmpty = false := by
  obtain ⟨rest, last, rfl⟩ := (List.eq_nil_or_concat pairs).resolve_left h
  rw [List.concat_eq_append]
  have hmem := mem_bindings_iff.mpr (find?_ofList_concat rest last.1 last.2)
  exact List.isEmpty_eq_false_iff.mpr (List.ne_nil_of_mem hmem)

/-- A column has the only value that is given for it, however often it is. -/
theorem find?_ofList_of_only {pairs : List (Column × Value)} {column : Column} {value : Value}
    (hmem : (column, value) ∈ pairs) (honly : ∀ other, (column, other) ∈ pairs → other = value) :
    (ofList pairs).find? column = some value := by
  obtain ⟨found, hfound⟩ := exists_find?_ofList (List.mem_map.mpr ⟨(column, value), hmem, rfl⟩)
  rw [hfound, honly found (mem_of_find?_ofList hfound)]

/-- Among pairs for distinct columns a column has the value that is given for it. -/
theorem find?_ofList_iff {pairs : List (Column × Value)} (hdistinct : (pairs.map (·.1)).Nodup)
    {column : Column} {value : Value} :
    (ofList pairs).find? column = some value ↔ (column, value) ∈ pairs := by
  refine ⟨mem_of_find?_ofList, fun hmem => find?_ofList_of_only hmem fun other hother => ?_⟩
  have hsame := List.inj_on_of_nodup_map hdistinct hother hmem rfl
  exact (Prod.mk.inj hsame).2

/-- Pairs that are exactly the columns of some values with their values give these values, in
whatever order and however often. -/
theorem ofList_eq {pairs : List (Column × Value)} {values : ColumnValues}
    (h : ∀ column value, (column, value) ∈ pairs ↔ values.find? column = some value) :
    ofList pairs = values := by
  refine eq_of_find? fun column => Option.ext fun value => ?_
  refine ⟨fun hfound => (h column value).mp (mem_of_find?_ofList hfound), fun hvalue => ?_⟩
  refine find?_ofList_of_only ((h column value).mpr hvalue) fun other hother => ?_
  have hfound := (h column other).mp hother
  rwa [hvalue, Option.some.injEq, eq_comm] at hfound

/-- Values list the columns that have one in the order of all columns. -/
theorem bindings_eq (values : ColumnValues) : values.bindings = Column.all.filterMap fun column =>
    (values.find? column).map fun value => (column, value) := by
  -- What is listed is in order because the list of all columns is, so that it is enough to compare
  -- what is found under each column.
  have hincreasing : Increasing (Column.all.filterMap fun column =>
      (values.find? column).map fun value => (column, value)) := by
    refine Column.all_increasing.filterMap _ fun a b hab pair hpair other hother => ?_
    obtain ⟨value, -, rfl⟩ := Option.map_eq_some_iff.mp hpair
    obtain ⟨value', -, rfl⟩ := Option.map_eq_some_iff.mp hother
    exact hab
  refine Bindings.eq_of_find? values.increasing hincreasing fun column => Option.ext fun value => ?_
  rw [Bindings.find?_eq_some_iff hincreasing, List.mem_filterMap]
  constructor
  · intro hvalue
    exact ⟨column, column.mem_all, Option.map_eq_some_iff.mpr ⟨value, hvalue, rfl⟩⟩
  · rintro ⟨other, -, hother⟩
    obtain ⟨found, hfound, heq⟩ := Option.map_eq_some_iff.mp hother
    obtain ⟨rfl, rfl⟩ := Prod.mk.inj heq
    exact hfound

end ColumnValues

end WideGraph
