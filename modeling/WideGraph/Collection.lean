import WideGraph.Bindings

/-!
# Sets and maps of text

The two collection types of a column. Elements and keys are listed in increasing order without
repetition, so that two collections with the same members are the same value. The simplification
lemmas say for every operation which elements it leaves in a set and which values in a map.
-/

namespace WideGraph

/-- A set of texts, kept as bindings of its elements to nothing. -/
structure TextSet where
  bindings : List (String × Unit)
  increasing : Increasing bindings
deriving DecidableEq

namespace TextSet

/-- The set without elements. -/
def empty : TextSet :=
  ⟨[], List.Pairwise.nil⟩

/-- The elements in increasing order. -/
def toList (s : TextSet) : List String :=
  s.bindings.map (·.1)

/-- The set with one more element. -/
def insert (t : String) (s : TextSet) : TextSet :=
  ⟨Bindings.insert t () s.bindings, Bindings.increasing_insert t () s.increasing⟩

/-- The set with all the given elements added. -/
def insertAll (ts : List String) (s : TextSet) : TextSet :=
  ⟨Bindings.insertAll (ts.map (·, ())) s.bindings, Bindings.increasing_insertAll _ s.increasing⟩

/-- The set of the given elements. -/
def ofList (ts : List String) : TextSet :=
  empty.insertAll ts

/-- Whether a text is an element. -/
def contains (s : TextSet) (t : String) : Bool :=
  s.toList.contains t

/-- The elements that satisfy a test. -/
def filter (p : String → Bool) (s : TextSet) : TextSet :=
  ⟨s.bindings.filter fun b => p b.1, Bindings.increasing_filter _ s.increasing⟩

/-- The elements of either set. -/
def union (s t : TextSet) : TextSet :=
  s.insertAll t.toList

/-- The elements of the first set that are not in the second. -/
def diff (s t : TextSet) : TextSet :=
  s.filter fun x => !t.contains x

/-- The set without one text. -/
def erase (t : String) (s : TextSet) : TextSet :=
  s.filter (· != t)

/-- Whether there is no element. -/
def isEmpty (s : TextSet) : Bool :=
  s.bindings.isEmpty

/-- An element is one of the listed texts. -/
theorem contains_iff (s : TextSet) (t : String) : s.contains t ↔ t ∈ s.toList := by
  simp [contains]

/-- An element is what is found among the bindings. -/
theorem contains_eq_isSome (s : TextSet) (t : String) :
    s.contains t = (Bindings.find? t s.bindings).isSome := by
  rw [Bool.eq_iff_iff, contains_iff, Bindings.isSome_find?, toList]

@[simp] theorem contains_empty (u : String) : empty.contains u = false := by
  simp [contains, toList, empty]

@[simp] theorem contains_insert (s : TextSet) (t u : String) :
    (s.insert t).contains u = (u == t || s.contains u) := by
  rw [contains_eq_isSome, contains_eq_isSome, insert, Bindings.find?_insert]
  by_cases h : u = t <;> simp [h]

@[simp] theorem contains_insertAll (s : TextSet) (ts : List String) (u : String) :
    (s.insertAll ts).contains u = (ts.contains u || s.contains u) := by
  induction ts generalizing s with
  | nil => simp [insertAll, Bindings.insertAll, contains]
  | cons t ts ih =>
    have hstep : s.insertAll (t :: ts) = (s.insert t).insertAll ts := rfl
    rw [hstep, ih, contains_insert, List.contains_cons]
    cases ts.contains u <;> cases u == t <;> simp

@[simp] theorem contains_ofList (ts : List String) (u : String) :
    (ofList ts).contains u = ts.contains u := by
  simp [ofList]

@[simp] theorem contains_filter (p : String → Bool) (s : TextSet) (u : String) :
    (s.filter p).contains u = (p u && s.contains u) := by
  rw [contains_eq_isSome, contains_eq_isSome, filter]
  simp only [Bindings.find?_filter p fun i j h => by rw [Std.LawfulEqCmp.eq_of_compare h]]
  cases p u <;> simp

@[simp] theorem contains_union (s t : TextSet) (u : String) :
    (s.union t).contains u = (s.contains u || t.contains u) := by
  rw [union, contains_insertAll, Bool.or_comm, contains, contains]

@[simp] theorem contains_diff (s t : TextSet) (u : String) :
    (s.diff t).contains u = (s.contains u && !t.contains u) := by
  rw [diff, contains_filter, Bool.and_comm]

@[simp] theorem contains_erase (s : TextSet) (t u : String) :
    (s.erase t).contains u = (s.contains u && u != t) := by
  rw [erase, contains_filter, Bool.and_comm]

/-- Sets with the same elements are equal. -/
theorem eq_of_contains {s t : TextSet} (h : ∀ u, s.contains u = t.contains u) : s = t := by
  have hb : s.bindings = t.bindings := by
    refine Bindings.eq_of_find? s.increasing t.increasing fun u => ?_
    have hu := h u
    rw [contains_eq_isSome, contains_eq_isSome] at hu
    cases hs : Bindings.find? u s.bindings <;> cases ht : Bindings.find? u t.bindings <;> simp_all
  cases s
  cases t
  simp_all

end TextSet

/-- A map from texts to texts. -/
structure TextMap where
  bindings : List (String × String)
  increasing : Increasing bindings
deriving DecidableEq

namespace TextMap

/-- The map without keys. -/
def empty : TextMap :=
  ⟨[], List.Pairwise.nil⟩

/-- The keys in increasing order. -/
def keys (m : TextMap) : List String :=
  m.bindings.map (·.1)

/-- The value of a key. -/
def find? (m : TextMap) (key : String) : Option String :=
  Bindings.find? key m.bindings

/-- The map with the given pairs bound one after the other. -/
def insertAll (pairs : List (String × String)) (m : TextMap) : TextMap :=
  ⟨Bindings.insertAll pairs m.bindings, Bindings.increasing_insertAll _ m.increasing⟩

/-- The map of the given pairs, of which the last with the same key stays. -/
def ofList (pairs : List (String × String)) : TextMap :=
  empty.insertAll pairs

/-- The first map with the pairs of the second put over it. -/
def override (m n : TextMap) : TextMap :=
  m.insertAll n.bindings

/-- The pairs whose key satisfies a test. -/
def filterKeys (p : String → Bool) (m : TextMap) : TextMap :=
  ⟨m.bindings.filter fun b => p b.1, Bindings.increasing_filter _ m.increasing⟩

/-- Whether a key is bound. -/
def containsKey (m : TextMap) (key : String) : Bool :=
  m.keys.contains key

/-- The map without the keys in a set. -/
def eraseKeys (m : TextMap) (keys : TextSet) : TextMap :=
  m.filterKeys fun key => !keys.contains key

/-- The map without one key. -/
def erase (key : String) (m : TextMap) : TextMap :=
  m.filterKeys (· != key)

/-- The set of the keys. -/
def keySet (m : TextMap) : TextSet :=
  TextSet.ofList m.keys

/-- Whether there is no key. -/
def isEmpty (m : TextMap) : Bool :=
  m.bindings.isEmpty

/-- A key is bound if a value is found under it. -/
theorem containsKey_eq_isSome (m : TextMap) (key : String) :
    m.containsKey key = (m.find? key).isSome := by
  rw [Bool.eq_iff_iff, find?, Bindings.isSome_find?, containsKey, keys, List.contains_iff_mem]

@[simp] theorem find?_empty (key : String) : empty.find? key = none :=
  rfl

@[simp] theorem find?_ofList (pairs : List (String × String)) (key : String) :
    (ofList pairs).find? key = Bindings.find? key pairs.reverse := by
  rw [find?, ofList, insertAll, Bindings.find?_insertAll]
  simp [empty, Bindings.find?]

@[simp] theorem find?_override (m n : TextMap) (key : String) :
    (m.override n).find? key = (n.find? key).or (m.find? key) := by
  rw [find?, override, insertAll, Bindings.find?_insertAll, Bindings.find?_reverse n.increasing]
  rfl

@[simp] theorem find?_filterKeys (p : String → Bool) (m : TextMap) (key : String) :
    (m.filterKeys p).find? key = if p key then m.find? key else none :=
  Bindings.find?_filter p (fun i j h => by rw [Std.LawfulEqCmp.eq_of_compare h]) m.bindings key

@[simp] theorem find?_eraseKeys (m : TextMap) (keys : TextSet) (key : String) :
    (m.eraseKeys keys).find? key = if keys.contains key then none else m.find? key := by
  rw [eraseKeys, find?_filterKeys]
  cases keys.contains key <;> simp

@[simp] theorem find?_erase (m : TextMap) (erased key : String) :
    (m.erase erased).find? key = if key = erased then none else m.find? key := by
  rw [erase, find?_filterKeys]
  by_cases h : key = erased <;> simp [h]

@[simp] theorem contains_keySet (m : TextMap) (key : String) :
    m.keySet.contains key = m.containsKey key := by
  rw [keySet, TextSet.contains_ofList, containsKey]

/-- Maps with the same value under every key are equal. -/
theorem eq_of_find? {m n : TextMap} (h : ∀ key, m.find? key = n.find? key) : m = n := by
  have hb : m.bindings = n.bindings := Bindings.eq_of_find? m.increasing n.increasing h
  cases m
  cases n
  simp_all

end TextMap

end WideGraph
