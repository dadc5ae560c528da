/-!
# Letter case of ASCII names

Column names are stored in upper case, returned in lower case and looked up in either. Only the
26 ASCII letters have a case here; every other character stands for itself.
-/

namespace WideGraph.Text

/-- The text with its ASCII letters in upper case. -/
def upper (s : String) : String :=
  String.ofList (s.toList.map Char.toUpper)

/-- The text with its ASCII letters in lower case. -/
def lower (s : String) : String :=
  String.ofList (s.toList.map Char.toLower)

/-- The words of an underscored name run together, each with a capital letter; `start` says that the
next character starts a word. -/
def capitalWords (start : Bool) : List Char → List Char
  | [] => []
  | c :: rest =>
    if c = '_' then capitalWords true rest
    else (if start then c.toUpper else c.toLower) :: capitalWords false rest

/-- An underscored name as one capitalised word. -/
def camelCase (s : String) : String :=
  String.ofList (capitalWords true s.toList)

/-- Whether two texts are equal up to the case of ASCII letters. -/
def sameIgnoringCase (s t : String) : Bool :=
  upper s == upper t

@[simp] theorem toList_upper (s : String) : (upper s).toList = s.toList.map Char.toUpper := by
  simp [upper]

@[simp] theorem toList_lower (s : String) : (lower s).toList = s.toList.map Char.toLower := by
  simp [lower]

end WideGraph.Text
