import WideGraph.Value.Basic

/-!
# The text of a value

A value has two written forms. The tagged form names its kind and quotes every text; it is used in
messages and for collections. The plain form is what takes part in keys and sets of text: a text is
itself, a number is its digits, and a collection falls back on the tagged form.
-/

namespace WideGraph.Value

/-- Decimals in tagged form keep their point and use a power of ten below 0.0001 and from 10^16. -/
def taggedLayout : DecimalLayout :=
  ⟨some (-3), some 16, true, false, .upward⟩

/-- Decimals in plain form are always positional and whole ones have no point. -/
def plainLayout : DecimalLayout :=
  ⟨none, none, false, false, .upward⟩

/-- Texts with a comma between any two. -/
def commaSeparated (items : List String) : String :=
  ", ".intercalate items

/-- Quoted texts in braces. -/
def quotedSet (s : TextSet) : String :=
  "\x7b" ++ commaSeparated (s.toList.map Text.quoted) ++ "\x7d"

/-- Quoted pairs in braces. -/
def quotedMap (m : TextMap) : String :=
  "\x7b" ++ commaSeparated (m.bindings.map fun b => Text.quoted b.1 ++ ": " ++ Text.quoted b.2) ++
    "\x7d"

mutual

/-- The tagged form of a value. -/
def tagged : Value → String
  | .null => "Null"
  | .text t => "Text(" ++ Text.quoted t ++ ")"
  | .bigint n => "BigInt(" ++ toString n.toInt ++ ")"
  | .decimal x => "Decimal(" ++ taggedLayout.write x ++ ")"
  | .set s => "Set(" ++ quotedSet s ++ ")"
  | .map m => "Map(" ++ quotedMap m ++ ")"
  | .list items => "List([" ++ commaSeparated (taggedItems items) ++ "])"

/-- The tagged forms of several values. -/
def taggedItems : List Value → List String
  | [] => []
  | item :: rest => tagged item :: taggedItems rest

end

/-- The tagged form of a list of values, in brackets. -/
def taggedList (items : List Value) : String :=
  "[" ++ commaSeparated (taggedItems items) ++ "]"

/-- The plain form of a value. -/
def plain : Value → String
  | .null => "null"
  | .text t => t
  | .bigint n => toString n.toInt
  | .decimal x => plainLayout.write x
  | value => value.tagged

end WideGraph.Value
