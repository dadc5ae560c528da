/-!
# JSON texts

A JSON text as a tree. Numerals and the bodies of strings are kept as they are written, so that
what they mean, and whether they mean anything, is decided by whoever reads them; a member that
nobody reads only has to be well formed.
-/

namespace WideGraph

/-- A JSON value with its numerals and string bodies as written. -/
inductive Json where
  | null
  | bool (b : Bool)
  | number (numeral : List Char)
  | string (body : List Char)
  | array (items : List Json)
  | object (members : List (List Char × Json))
deriving Inhabited

namespace Json

/-- The body of a string between its quotes. -/
def quotedBody (body : List Char) : List Char :=
  '"' :: body ++ ['"']

mutual

/-- The text of a JSON value without blanks. -/
def write : Json → List Char
  | .null => "null".toList
  | .bool true => "true".toList
  | .bool false => "false".toList
  | .number numeral => numeral
  | .string body => quotedBody body
  | .array [] => ['[', ']']
  | .array (item :: rest) => '[' :: write item ++ writeItems rest
  | .object [] => ['{', '}']
  | .object ((key, value) :: rest) => '{' :: quotedBody key ++ ':' :: write value ++ writeMembers rest

/-- The text of the items behind the first one, and of the closing bracket. -/
def writeItems : List Json → List Char
  | [] => [']']
  | item :: rest => ',' :: write item ++ writeItems rest

/-- The text of the members behind the first one, and of the closing brace. -/
def writeMembers : List (List Char × Json) → List Char
  | [] => ['}']
  | (key, value) :: rest => ',' :: quotedBody key ++ ':' :: write value ++ writeMembers rest

end

end Json

end WideGraph
