/-!
# Element identifiers

An identifier is one text that joins several parts. A colon separates the parts, and a colon or an
escape inside a part is preceded by the escape character. Reading is total: a redundant escape
gives the character after it, and an escape with nothing behind it stands for itself.

An edge is named by its owner, label, sort values and other end, read for one of the three
directions.
-/

namespace WideGraph

/-- The spliced form of an element's identifier. -/
structure Identifier where
  text : String
deriving DecidableEq, Repr

namespace Identifier

/-- The character between two parts. -/
def separator : Char := ':'

/-- The character that makes the next one literal. -/
def escape : Char := '\x60'

/-- One part with its separators and escapes made literal. -/
def escaped : List Char → List Char
  | [] => []
  | c :: rest =>
    if c = separator ∨ c = escape then escape :: c :: escaped rest else c :: escaped rest

/-- The escaped parts with a separator between any two. -/
def spliceChars : List (List Char) → List Char
  | [] => []
  | [part] => escaped part
  | part :: next :: rest => escaped part ++ separator :: spliceChars (next :: rest)

/-- Put a character in front of the first part. -/
def pushFront (c : Char) : List (List Char) → List (List Char)
  | [] => [[c]]
  | part :: rest => (c :: part) :: rest

/-- The parts of a spliced text, of which there is always at least one. -/
def splitChars : List Char → List (List Char)
  | [] => [[]]
  | c :: rest =>
    if c = separator then [] :: splitChars rest
    else if c = escape then
      match rest with
      | [] => [[escape]]
      | literal :: rest => pushFront literal (splitChars rest)
    else pushFront c (splitChars rest)

/-- The identifier that joins the given parts. -/
def splice (parts : List String) : Identifier :=
  ⟨String.ofList (spliceChars (parts.map String.toList))⟩

/-- The parts that an identifier joins. -/
def split (id : Identifier) : List String :=
  (splitChars id.text.toList).map String.ofList

end Identifier

/-- The direction of an edge as seen from its owner. -/
inductive Direction where
  | outgoing
  | incoming
  | both
deriving DecidableEq, Repr

/-- The name under which a direction is stored. -/
def Direction.name : Direction → String
  | .outgoing => "OUT"
  | .incoming => "IN"
  | .both => "BOTH"

/-- The key parts of an edge identifier. With four parts the direction is put in second place, and
an incoming edge is owned by the other end; any other number of parts is taken as it is. -/
def Identifier.edgeParts (id : Identifier) (direction : Direction) : List String :=
  match id.split with
  | [owner, label, sortValues, other] =>
    match direction with
    | .incoming => [other, direction.name, label, sortValues, owner]
    | _ => [owner, direction.name, label, sortValues, other]
  | parts => parts

end WideGraph
