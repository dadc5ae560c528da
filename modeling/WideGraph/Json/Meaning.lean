import WideGraph.Json.Reader

/-!
# What JSON values mean

Readers from JSON trees into texts, numbers, lists, records and alternatives. A record is an object
in which unknown members are passed over and none is repeated, or the list of its fields in order.
An alternative is the name of one, or an object whose only member names one and holds its content.
What is read may be nested only so deep; the readers of containers take the levels that are left
and hand on one level less.
-/

namespace WideGraph.Json

/-- The most containers that may be open at once. -/
def maxLevels : Nat :=
  127

/-- The text that the body of a string writes. -/
def bodyText? (body : List Char) : Option String :=
  (unescape? body).map String.ofList

/-- The text of a string. -/
def text? : Json → Option String
  | .string body => bodyText? body
  | _ => none

/-- A string with the given text. -/
def ofText (text : String) : Json :=
  .string (escape text.toList)

/-- A numeral for a whole number. -/
def ofInt (n : Int) : Json :=
  .number (toString n).toList

/-- An unsigned word; decimals are refused even when they are whole. -/
def unsigned? : Json → Option UInt64
  | .number numeral =>
    match Json.number? numeral with
    | some (.unsigned n) => some n
    | _ => none
  | _ => none

/-- A signed word; decimals are refused even when they are whole. -/
def signed? : Json → Option Int64
  | .number numeral =>
    match Json.number? numeral with
    | some (.unsigned n) => Text.int64? n.toNat
    | some (.negative n) => some n
    | _ => none
  | _ => none

/-- A decimal, for which a whole number may stand. -/
def decimal? : Json → Option Binary64
  | .number numeral =>
    match Json.number? numeral with
    | some (.unsigned n) => some (.ofInt n.toNat)
    | some (.negative n) => some (.ofInt n.toInt)
    | some (.decimal x) => some x
    | none => none
  | _ => none

/-- Read every item of a list. -/
def mapOption {α β : Type} (f : α → Option β) : List α → Option (List β)
  | [] => some []
  | a :: rest =>
    match f a with
    | none => none
    | some b => (mapOption f rest).map (b :: ·)

/-- The items of an array, read one level further down. -/
def listOf? {α : Type} (item : Nat → Json → Option α) (levels : Nat) : Json → Option (List α)
  | .array items =>
    match levels with
    | 0 => none
    | levels + 1 => mapOption (item levels) items
  | _ => none

/-- The two items of an array of two, read one level further down. -/
def pairOf? {α β : Type} (first : Nat → Json → Option α) (second : Nat → Json → Option β)
    (levels : Nat) : Json → Option (α × β)
  | .array [a, b] =>
    match levels with
    | 0 => none
    | levels + 1 =>
      match first levels a, second levels b with
      | some a, some b => some (a, b)
      | _, _ => none
  | _ => none

/-- The text of an item at any level. -/
def textItem? (_levels : Nat) (json : Json) : Option String :=
  json.text?

/-- The members of an object of texts. -/
def textMembers? (levels : Nat) : Json → Option (List (String × String))
  | .object members =>
    match levels with
    | 0 => none
    | _ + 1 => mapOption
        (fun member =>
          match bodyText? member.1, member.2.text? with
          | some key, some value => some (key, value)
          | _, _ => none)
        members
  | _ => none

/-- Put the value of a known member in its place; a place that is taken is not taken again. -/
def putField (name : String) (value : Json) :
    List (String × Option Json) → Option (List (String × Option Json))
  | [] => some []
  | (field, content) :: rest =>
    if field = name then
      match content with
      | none => some ((field, some value) :: rest)
      | some _ => none
    else (putField name value rest).map ((field, content) :: ·)

/-- Put the members of an object into the places of the fields they name. -/
def putMembers (fields : List (String × Option Json)) :
    List (List Char × Json) → Option (List (String × Option Json))
  | [] => some fields
  | (key, value) :: rest =>
    match bodyText? key with
    | none => none
    | some name =>
      match putField name value fields with
      | none => none
      | some fields => putMembers fields rest

/-- The contents of a record's fields in order, with the levels that are left for them. -/
def fields? (names : List String) (levels : Nat) (json : Json) :
    Option (Nat × List (Option Json)) :=
  match levels, json with
  | levels + 1, .object members =>
    (putMembers (names.map (·, none)) members).map fun fields => (levels, fields.map (·.2))
  | levels + 1, .array items =>
    if items.length ≤ names.length then
      some (levels, items.map some ++ List.replicate (names.length - items.length) none)
    else none
  | _, _ => none

/-- The name of an alternative and its content, if it has one, with the levels that are left. -/
def alternative? (levels : Nat) (json : Json) : Option (String × Option (Nat × Json)) :=
  match levels, json with
  | _, .string body => (bodyText? body).map fun name => (name, none)
  | levels + 1, .object [(key, content)] =>
    (bodyText? key).map fun name => (name, some (levels, content))
  | _, _ => none

/-- The name of an alternative without content; an object may give it a null. -/
def bareAlternative? (levels : Nat) (json : Json) : Option String :=
  match alternative? levels json with
  | some (name, none) => some name
  | some (name, some (_, .null)) => some name
  | _ => none

/-- An alternative without content among the given ones. -/
def oneOf? {α : Type} (name : α → String) (choices : List α) (levels : Nat) (json : Json) :
    Option α :=
  (bareAlternative? levels json).bind fun found => choices.find? fun choice => name choice == found

/-- An object whose only member names an alternative. -/
def tagged (name : String) (content : Json) : Json :=
  .object [(escape name.toList, content)]

/-- An object with the given members. -/
def record (members : List (String × Json)) : Json :=
  .object (members.map fun member => (escape member.1.toList, member.2))

end WideGraph.Json
