import WideGraph.Json.Meaning
import WideGraph.Row
import WideGraph.Value.Written

/-!
# Values and rows as JSON

A value is an alternative named for its kind. Decimals are written with the fewest digits that read
back to them, and one that is no real number is written as null, which no decimal is read from.
-/

namespace WideGraph.Exchange

/-- Decimals keep their point and use a power of ten, with its sign, below 0.00001 and from 10^16. -/
def decimalLayout : DecimalLayout :=
  ⟨some (-4), some 16, true, true, .toEven⟩

/-- A decimal as JSON. -/
def ofDecimal (x : Binary64) : Json :=
  if x.isFinite then .number (decimalLayout.write x).toList else .null

mutual

/-- A value as JSON. -/
def ofValue : Value → Json
  | .null => .ofText "Null"
  | .text t => .tagged "Text" (.ofText t)
  | .bigint n => .tagged "BigInt" (.ofInt n.toInt)
  | .decimal x => .tagged "Decimal" (ofDecimal x)
  | .set s => .tagged "Set" (.array (s.toList.map Json.ofText))
  | .map m => .tagged "Map" (.record (m.bindings.map fun b => (b.1, Json.ofText b.2)))
  | .list items => .tagged "List" (.array (ofValues items))

/-- Several values as JSON. -/
def ofValues : List Value → List Json
  | [] => []
  | item :: rest => ofValue item :: ofValues rest

end

/-- The value of a kind that holds no further values. -/
def plainValue? (kind : String) (levels : Nat) (content : Json) : Option Value :=
  match kind with
  | "Null" => match content with
    | .null => some .null
    | _ => none
  | "Text" => content.text?.map .text
  | "BigInt" => content.signed?.map .bigint
  | "Decimal" => content.decimal?.map .decimal
  | "Set" => (Json.listOf? Json.textItem? levels content).map fun ts => .set (.ofList ts)
  | "Map" => (Json.textMembers? levels content).map fun pairs => .map (.ofList pairs)
  | _ => none

/-- The value that a JSON value stands for. A list takes two levels, one for the alternative and one
for its items. -/
def value? : Nat → Json → Option Value
  | 0, json =>
    match Json.alternative? 0 json with
    | some ("Null", none) => some .null
    | _ => none
  | levels + 1, json =>
    match Json.alternative? (levels + 1) json with
    | some ("Null", none) => some .null
    | some ("List", some (_, .array items)) =>
      match levels with
      | 0 => none
      | levels + 1 => (Json.mapOption (value? levels) items).map .list
    | some (kind, some (levels, content)) => plainValue? kind levels content
    | _ => none

/-- A row as JSON. -/
def ofRow (row : Row) : Json :=
  .record [("columns", .array (row.columns.map fun column =>
    .array [.ofText column.1, ofValue column.2]))]

/-- The row that a JSON value stands for. -/
def row? (levels : Nat) (json : Json) : Option Row :=
  match Json.fields? ["columns"] levels json with
  | some (levels, [some columns]) =>
    (Json.listOf? (Json.pairOf? Json.textItem? value?) levels columns).map Row.mk
  | _ => none

end WideGraph.Exchange
