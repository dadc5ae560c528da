import WideGraph.Text.Blank

/-!
# Whole numbers in text

Readers of decimal numerals: a signed literal that has to fit a 64-bit word, and an unsigned one
that names what is wrong with it. Only ASCII digits count as digits.
-/

namespace WideGraph.Text

/-- The value of a decimal digit. -/
def digitValue (c : Char) : Nat :=
  c.toNat - '0'.toNat

/-- The number that a run of digits continues, reading from the left. -/
def numeralFrom (value : Nat) : List Char → Nat
  | [] => value
  | c :: rest => numeralFrom (10 * value + digitValue c) rest

/-- The number written by a non-empty run of digits. -/
def natural? (cs : List Char) : Option Nat :=
  if cs ≠ [] ∧ cs.all Char.isDigit then some (numeralFrom 0 cs) else none

/-- The number written by an optional sign and a non-empty run of digits. -/
def integer? : List Char → Option Int
  | '-' :: rest => (natural? rest).map fun n => -(n : Int)
  | '+' :: rest => (natural? rest).map fun n => (n : Int)
  | cs => (natural? cs).map fun n => (n : Int)

/-- A number as a signed 64-bit word, if it fits. -/
def int64? (n : Int) : Option Int64 :=
  if Int64.minValue.toInt ≤ n ∧ n ≤ Int64.maxValue.toInt then some (Int64.ofInt n) else none

/-- The signed 64-bit word that a literal writes, with blanks around it allowed. -/
def wordLiteral? (s : String) : Option Int64 :=
  (integer? (trim s.toList)).bind int64?

/-- What keeps a text from being an unsigned 64-bit numeral. -/
inductive NumeralFault where
  | empty
  | invalidDigit
  | tooLarge
deriving DecidableEq, Repr

/-- The wording of a fault. -/
def NumeralFault.message : NumeralFault → String
  | .empty => "cannot parse integer from empty string"
  | .invalidDigit => "invalid digit found in string"
  | .tooLarge => "number too large to fit in target type"

/-- Reads the digits left to right; the first character that is no digit or makes the number too
large decides the fault. -/
def unsignedFrom (value : Nat) : List Char → Except NumeralFault Nat
  | [] => .ok value
  | c :: rest =>
    if !c.isDigit then .error .invalidDigit
    else if UInt64.size ≤ 10 * value + digitValue c then .error .tooLarge
    else unsignedFrom (10 * value + digitValue c) rest

/-- The unsigned 64-bit word that a text writes; one leading plus sign is allowed. -/
def unsigned (s : String) : Except NumeralFault UInt64 :=
  match s.toList with
  | [] => .error .empty
  | ['+'] => .error .invalidDigit
  | '+' :: digits => (unsignedFrom 0 digits).map UInt64.ofNat
  | digits => (unsignedFrom 0 digits).map UInt64.ofNat

end WideGraph.Text
