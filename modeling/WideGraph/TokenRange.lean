import WideGraph.BackendError

/-!
# Ranges of the token ring

Every partition has a token, a signed 64-bit word below the largest one. The ring of tokens is cut
into half-open ranges of one width, of which the last takes what the division leaves over, so that
each range holds about one split's share of a table.
-/

namespace WideGraph

/-- The tokens from `start` up to but not including `stop`, and the bytes they are held to cover. -/
structure TokenRange where
  start : String
  stop : String
  length : Nat
deriving DecidableEq, Repr

namespace TokenRange

/-- The smallest token. -/
def minToken : Int :=
  Int64.minValue.toInt

/-- The end of the ring, above every token. -/
def maxToken : Int :=
  Int64.maxValue.toInt

/-- The most ranges that the ring is cut into. -/
def maxCount : Nat :=
  0x10000

/-- The condition that a row's token lies in the range. -/
def condition (range : TokenRange) : Condition :=
  .scan range.start range.stop

/-- How many splits of a size cover this many bytes, at least one. -/
def splitCount (bytes size : Nat) : Nat :=
  max 1 ((bytes + size - 1) / size)

/-- The width of every range but the last. -/
def width (count : Nat) : Int :=
  (maxToken - minToken) / count

/-- Where the range at a position starts. -/
def startOf (count position : Nat) : Int :=
  minToken + position * width count

/-- Where the range at a position ends. -/
def stopOf (count position : Nat) : Int :=
  if position + 1 = count then maxToken else startOf count position + width count

/-- The ring cut into ranges that cover about `size` of `bytes` bytes each. -/
def split (bytes size : Nat) : Except BackendError (List TokenRange) :=
  if size = 0 then .error (.invalidArgument .splitSizeZero)
  else
    let count := splitCount bytes size
    if maxCount < count then .error (.invalidArgument (.tooManySplits size bytes count maxCount))
    else
      .ok ((List.range count).map fun position =>
        ⟨toString (startOf count position), toString (stopOf count position), bytes / count⟩)

end TokenRange

end WideGraph
