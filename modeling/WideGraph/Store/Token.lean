import WideGraph.Value.Written

/-!
# Partition tokens

The token of a partition is the Castagnoli cyclic redundancy check of its key values, repeated in
both halves of a signed word and kept below the largest one, so that every token lies in one of the
half-open ranges of the ring.
-/

namespace WideGraph

/-- One bit of the check, on a word in reflected order. -/
def checkStep (word : UInt32) : UInt32 :=
  if word &&& 1 = 1 then (word >>> 1) ^^^ 0x82F63B78 else word >>> 1

/-- The check word after one more byte. -/
def checkByte (word : UInt32) (byte : UInt8) : UInt32 :=
  (List.range 8).foldl (fun w _ => checkStep w) (word ^^^ byte.toUInt32)

/-- The cyclic redundancy check of some bytes. -/
def checksum (bytes : List UInt8) : UInt32 :=
  bytes.foldl checkByte 0xFFFFFFFF ^^^ 0xFFFFFFFF

/-- The bytes that stand for a partition key: the plain text of each value and a zero byte. -/
def partitionBytes (partition : List Value) : List UInt8 :=
  partition.flatMap fun value => value.plain.toUTF8.toList ++ [0]

/-- The token of a partition. -/
def partitionToken (partition : List Value) : Int64 :=
  let half := (checksum (partitionBytes partition)).toUInt64
  let token := ((half <<< 32) ||| half).toInt64
  if token = Int64.maxValue then token - 1 else token

end WideGraph
