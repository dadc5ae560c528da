import WideGraph.Proofs.Identifier

/-!
# Identifiers of edges

The key of an edge has five parts: owner, direction, label, sort values and other end. Reading an
identifier for a direction completes a key of four parts and leaves one of five parts alone, so that
what has been read once is read the same for every direction afterwards. An incoming edge is read as
the outgoing one that goes the other way; only the direction in its key differs.
-/

namespace WideGraph.Identifier

variable {id : Identifier}

/-- Only four parts are completed to a key. -/
theorem edgeParts_of_length_ne_four (h : id.split.length ≠ 4) (direction : Direction) :
    id.edgeParts direction = id.split := by
  rw [edgeParts]
  split
  · rename_i hfour
    rw [hfour] at h
    exact absurd rfl h
  · rfl

section FourParts

variable {owner label sortValues other : String}
  (hfour : id.split = [owner, label, sortValues, other])

include hfour

/-- Four parts are completed by the direction in second place. -/
theorem edgeParts_of_four {direction : Direction} (h : direction ≠ .incoming) :
    id.edgeParts direction = [owner, direction.name, label, sortValues, other] := by
  rw [edgeParts, hfour]
  cases direction with
  | incoming => exact absurd rfl h
  | outgoing => rfl
  | both => rfl

/-- The owner of an incoming edge is its other end. -/
theorem edgeParts_incoming_of_four :
    id.edgeParts .incoming = [other, Direction.incoming.name, label, sortValues, owner] := by
  rw [edgeParts, hfour]

/-- An incoming edge has the key of the outgoing edge that goes the other way, but for the
direction. -/
theorem edgeParts_turned {turned : Identifier}
    (hturned : turned.split = [other, label, sortValues, owner]) :
    (id.edgeParts .incoming).eraseIdx 1 = (turned.edgeParts .outgoing).eraseIdx 1 := by
  rw [edgeParts_incoming_of_four hfour, edgeParts_of_four hturned (by decide)]
  rfl

end FourParts

/-- An identifier of four parts names an owner, a label, sort values and another end. -/
theorem exists_four_parts (h : id.split.length = 4) :
    ∃ owner label sortValues other, id.split = [owner, label, sortValues, other] :=
  match id.split, h with
  | [owner, label, sortValues, other], _ => ⟨owner, label, sortValues, other, rfl⟩

/-- An identifier of four or five parts is read as a key of five. -/
theorem length_edgeParts (h : id.split.length = 4 ∨ id.split.length = 5) (direction : Direction) :
    (id.edgeParts direction).length = 5 := by
  rcases h with hfour | hfive
  · obtain ⟨owner, label, sortValues, other, hparts⟩ := exists_four_parts hfour
    by_cases hdirection : direction = .incoming
    · rw [hdirection, edgeParts_incoming_of_four hparts]
      rfl
    · rw [edgeParts_of_four hparts hdirection]
      rfl
  · rw [edgeParts_of_length_ne_four (by omega), hfive]

/-- A key of five parts that is joined to an identifier is read back from it for every direction. -/
theorem edgeParts_splice {key : List String} (h : key.length = 5) (direction : Direction) :
    (splice key).edgeParts direction = key := by
  have hsplit : (splice key).split = key := by
    rw [split_splice_eq, if_neg (List.ne_nil_of_length_pos (by omega))]
  rw [edgeParts_of_length_ne_four (by rw [hsplit]; omega), hsplit]

/-- Reading an identifier of an edge projects it onto keys of five parts. Four or five parts are read
as five, and what these are joined to is read as the same five for every direction. Four parts are
completed by the direction, an incoming edge with its ends exchanged, so that it is read as the
outgoing edge between the exchanged ends but for the direction. Five parts, and parts of any number
but four, are read as they are. -/
theorem edgeParts_projects (id : Identifier) (direction again : Direction) :
    (id.split.length = 4 ∨ id.split.length = 5 →
      (id.edgeParts direction).length = 5 ∧
      (splice (id.edgeParts direction)).edgeParts again = id.edgeParts direction) ∧
    (∀ owner label sortValues other, id.split = [owner, label, sortValues, other] →
      (direction ≠ .incoming →
        id.edgeParts direction = [owner, direction.name, label, sortValues, other]) ∧
      id.edgeParts .incoming = [other, Direction.incoming.name, label, sortValues, owner] ∧
      ∀ turned : Identifier, turned.split = [other, label, sortValues, owner] →
        (id.edgeParts .incoming).eraseIdx 1 = (turned.edgeParts .outgoing).eraseIdx 1) ∧
    (id.split.length ≠ 4 → id.edgeParts direction = id.split) := by
  refine ⟨fun h => ?_, fun owner label sortValues other hfour => ?_,
    fun h => edgeParts_of_length_ne_four h direction⟩
  · have hlength := length_edgeParts h direction
    exact ⟨hlength, edgeParts_splice hlength again⟩
  · exact ⟨edgeParts_of_four hfour, edgeParts_incoming_of_four hfour,
      fun _ => edgeParts_turned hfour⟩

/-- An identifier of four parts with a redundant escape, a separator inside its last part and no
sort values. -/
def escapedEnds : Identifier :=
  ⟨"\x60a\x60\x60:knows::1\x60:b"⟩

/-- The edge is read as incoming, its key is joined and read again for both directions, and the edge
between the exchanged ends is read as outgoing. -/
theorem edgeParts_projects_escapedEnds :
    escapedEnds.split = ["a\x60", "knows", "", "1:b"] ∧
    escapedEnds.edgeParts .incoming = ["1:b", "IN", "knows", "", "a\x60"] ∧
    (splice (escapedEnds.edgeParts .incoming)).edgeParts .both = escapedEnds.edgeParts .incoming ∧
    (escapedEnds.edgeParts .incoming).eraseIdx 1 =
      ((splice ["1:b", "knows", "", "a\x60"]).edgeParts .outgoing).eraseIdx 1 := by
  have hsplit : escapedEnds.split = ["a\x60", "knows", "", "1:b"] := by decide +kernel
  have hprojects := edgeParts_projects escapedEnds .incoming .both
  obtain ⟨-, hincoming, hturned⟩ := hprojects.2.1 _ _ _ _ hsplit
  exact ⟨hsplit, hincoming, (hprojects.1 (.inl (by rw [hsplit]; rfl))).2,
    hturned _ (split_splice_cons _ _)⟩

end WideGraph.Identifier
