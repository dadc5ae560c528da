import Mathlib.Data.List.Forall2
import WideGraph.Text.LetterCase

/-!
# Texts in another letter case

Each letter of a text can be put in upper or in lower case, whatever happens to the others. Two
texts are the same in upper case exactly if one is the other with its letters put so.
-/

namespace WideGraph.Text

/-- The code of a small letter goes down by 32 in upper case. -/
theorem toNat_toUpper (c : Char) :
    c.toUpper.toNat = if 97 ≤ c.toNat ∧ c.toNat ≤ 122 then c.toNat - 32 else c.toNat := by
  have hlow : 'a'.val ≤ c.val ↔ 97 ≤ c.toNat := UInt32.le_iff_toNat_le
  have hhigh : c.val ≤ 'z'.val ↔ c.toNat ≤ 122 := UInt32.le_iff_toNat_le
  unfold Char.toUpper
  split
  · rename_i h
    have hsmall := h.imp hlow.mp hhigh.mp
    rw [if_pos hsmall]
    simp
    omega
  · rename_i h
    rw [if_neg fun hsmall => h (hsmall.imp hlow.mpr hhigh.mpr)]

/-- The code of a capital letter goes up by 32 in lower case. -/
theorem toNat_toLower (c : Char) :
    c.toLower.toNat = if 65 ≤ c.toNat ∧ c.toNat ≤ 90 then c.toNat + 32 else c.toNat := by
  have hlow : 'A'.val ≤ c.val ↔ 65 ≤ c.toNat := UInt32.le_iff_toNat_le
  have hhigh : c.val ≤ 'Z'.val ↔ c.toNat ≤ 90 := UInt32.le_iff_toNat_le
  unfold Char.toLower
  split
  · rename_i h
    have hcapital := h.imp hlow.mp hhigh.mp
    rw [if_pos hcapital]
    simp
    omega
  · rename_i h
    rw [if_neg fun hcapital => h (hcapital.imp hlow.mpr hhigh.mpr)]

/-- Two characters are the same in upper case if one is the other in upper or in lower case. -/
theorem toUpper_eq_toUpper_iff {c d : Char} :
    c.toUpper = d.toUpper ↔ d = c.toUpper ∨ d = c.toLower := by
  simp only [← Char.toNat_inj, toNat_toUpper, toNat_toLower]
  split <;> split <;> split <;> omega

/-- A text is another one with each of its letters put in upper or in lower case. -/
def Recased (s t : String) : Prop :=
  List.Forall₂ (fun c d => d = c.toUpper ∨ d = c.toLower) s.toList t.toList

/-- A text is another one with its letters in some case if the two are the same in upper case. -/
theorem recased_iff {s t : String} : Recased s t ↔ upper s = upper t := by
  rw [← String.toList_inj, toList_upper, toList_upper, ← List.forall₂_eq_eq_eq,
    List.forall₂_map_left_iff, List.forall₂_map_right_iff]
  simp only [Recased, toUpper_eq_toUpper_iff]

instance (s t : String) : Decidable (Recased s t) :=
  decidable_of_iff _ recased_iff.symm

/-- The text in lower case is the text with its letters in some case. -/
theorem recased_lower (s : String) : Recased s (lower s) := by
  rw [Recased, toList_lower, List.forall₂_map_right_iff, List.forall₂_same]
  exact fun _ _ => .inr rfl

end WideGraph.Text
