import Mathlib.Data.List.DropRight
import Mathlib.Tactic.Common
import ClasspathAudit.Artifact.Packaging

/-
# Labels

The name of a packaging type is the name it was called by, in lower case and without blanks around
it. To be called by that name changes nothing more, so a type that has a name at all is the one that
its name calls for. Scopes are known by their labels.
-/
namespace ClasspathAudit

/-! ### Trimming and lower case -/

namespace Text

lemma trimmed_eq (text : List Char) :
    trimmed text = (text.dropWhile isBlank).rdropWhile isBlank := rfl

lemma dropWhile_trimmed (text : List Char) :
    (trimmed text).dropWhile isBlank = trimmed text := by
  rw [List.dropWhile_eq_self_iff]
  intro hpos
  -- what is left starts with what the whole text starts with behind its blanks
  obtain ⟨tail, htail⟩ := List.rdropWhile_prefix isBlank (text.dropWhile isBlank)
  rw [← trimmed_eq] at htail
  have hlong : 0 < (text.dropWhile isBlank).length := by
    rw [← htail, List.length_append]
    omega
  have hhead : (trimmed text)[0] = (text.dropWhile isBlank)[0] := by
    simp only [← htail, List.getElem_append_left hpos]
  rw [hhead]
  exact List.dropWhile_eq_self_iff.1 (List.dropWhile_idempotent isBlank text) hlong

lemma trimmed_trimmed (text : List Char) : trimmed (trimmed text) = trimmed text := by
  rw [trimmed_eq, dropWhile_trimmed, trimmed_eq, List.rdropWhile_idempotent]

lemma toNat_toLower (c : Char) : c.toLower.toNat =
    if 65 ≤ c.toNat ∧ c.toNat ≤ 90 then c.toNat + 32 else c.toNat := by
  have hge : c.val ≥ 'A'.val ↔ 65 ≤ c.toNat := UInt32.le_iff_toNat_le
  have hle : c.val ≤ 'Z'.val ↔ c.toNat ≤ 90 := UInt32.le_iff_toNat_le
  unfold Char.toLower
  split
  · rename_i h
    rw [hge, hle] at h
    have hsum : (c.val + ('a'.val - 'A'.val)).toNat = c.toNat + 32 := by
      rw [UInt32.toNat_add]
      show (c.toNat + 32) % 2 ^ 32 = c.toNat + 32
      omega
    rw [if_pos h]
    exact hsum
  · rename_i h
    rw [hge, hle] at h
    rw [if_neg h]

lemma isBlank_toLower (c : Char) : isBlank c.toLower = isBlank c := by
  have h := toNat_toLower c
  split at h
  · rename_i hupper
    have hlower : isBlank c.toLower = false := by
      simp [isBlank, h]
      omega
    have hself : isBlank c = false := by
      simp [isBlank]
      omega
    rw [hlower, hself]
  · rw [isBlank, h, isBlank]

lemma toLower_toLower (c : Char) : c.toLower.toLower = c.toLower := by
  have h := toNat_toLower c
  have h' := toNat_toLower c.toLower
  apply Char.toNat_inj.1
  split at h <;> split at h' <;> omega

lemma trimmed_map_toLower (text : List Char) :
    trimmed (text.map Char.toLower) = (trimmed text).map Char.toLower := by
  have hblank : isBlank ∘ Char.toLower = isBlank := funext isBlank_toLower
  rw [trimmed, List.dropWhile_map, hblank, ← List.map_reverse, List.dropWhile_map, hblank,
    ← List.map_reverse]
  rfl

/-- A name is in its normal form once it has been brought there. -/
lemma lowerAscii_trim (text : String) :
    lowerAscii (trim (lowerAscii (trim text))) = lowerAscii (trim text) := by
  apply String.toList_inj.1
  have hmap : Char.toLower ∘ Char.toLower = Char.toLower := funext toLower_toLower
  simp only [lowerAscii, trim, String.toList_map, String.toList_ofList, trimmed_map_toLower,
    trimmed_trimmed, List.map_map, hmap]

end Text

/-! ### Types and scopes by their labels -/

namespace Packaging

lemma label_ofText (name : String) : (ofText name).label = Text.lowerAscii (Text.trim name) := by
  rw [ofText]
  split <;> rename_i h
  · exact h.symm
  · exact h.symm
  · exact h.symm
  · exact h.symm
  · exact h.symm
  · rfl

/-- A type that a name calls for is the one that its label calls for. -/
lemma ofText_label_ofText (name : String) : ofText (ofText name).label = ofText name := by
  rw [label_ofText, ofText, Text.lowerAscii_trim, ofText]

end Packaging

namespace Scope

lemma ofLabel?_label (s : Scope) : ofLabel? s.label = some s := by
  cases s <;> decide

end Scope
end ClasspathAudit
