import BePyEco.Catalog.Products
import BePyEco.Common.Uuid

/-!
# The texts of combination keys

`_combination_key` sorts the texts of the ids of the values and joins them.  The texts of UUIDs are
ordered as the numbers; a stored key, which is kept as the ids in ascending order, is joined to the
same text (`keyText_combinationKey`), and a text determines the ids (`keyText_inj`).
-/

namespace BePyEco

open Library

/-! ## Keys -/

/-- `":".join(sorted(str(id) for id in ids))`. -/
def joinSorted (ids : List Id) : String :=
  ":".intercalate ((ids.map uuidText).insertionSort (· ≤ ·))

/-- The text of a key in the column. -/
def keyText (key : List Id) : String := ":".intercalate (key.map uuidText)

/-- Sorting the ids is sorting their texts. -/
lemma keyText_insertionSort {ids : List Id} (h : ∀ id ∈ ids, id < uuidBound) :
    keyText (ids.insertionSort (· ≤ ·)) = joinSorted ids := by
  unfold keyText joinSorted
  rw [List.map_insertionSort (· ≤ ·) (· ≤ ·) uuidText ids]
  intro a ha b hb
  exact (uuidText_strictMonoOn.le_iff_le (h a ha) (h b hb)).symm

/-- The key that is stored has the text that `_combination_key` returns. -/
theorem keyText_combinationKey {attributeValues : List AttributeValue}
    (h : ∀ value ∈ attributeValues, value.id < uuidBound) :
    keyText (combinationKey attributeValues) =
      joinSorted (attributeValues.map AttributeValue.id) := by
  refine keyText_insertionSort fun id hid => ?_
  obtain ⟨value, hvalue, rfl⟩ := List.mem_map.1 hid
  exact h value hvalue

/-- The ids can be read back from the text of a key. -/
theorem keyText_inj {key key' : List Id} (hkey : ∀ id ∈ key, id < uuidBound)
    (hkey' : ∀ id ∈ key', id < uuidBound) (h : keyText key = keyText key') : key = key' := by
  have hlists : ∀ ids : List Id,
      ∀ text ∈ (ids.map uuidText).map String.toList, text ≠ [] ∧ ':' ∉ text := by
    intro ids text htext
    simp only [List.map_map, List.mem_map, Function.comp_apply] at htext
    obtain ⟨id, -, rfl⟩ := htext
    refine ⟨fun hnil => ?_, colon_not_mem_uuidText id⟩
    have hlength := length_toList_uuidText id
    rw [hnil] at hlength
    cases hlength
  have htexts := congrArg String.toList h
  simp only [keyText, String.toList_intercalate] at htexts
  have hmap := intercalate_inj (hlists key) (hlists key') htexts
  have hmap' : key.map uuidText = key'.map uuidText :=
    List.map_injective_iff.2 (fun _ _ => String.toList_inj.1) hmap
  exact eq_of_map_eq uuidText_strictMonoOn.injOn hkey hkey' hmap'

/-- The text of a key is as long as its column counts it. -/
lemma length_keyText (key : List Id) : (keyText key).length = Variant.keyLength key := by
  have hlengths : ∀ text ∈ (key.map uuidText).map String.toList, text.length = 36 := by
    intro text htext
    simp only [List.map_map, List.mem_map, Function.comp_apply] at htext
    obtain ⟨id, -, rfl⟩ := htext
    exact length_toList_uuidText id
  have hlength := @length_intercalate _ ':' 36 _ hlengths
  simp only [List.length_map] at hlength
  rw [← String.length_toList, keyText, String.toList_intercalate]
  exact hlength

/-- The key without ids is the empty text. -/
lemma keyText_eq_empty_iff {key : List Id} : keyText key = "" ↔ key = [] := by
  constructor
  · intro h
    have hlength := length_keyText key
    rw [h] at hlength
    have hzero : key.length = 0 := by
      simp only [Variant.keyLength, String.length_empty] at hlength
      omega
    exact List.length_eq_zero_iff.1 hzero
  · intro h
    rw [h]
    rfl

end BePyEco
