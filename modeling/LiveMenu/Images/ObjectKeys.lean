import Mathlib.Data.List.TakeWhile
import LiveMenu.Model.Storage

/-!
# Object keys

`generate_object_key` appends what follows the last dot of the file name, and `_upload_one` cuts it
off again. Both cuts are at the same dot, so nothing of the file name is left in the key.
-/

namespace LiveMenu

/-! ### The last dot -/

lemma dot_not_mem_afterLastDot (s : String) : '.' ∉ (afterLastDot s).toList := by
  intro h
  rw [afterLastDot, String.toList_ofList, List.mem_reverse] at h
  simpa using List.mem_takeWhile_imp h

/-- The last dot of the text is the one before an extension without dots. -/
lemma beforeLastDot_append (s : String) {ext : String} (h : '.' ∉ ext.toList) :
    beforeLastDot (s ++ "." ++ ext) = s := by
  have htext : (s ++ "." ++ ext).toList = s.toList ++ '.' :: ext.toList := by simp
  have hext : ∀ c ∈ ext.toList.reverse, decide (c ≠ '.') = true := by
    intro c hc
    rw [decide_eq_true_eq]
    rintro rfl
    exact h (List.mem_reverse.mp hc)
  rw [beforeLastDot, htext, if_pos (by simp), List.reverse_append, List.reverse_cons,
    List.append_assoc, List.dropWhile_append_of_pos hext]
  simp

/-! ### Keys -/

/-- What follows the last dot of a key is what follows the last dot of the file name, if any. -/
lemma exists_generateObjectKey (pre filename : String) (unique : HexId) :
    ∃ ext : String, '.' ∉ ext.toList ∧
      generateObjectKey pre filename unique = pre ++ "/" ++ unique.val ++ "." ++ ext := by
  rw [generateObjectKey]
  split_ifs with hdot
  · exact ⟨afterLastDot filename, dot_not_mem_afterLastDot filename, rfl⟩
  · exact ⟨"webp", by simp, rfl⟩

/-- The key of a variant has a fixed shape, whatever the file name. -/
theorem variantKey_eq (pre name filename : String) (unique : HexId) :
    variantKey pre name filename unique = pre ++ "/" ++ name ++ "/" ++ unique.val ++ ".webp" := by
  obtain ⟨ext, hext, hkey⟩ := exists_generateObjectKey (pre ++ "/" ++ name) filename unique
  rw [variantKey, hkey, beforeLastDot_append _ hext]

/-- An identifier has twelve digits, so the key tells where the name of the variant ends. -/
lemma variantKey_inj {pre name₁ name₂ filename : String} {unique₁ unique₂ : HexId} :
    variantKey pre name₁ filename unique₁ = variantKey pre name₂ filename unique₂ ↔
      name₁ = name₂ ∧ unique₁ = unique₂ := by
  constructor
  · intro h
    have hlength : ∀ unique : HexId, unique.val.toList.length = 12 := by
      intro unique
      rw [String.length_toList, unique.hex.1]
    have hchars := congrArg String.toList h
    simp only [variantKey_eq, String.toList_append, List.append_assoc,
      List.append_cancel_left_eq] at hchars
    obtain ⟨hname, hunique⟩ := List.append_inj' hchars (by simp [hlength])
    simp only [List.append_cancel_left_eq, List.append_cancel_right_eq] at hunique
    cases unique₁
    cases unique₂
    rw [HexId.mk.injEq]
    exact ⟨String.toList_injective hname, String.toList_injective hunique⟩
  · rintro ⟨rfl, rfl⟩
    rfl

end LiveMenu
