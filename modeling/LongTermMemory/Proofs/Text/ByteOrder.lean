import Mathlib.Tactic.ByContra

/-!
The order of texts: characters go as their bytes in UTF-8 go, so that a text is less than another
just when its bytes are.
-/

namespace LongTermMemory.Text

/-- A text in UTF-8. -/
def bytes (s : String) : List UInt8 := s.toUTF8.data.toList

theorem bytes_eq_flatMap (s : String) : bytes s = s.toList.flatMap String.utf8EncodeChar := by
  have hbytes : s.toByteArray = s.toList.utf8Encode := by
    rw [← String.toByteArray_ofList, String.ofList_toList]
  rw [bytes, String.toUTF8_eq_toByteArray, hbytes, List.utf8Encode, List.toList_data_toByteArray]

/-- The bytes of a character come before those of a greater one whatever follows. -/
theorem utf8EncodeChar_append_lt {a b : Char} (h : a < b) (after after' : List UInt8) :
    String.utf8EncodeChar a ++ after < String.utf8EncodeChar b ++ after' := by
  have hcode : a.val.toNat < b.val.toNat := h
  have hlimit : b.val.toNat < 0x110000 := b.valid.elim (by omega) And.right
  -- The first byte tells how many there are, and later ones the code point in base 64.
  unfold String.utf8EncodeChar
  dsimp only
  generalize a.val.toNat = m at hcode
  generalize b.val.toNat = n at hcode hlimit
  repeat' split
  all_goals
    simp (disch := omega) only [List.cons_append, List.nil_append, List.cons_lt_cons_iff,
      UInt8.lt_iff_toNat_lt, ← UInt8.toNat_inj, UInt8.toNat_ofNat', Nat.mod_eq_of_lt]
    omega

theorem flatMap_utf8EncodeChar_lt {cs ds : List Char} (h : cs < ds) :
    cs.flatMap String.utf8EncodeChar < ds.flatMap String.utf8EncodeChar := by
  induction cs generalizing ds with
  | nil =>
    cases ds with
    | nil => exact absurd h (List.lt_irrefl _)
    | cons d ds =>
      rw [List.flatMap_nil, List.flatMap_cons]
      obtain ⟨b, bs, hd⟩ := List.exists_cons_of_ne_nil (String.utf8EncodeChar_ne_nil (c := d))
      rw [hd]
      exact List.nil_lt_cons _ _
  | cons c cs ih =>
    cases ds with
    | nil => cases h
    | cons d ds =>
      rw [List.flatMap_cons, List.flatMap_cons]
      rcases List.cons_lt_cons_iff.mp h with hlt | ⟨rfl, hrest⟩
      · exact utf8EncodeChar_append_lt hlt _ _
      · exact List.append_left_lt (ih hrest)

theorem bytes_lt_bytes {s t : String} : bytes s < bytes t ↔ s < t := by
  rw [bytes_eq_flatMap, bytes_eq_flatMap, String.lt_iff]
  refine ⟨fun h => ?_, flatMap_utf8EncodeChar_lt⟩
  by_contra hge
  rcases List.le_iff_lt_or_eq.mp (List.not_lt.mp hge) with hgt | heq
  · exact List.lt_asymm h (flatMap_utf8EncodeChar_lt hgt)
  · rw [heq] at h
    exact List.lt_irrefl _ h

end LongTermMemory.Text
