import LongTermMemory.Text.Words
import Mathlib.Data.List.DropRight

/-!
Trimming: a trimmed text has no blank at either end, so trimming it again leaves it as it is.
-/

namespace LongTermMemory.Text

theorem trimStart_trimStart (cs : List Char) : trimStart (trimStart cs) = trimStart cs :=
  List.dropWhile_idempotent isBlank cs

theorem trimEnd_trimEnd (cs : List Char) : trimEnd (trimEnd cs) = trimEnd cs := by
  simp only [trimEnd, List.reverse_reverse]
  rw [List.dropWhile_idempotent isBlank]

theorem trimEnd_cons (c : Char) (cs : List Char) (h : isBlank c = false) :
    trimEnd (c :: cs) = c :: trimEnd cs := by
  simp only [trimEnd, List.reverse_cons, List.dropWhile_append, List.dropWhile_cons, h]
  cases hd : cs.reverse.dropWhile isBlank <;> simp

theorem trimEnd_concat (cs : List Char) {c : Char} (h : isBlank c = false) :
    trimEnd (cs ++ [c]) = cs ++ [c] := by
  simp [trimEnd, h]

theorem trimEnd_append_blanks (cs : List Char) {bs : List Char} (h : ∀ b ∈ bs, isBlank b = true) :
    trimEnd (cs ++ bs) = trimEnd cs := by
  have hskip : bs.reverse.dropWhile isBlank = [] :=
    List.dropWhile_eq_nil_iff.mpr fun b hb => h b (List.mem_reverse.mp hb)
  simp [trimEnd, List.dropWhile_append, hskip]

/-- Cutting blanks at the end leaves the front alone. -/
theorem trimStart_trimChars (cs : List Char) : trimStart (trimChars cs) = trimChars cs := by
  have hs := trimStart_trimStart cs
  unfold trimChars
  cases ht : trimStart cs with
  | nil => rfl
  | cons c rest =>
    rw [ht] at hs
    have hc : isBlank c = false :=
      Bool.eq_false_iff.mpr (List.dropWhile_eq_self_iff.mp hs (Nat.succ_pos _))
    rw [trimEnd_cons c rest hc]
    simp [trimStart, hc]

@[simp] theorem trimChars_trimChars (cs : List Char) : trimChars (trimChars cs) = trimChars cs := by
  rw [trimChars, trimStart_trimChars, trimChars, trimEnd_trimEnd]

/-- What trimming cuts off at either end is blank. -/
theorem exists_append_trimChars (cs : List Char) : ∃ front back,
    cs = front ++ trimChars cs ++ back ∧ (∀ c ∈ front, isBlank c = true) ∧
      ∀ c ∈ back, isBlank c = true := by
  refine ⟨cs.takeWhile isBlank, (trimStart cs).rtakeWhile isBlank, ?_,
    fun _ => List.mem_takeWhile_imp, fun _ => List.mem_rtakeWhile_imp⟩
  have hend : trimChars cs ++ (trimStart cs).rtakeWhile isBlank = trimStart cs :=
    List.rdropWhile_append_rtakeWhile
  rw [List.append_assoc, hend, trimStart, List.takeWhile_append_dropWhile]

theorem trimChars_append {front back : List Char} (cs : List Char)
    (hfront : ∀ c ∈ front, isBlank c = true) (hback : ∀ c ∈ back, isBlank c = true) :
    trimChars (front ++ cs ++ back) = trimChars cs := by
  have hskip : back.dropWhile isBlank = [] := List.dropWhile_eq_nil_iff.mpr hback
  rw [List.append_assoc, trimChars, trimStart, List.dropWhile_append_of_pos hfront,
    List.dropWhile_append, hskip]
  split
  · next hnil => rw [trimChars, trimStart, List.isEmpty_iff.mp hnil]
  · exact trimEnd_append_blanks _ hback

/-! ## The ends of trimmed texts -/

theorem first_trimChars (cs : List Char) : ∀ c ∈ (trimChars cs).head?, isBlank c = false := by
  intro c hc
  have hstart := trimStart_trimChars cs
  obtain ⟨rest, hcs⟩ := List.head?_eq_some_iff.mp hc
  rw [hcs] at hstart
  exact Bool.eq_false_iff.mpr (List.dropWhile_eq_self_iff.mp hstart (Nat.succ_pos _))

theorem last_trimEnd (cs : List Char) : ∀ c ∈ (trimEnd cs).getLast?, isBlank c = false := by
  intro c hc
  obtain ⟨front, hfront⟩ := List.getLast?_eq_some_iff.mp hc
  have hne : cs.rdropWhile isBlank ≠ [] := by
    rw [show cs.rdropWhile isBlank = front ++ [c] from hfront]
    simp
  have hlast := List.rdropWhile_last_not isBlank cs hne
  rw [List.getLast_congr hne (by simp) hfront, List.getLast_concat] at hlast
  exact Bool.eq_false_iff.mpr hlast

theorem last_trimChars (cs : List Char) : ∀ c ∈ (trimChars cs).getLast?, isBlank c = false :=
  last_trimEnd (trimStart cs)

theorem trimChars_eq_self {cs : List Char} (hfirst : ∀ c ∈ cs.head?, isBlank c = false)
    (hlast : ∀ c ∈ cs.getLast?, isBlank c = false) : trimChars cs = cs := by
  have hstart : trimStart cs = cs := by
    cases cs with
    | nil => rfl
    | cons c rest => exact List.dropWhile_cons_of_neg (by simp [hfirst c rfl])
  rw [trimChars, hstart]
  rcases List.eq_nil_or_concat cs with rfl | ⟨front, c, rfl⟩
  · rfl
  · rw [List.concat_eq_append] at hlast ⊢
    exact trimEnd_concat front (hlast c (by simp))

@[simp] theorem toList_trim (s : String) : (trim s).toList = trimChars s.toList :=
  String.toList_ofList

theorem trimChars_toList {s : String} (h : trim s = s) : trimChars s.toList = s.toList := by
  simpa [trim] using congrArg String.toList h

/-- A trimmed text starts with a character that is not blank, if it has any. -/
theorem exists_first_of_trim {s : String} (h : trim s = s) (hne : s ≠ "") :
    ∃ c rest, s.toList = c :: rest ∧ isBlank c = false := by
  have hfirst := first_trimChars s.toList
  rw [trimChars_toList h] at hfirst
  cases hs : s.toList with
  | nil => exact absurd (String.toList_eq_nil_iff.mp hs) hne
  | cons c rest => exact ⟨c, rest, rfl, hfirst c (by rw [hs]; rfl)⟩

/-- A trimmed text ends with a character that is not blank, if it has any. -/
theorem exists_last_of_trim {s : String} (h : trim s = s) (hne : s ≠ "") :
    ∃ front c, s.toList = front ++ [c] ∧ isBlank c = false := by
  have hlast := last_trimChars s.toList
  rw [trimChars_toList h] at hlast
  rcases List.eq_nil_or_concat s.toList with hnil | ⟨front, c, hconcat⟩
  · exact absurd (String.toList_eq_nil_iff.mp hnil) hne
  · rw [List.concat_eq_append] at hconcat
    exact ⟨front, c, hconcat, hlast c (by rw [hconcat]; exact List.getLast?_concat)⟩

@[simp] theorem trim_trim (s : String) : trim (trim s) = trim s := by
  simp [trim]

@[simp] theorem blank_trim (s : String) : blank (trim s) = blank s := by
  simp [blank]

theorem blank_iff {s : String} : blank s = true ↔ ∀ c ∈ s.toList, isBlank c = true := by
  have hnil : blank s = true ↔ trimChars s.toList = [] := by
    rw [blank, beq_iff_eq, trim, String.ofList_eq_empty_iff]
  rw [hnil, ← List.dropWhile_eq_nil_iff]
  constructor
  · intro h
    have hstart := trimStart_trimStart s.toList
    unfold trimChars at h
    unfold trimStart at h hstart
    cases hs : s.toList.dropWhile isBlank with
    | nil => rfl
    | cons c rest =>
      rw [hs] at h hstart
      have hc : isBlank c = false :=
        Bool.eq_false_iff.mpr (List.dropWhile_eq_self_iff.mp hstart (Nat.succ_pos _))
      rw [trimEnd_cons c rest hc] at h
      cases h
  · intro h
    rw [trimChars, trimStart, h]
    rfl

/-- Blanks around a text are trimmed. -/
theorem trim_append {a b : String} (s : String) (ha : blank a = true) (hb : blank b = true) :
    trim (a ++ s ++ b) = trim s := by
  rw [trim, String.toList_append, String.toList_append,
    trimChars_append _ (blank_iff.mp ha) (blank_iff.mp hb), trim]

theorem not_blank_of_mem {s : String} {c : Char} (hc : c ∈ s.toList) (hblank : isBlank c = false) :
    blank s = false :=
  Bool.eq_false_iff.mpr fun h => by simp [blank_iff.mp h c hc] at hblank

end LongTermMemory.Text
