import LongTermMemory.Proofs.ContextBlock.Ends
import LongTermMemory.Proofs.Text.Trim

/-!
The layout of a rendered block: what stands before a section, where its items begin, and where a
cut is taken back to.
-/

namespace LongTermMemory.ContextBlock

open LongTermMemory.Text (isBlank trimEnd)

/-- What stands before the section that follows some sections. -/
def opening (before : List Section) : List Char := before.flatMap fun s => s.text ++ separator

/-- A section that says something: items that are trimmed and not empty, under a heading that ends
no sentence. -/
structure Section.Proper (s : Section) : Prop where
  heading : s.heading.toList.any closesSentence = false
  nonempty : s.items ≠ []
  items : ∀ item ∈ s.items, item ≠ "" ∧ Text.trim item = item

/-- The position lies in what a section has before its first item. -/
def InLead (ss : List Section) (k : Nat) (before : List Section) : Prop :=
  ∃ s after, ss = before ++ s :: after ∧ (opening before).length < k ∧
    k ≤ (opening before).length + s.lead.length

/-! ## Rendering -/

theorem intercalate_concat {α : Type} (sep : List α) (front : List (List α)) (last : List α) :
    ∃ before, sep.intercalate (front ++ [last]) = before ++ last := by
  induction front with
  | nil => exact ⟨[], by simp⟩
  | cons a rest ih =>
    obtain ⟨before, hbefore⟩ := ih
    have hne : rest ++ [last] ≠ [] := by simp
    obtain ⟨b, tail, htail⟩ := List.exists_cons_of_ne_nil hne
    refine ⟨a ++ sep ++ before, ?_⟩
    rw [List.cons_append, htail, List.intercalate_cons_cons, ← htail, hbefore]
    simp only [List.append_assoc]

theorem render_cons (s : Section) {ss : List Section} (h : ss ≠ []) :
    render (s :: ss) = s.text ++ separator ++ render ss := by
  obtain ⟨t, rest, rfl⟩ := List.exists_cons_of_ne_nil h
  exact List.intercalate_cons_cons

/-- The text from a section on. -/
theorem render_append (before : List Section) (s : Section) (after : List Section) :
    render (before ++ s :: after) = opening before ++ render (s :: after) := by
  induction before with
  | nil => rfl
  | cons t before ih =>
    rw [List.cons_append, render_cons t (by simp), ih]
    simp [opening]

theorem exists_render_cons (s : Section) (after : List Section) :
    ∃ rest, render (s :: after) = s.text ++ rest := by
  cases after with
  | nil => exact ⟨[], by simp [render]⟩
  | cons t after => exact ⟨_, by rw [render_cons s (by simp), List.append_assoc]⟩

/-- Before a section stand the sections before it and a blank line. -/
theorem opening_eq {before : List Section} (h : before ≠ []) :
    opening before = render before ++ separator := by
  induction before with
  | nil => exact absurd rfl h
  | cons s before ih =>
    by_cases hne : before = []
    · simp [opening, render, hne]
    · rw [render_cons s hne, List.append_assoc, ← ih hne]
      rfl

namespace Section.Proper

variable {s : Section} (h : s.Proper)
include h

/-- The text of a section goes on after its lead and ends with a word. -/
theorem text_eq : ∃ front c, s.text = s.lead ++ front ++ [c] ∧ isBlank c = false := by
  obtain ⟨items, item, hconcat⟩ := List.eq_nil_or_concat s.items |>.resolve_left h.nonempty
  rw [List.concat_eq_append] at hconcat
  obtain ⟨hne, htrim⟩ := h.items item (by simp [hconcat])
  obtain ⟨front, c, hitem, hc⟩ := Text.exists_last_of_trim htrim hne
  obtain ⟨before, hbefore⟩ :=
    intercalate_concat "; ".toList (items.map String.toList) item.toList
  refine ⟨before ++ front, c, ?_, hc⟩
  rw [Section.text, String.toList_intercalate, hconcat, List.map_append, List.map_singleton,
    hbefore, hitem]
  simp

theorem lead_lt_text : s.lead.length < s.text.length := by
  obtain ⟨front, c, htext, -⟩ := h.text_eq
  rw [htext]
  simp only [List.length_append, List.length_singleton]
  omega

theorem not_closesSentence : s.lead.any closesSentence = false := by
  have hopens : "**".toList.any closesSentence = false := by decide
  have hcloses : ":** ".toList.any closesSentence = false := by decide
  rw [Section.lead, List.any_append, List.any_append, hopens, h.heading, hcloses]
  rfl

end Section.Proper

/-- A rendered block ends with a word. -/
theorem render_eq {ss : List Section} (h : ∀ s ∈ ss, s.Proper) (hne : ss ≠ []) :
    ∃ front c, render ss = front ++ [c] ∧ isBlank c = false := by
  obtain ⟨before, s, hconcat⟩ := List.eq_nil_or_concat ss |>.resolve_left hne
  rw [List.concat_eq_append] at hconcat
  obtain ⟨front, c, htext, hc⟩ := (h s (by simp [hconcat])).text_eq
  refine ⟨opening before ++ s.lead ++ front, c, ?_, hc⟩
  have hone : render [s] = s.text := by simp [render]
  rw [hconcat, render_append, hone, htext]
  simp

/-! ## Taking back a cut -/

theorem spansFrom_concat (start : Nat) (ss : List Section) (s : Section) :
    spansFrom start (ss ++ [s]) =
      spansFrom start ss ++ [(start + (opening ss).length, s.lead.length)] := by
  induction ss generalizing start with
  | nil => simp [spansFrom, opening]
  | cons t ss ih =>
    simp only [List.cons_append, spansFrom, ih, opening, List.flatMap_cons, List.length_append]
    congr 4
    omega

theorem withoutBareLead_concat (cut : Nat) (ss : List Section) (s : Section) :
    withoutBareLead cut (spansFrom 0 (ss ++ [s])).reverse =
      if cut ≤ (opening ss).length then withoutBareLead cut (spansFrom 0 ss).reverse
      else if cut ≤ (opening ss).length + s.lead.length then
        withoutBareLead (opening ss).length (spansFrom 0 ss).reverse
      else cut := by
  rw [spansFrom_concat, List.reverse_append, List.reverse_singleton, Nat.zero_add]
  rfl

/-- A cut in no lead stays where it is. -/
theorem withoutBareLead_of_not_inLead {ss : List Section} {k : Nat}
    (h : ∀ before, ¬ InLead ss k before) : withoutBareLead k (spansFrom 0 ss).reverse = k := by
  induction ss using List.reverseRecOn with
  | nil => rfl
  | append_singleton ss s ih =>
    rw [withoutBareLead_concat]
    split
    · refine ih fun before hin => h before ?_
      obtain ⟨t, after, rfl, hin⟩ := hin
      exact ⟨t, after ++ [s], by simp, hin⟩
    · next hstart =>
      rw [if_neg]
      exact fun hlead => h ss ⟨s, [], rfl, Nat.lt_of_not_le hstart, hlead⟩

/-- The start of a section is in the lead of none. -/
theorem not_inLead_opening {ss : List Section} (h : ∀ s ∈ ss, s.Proper) (before : List Section) :
    ¬ InLead ss (opening ss).length before := by
  rintro ⟨s, after, rfl, -, hle⟩
  have hlt := (h s (by simp)).lead_lt_text
  simp only [opening, List.flatMap_append, List.flatMap_cons, List.length_append] at hle
  omega

/-- A cut in the lead of a section is taken back to its start. -/
theorem withoutBareLead_of_inLead {ss before : List Section} {k : Nat} (h : ∀ s ∈ ss, s.Proper)
    (hin : InLead ss k before) :
    withoutBareLead k (spansFrom 0 ss).reverse = (opening before).length := by
  obtain ⟨s, after, rfl, hstart, hlead⟩ := hin
  have hbefore : ∀ s ∈ before, s.Proper := fun t ht => h t (by simp [ht])
  induction after using List.reverseRecOn with
  | nil =>
    rw [withoutBareLead_concat, if_neg (Nat.not_le.mpr hstart), if_pos hlead]
    exact withoutBareLead_of_not_inLead (not_inLead_opening hbefore)
  | append_singleton after t ih =>
    have hlt := (h s (by simp)).lead_lt_text
    have hle : k ≤ (opening (before ++ s :: after)).length := by
      simp only [opening, List.flatMap_append, List.flatMap_cons, List.length_append] at hlead ⊢
      omega
    have hconcat : before ++ s :: (after ++ [t]) = (before ++ s :: after) ++ [t] := by simp
    rw [hconcat, withoutBareLead_concat, if_pos hle]
    refine ih (fun u hu => h u ?_)
    rw [hconcat]
    exact List.mem_append_left _ hu

end LongTermMemory.ContextBlock
