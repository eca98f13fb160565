import LongTermMemory.ContextBlock
import LongTermMemory.Proofs.Distinct
import Mathlib.Data.List.Induction

/-!
The one pass that fills the sections. Whatever has been read, the groups found so far are those of
the memories read, in the order in which they first came, and each holds the first of its contents.
-/

namespace LongTermMemory.ContextBlock

/-- The memories shown of a group: the first of its members in rank order that have something to
say, up to its cap. -/
def shown (c : ContextConfig) (ranked : List Memory) (g : DisplayGroup) : List Memory :=
  (ranked.filter fun m => DisplayGroup.ofMemory m = g && !Text.blank m.content).take (cap c g)

/-- The contents of memories as they are shown. -/
def contents (ms : List Memory) : List String := ms.map fun m => Text.trim m.content

variable {c : ContextConfig} {ranked : List Memory} {g : DisplayGroup} {m : Memory}

theorem mem_shown (h : m ∈ shown c ranked g) :
    m ∈ ranked ∧ DisplayGroup.ofMemory m = g ∧ Text.blank m.content = false := by
  simpa using List.mem_filter.mp (List.mem_of_mem_take h)

/-! ## One more memory -/

theorem take_concat {α : Type} (l : List α) (a : α) (n : Nat) :
    (l ++ [a]).take n = if (l.take n).length < n then l.take n ++ [a] else l.take n := by
  rw [List.take_append, List.length_take]
  split
  · next h => rw [List.take_of_length_le (l := [a]) (by simp; omega)]
  · next h => rw [show n - l.length = 0 by omega, List.take_zero, List.append_nil]

/-- A member of the group is shown if there is room and it has something to say. -/
theorem shown_concat (hm : DisplayGroup.ofMemory m = g) : shown c (ranked ++ [m]) g =
    if (shown c ranked g).length < cap c g ∧ Text.blank m.content = false then
      shown c ranked g ++ [m]
    else shown c ranked g := by
  unfold shown
  rw [List.filter_append]
  by_cases hblank : Text.blank m.content = true
  · rw [if_neg (by simp [hblank])]
    simp [hblank]
  · have hone :
        [m].filter (fun m => DisplayGroup.ofMemory m = g && !Text.blank m.content) = [m] := by
      simp [hm, hblank]
    rw [hone, take_concat]
    simp only [hblank, and_true]

theorem withItem_shown (hm : DisplayGroup.ofMemory m = g) :
    withItem c g (contents (shown c ranked g)) m.content =
      contents (shown c (ranked ++ [m]) g) := by
  have hlength : (contents (shown c ranked g)).length = (shown c ranked g).length :=
    List.length_map _
  have hsays : Text.trim m.content ≠ "" ↔ Text.blank m.content = false := by simp [Text.blank]
  rw [shown_concat hm]
  simp only [withItem, hlength, hsays]
  split
  · rw [contents, contents, List.map_append, List.map_singleton]
  · rfl

theorem shown_concat_of_ne (hm : DisplayGroup.ofMemory m ≠ g) :
    shown c (ranked ++ [m]) g = shown c ranked g := by
  rw [shown, shown, List.filter_append]
  simp [hm]

theorem gather_of_notMem {groups : List (DisplayGroup × List String)}
    (h : DisplayGroup.ofMemory m ∉ groups.map (·.1)) : gather c m groups =
      groups ++ [(DisplayGroup.ofMemory m, withItem c (DisplayGroup.ofMemory m) [] m.content)] := by
  induction groups with
  | nil => rfl
  | cons x groups ih =>
    obtain ⟨hne, hrest⟩ := not_or.mp (mt List.mem_cons.mpr h)
    rw [gather, if_neg hne, ih hrest]
    rfl

theorem gather_of_mem {groups : List (DisplayGroup × List String)}
    (hnodup : (groups.map (·.1)).Nodup) (h : DisplayGroup.ofMemory m ∈ groups.map (·.1)) :
    gather c m groups = groups.map fun x =>
      (x.1, if DisplayGroup.ofMemory m = x.1 then withItem c x.1 x.2 m.content else x.2) := by
  induction groups with
  | nil => cases h
  | cons x groups ih =>
    obtain ⟨g, items⟩ := x
    obtain ⟨hnew, hnodup⟩ := List.nodup_cons.mp hnodup
    by_cases hm : DisplayGroup.ofMemory m = g
    · -- the group is found here, so it is none of the later ones
      have hlater : ∀ x ∈ groups, DisplayGroup.ofMemory m ≠ x.1 := fun x hx heq =>
        hnew (List.mem_map.mpr ⟨x, hx, heq.symm.trans hm⟩)
      rw [gather, if_pos hm, List.map_cons, if_pos hm]
      congr 1
      refine (List.map_id _).symm.trans (List.map_congr_left fun x hx => ?_)
      rw [if_neg (hlater x hx)]
      rfl
    · simp only [gather, List.map_cons, if_neg hm]
      rw [ih hnodup ((List.mem_cons.mp h).resolve_left hm)]

/-! ## The whole pass -/

/-- The groups of memories, in the order of their first members, with what is shown of each. -/
def gathered (c : ContextConfig) (ranked : List Memory) : List (DisplayGroup × List String) :=
  (ranked.map DisplayGroup.ofMemory).eraseDups.map fun g => (g, contents (shown c ranked g))

theorem groups_gathered (c : ContextConfig) (ranked : List Memory) :
    (gathered c ranked).map (·.1) = (ranked.map DisplayGroup.ofMemory).eraseDups := by
  rw [gathered, List.map_map]
  exact List.map_id _

/-- One more memory goes to its group, or makes one. -/
theorem gather_gathered (c : ContextConfig) (ranked : List Memory) (m : Memory) :
    gather c m (gathered c ranked) = gathered c (ranked ++ [m]) := by
  have hmem : DisplayGroup.ofMemory m ∈ (gathered c ranked).map (·.1) ↔
      DisplayGroup.ofMemory m ∈ ranked.map DisplayGroup.ofMemory := by
    rw [groups_gathered, List.mem_eraseDups]
  by_cases hm : DisplayGroup.ofMemory m ∈ ranked.map DisplayGroup.ofMemory
  · have hnodup : ((gathered c ranked).map (·.1)).Nodup := by
      rw [groups_gathered]
      exact nodup_eraseDups _
    rw [gather_of_mem hnodup (hmem.mpr hm), gathered, gathered, List.map_append,
      List.map_singleton, eraseDups_concat, if_pos hm, List.map_map]
    refine List.map_congr_left fun g _ => Prod.ext rfl ?_
    by_cases heq : DisplayGroup.ofMemory m = g
    · exact (if_pos heq).trans (withItem_shown heq)
    · exact (if_neg heq).trans (congrArg contents (shown_concat_of_ne heq)).symm
  · have hnone : shown c ranked (DisplayGroup.ofMemory m) = [] := by
      refine List.eq_nil_iff_forall_not_mem.mpr fun k hk => hm ?_
      obtain ⟨hin, hgroup, -⟩ := mem_shown hk
      exact hgroup ▸ List.mem_map_of_mem hin
    have hitem : withItem c _ (contents (shown c ranked (DisplayGroup.ofMemory m))) m.content = _ :=
      withItem_shown rfl
    rw [hnone] at hitem
    rw [gather_of_notMem (mt hmem.mp hm), gathered, gathered, List.map_append, List.map_singleton,
      eraseDups_concat, if_neg hm, List.map_append, List.map_singleton, ← hitem]
    congr 1
    refine List.map_congr_left fun g hg => ?_
    have hne : DisplayGroup.ofMemory m ≠ g := fun heq => hm (heq ▸ List.mem_eraseDups.mp hg)
    rw [shown_concat_of_ne hne]

theorem foldl_gather (c : ContextConfig) (ranked : List Memory) :
    ranked.foldl (fun groups m => gather c m groups) [] = gathered c ranked := by
  induction ranked using List.reverseRecOn with
  | nil => rfl
  | append_singleton ranked m ih =>
    rw [List.foldl_append, ih]
    exact gather_gathered c ranked m

/-- The sections are the groups of which something is shown. -/
theorem sections_eq (c : ContextConfig) (ranked : List Memory) :
    sections c ranked = ((ranked.map DisplayGroup.ofMemory).eraseDups.filter fun g =>
      !(shown c ranked g).isEmpty).map fun g => ⟨g.heading, contents (shown c ranked g)⟩ := by
  rw [sections, foldl_gather, gathered, List.map_map, List.filter_map]
  congr 1
  refine List.filter_congr fun g _ => ?_
  simp [contents]

end LongTermMemory.ContextBlock
