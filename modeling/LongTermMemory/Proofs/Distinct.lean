import Mathlib.Data.List.Induction

/-!
Lists with all but the first of equal members dropped, and lists cut into the parts on which a
function has one value.
-/

namespace LongTermMemory

variable {α : Type} [DecidableEq α]

theorem nodup_eraseDups (l : List α) : l.eraseDups.Nodup := by
  match l with
  | [] => exact List.nodup_nil
  | a :: l =>
    have hshorter : (l.filter fun b => !b == a).length < (a :: l).length :=
      Nat.lt_succ_of_le (List.length_filter_le _ l)
    rw [List.eraseDups_cons, List.nodup_cons]
    exact ⟨by simp, nodup_eraseDups (l.filter fun b => !b == a)⟩
termination_by l.length
decreasing_by exact hshorter

/-- A value at the end is dropped where it stands before already. -/
theorem eraseDups_concat (l : List α) (a : α) :
    (l ++ [a]).eraseDups = if a ∈ l then l.eraseDups else l.eraseDups ++ [a] := by
  rw [List.eraseDups_append]
  by_cases h : a ∈ l <;> simp [List.removeAll, List.eraseDups_cons, h]

/-- The members of a list once each, in the order in which they first appear. -/
structure FirstSeen (l values : List α) : Prop where
  mem : ∀ a, a ∈ values ↔ a ∈ l
  ordered : values.Pairwise fun a b => l.idxOf a < l.idxOf b

theorem firstSeen_eraseDups (l : List α) : FirstSeen l l.eraseDups := by
  refine ⟨fun a => List.mem_eraseDups, ?_⟩
  -- From the end: the places of all before stay, and a new value comes behind them.
  induction l using List.reverseRecOn with
  | nil => exact List.Pairwise.nil
  | append_singleton l a ih =>
    have hindex : ∀ b ∈ l.eraseDups, (l ++ [a]).idxOf b = l.idxOf b := fun b hb => by
      rw [List.idxOf_append, if_pos (List.mem_eraseDups.mp hb)]
    have hkept : l.eraseDups.Pairwise fun b c => (l ++ [a]).idxOf b < (l ++ [a]).idxOf c :=
      ih.imp_of_mem fun hb hc hless => by rwa [hindex _ hb, hindex _ hc]
    rw [eraseDups_concat]
    split
    · exact hkept
    · next hnew =>
      refine List.pairwise_append.mpr ⟨hkept, List.pairwise_singleton _ _, fun b hb c hc => ?_⟩
      have hbefore := List.idxOf_lt_length_of_mem (List.mem_eraseDups.mp hb)
      rw [List.mem_singleton.mp hc, hindex b hb, List.idxOf_append, if_neg hnew]
      omega

/-- The first list members of two different values stand in the order of the values. -/
theorem pairwise_eraseDups_map {β : Type} {R : β → β → Prop} {f : β → α} {l : List β}
    (h : l.Pairwise R) :
    (l.map f).eraseDups.Pairwise fun r r' => ∃ a ∈ l, f a = r ∧ ∀ b ∈ l, f b = r' → R a b := by
  match l with
  | [] => exact List.Pairwise.nil
  | a :: l =>
    obtain ⟨hfirst, hrest⟩ := List.pairwise_cons.mp h
    have hshorter : (l.filter fun b => !f b == f a).length < (a :: l).length :=
      Nat.lt_succ_of_le (List.length_filter_le _ l)
    have hmap : (l.map f).filter (fun r => !r == f a) = (l.filter fun b => !f b == f a).map f := by
      rw [List.filter_map]
      rfl
    have hothers : ∀ r' ∈ ((l.filter fun b => !f b == f a).map f).eraseDups, r' ≠ f a := by
      intro r' hr'
      obtain ⟨b, hb, rfl⟩ := List.mem_map.mp (List.mem_eraseDups.mp hr')
      simpa using (List.mem_filter.mp hb).2
    rw [List.map_cons, List.eraseDups_cons, hmap]
    refine List.pairwise_cons.mpr ⟨fun r' hr' => ?_, ?_⟩
    · refine ⟨a, by simp, rfl, fun b hb hbr => ?_⟩
      rcases List.mem_cons.mp hb with rfl | hb
      · exact absurd hbr.symm (hothers r' hr')
      · exact hfirst b hb
    · refine (pairwise_eraseDups_map (hrest.filter fun b => !f b == f a)).imp_of_mem
        fun {r r'} _ hr' hless => ?_
      obtain ⟨c, hc, hcr, hless⟩ := hless
      refine ⟨c, List.mem_cons_of_mem a (List.mem_filter.mp hc).1, hcr, fun b hb hbr => ?_⟩
      have hne : f b ≠ f a := hbr ▸ hothers r' hr'
      refine hless b (List.mem_filter.mpr ⟨?_, by simpa using hne⟩) hbr
      exact (List.mem_cons.mp hb).resolve_left fun heq => hne (heq ▸ rfl)
termination_by l.length
decreasing_by exact hshorter

/-! ## Fibers -/

/-- The members of a list with one value, value by value in the order in which they appear. -/
def fibers {β : Type} (f : β → α) (l : List β) : List (List β) :=
  (l.map f).eraseDups.map fun r => l.filter fun a => f a = r

theorem fibers_cons {β : Type} (f : β → α) (a : β) (l : List β) :
    fibers f (a :: l) =
      ((a :: l).filter fun b => f b = f a) :: fibers f (l.filter fun b => f b ≠ f a) := by
  have hmap : (l.map f).filter (fun r => !r == f a) = (l.filter fun b => f b ≠ f a).map f := by
    rw [List.filter_map]
    congr 1
    refine List.filter_congr fun b _ => ?_
    by_cases hb : f b = f a <;> simp [hb]
  unfold fibers
  rw [List.map_cons, List.eraseDups_cons, hmap, List.map_cons]
  congr 1
  refine List.map_congr_left fun r hr => ?_
  obtain ⟨b, hb, rfl⟩ := List.mem_map.mp (List.mem_eraseDups.mp hr)
  have hne : f b ≠ f a := of_decide_eq_true (List.mem_filter.mp hb).2
  rw [List.filter_cons_of_neg (by simpa using Ne.symm hne), List.filter_filter]
  refine List.filter_congr fun d _ => ?_
  by_cases hd : f d = f b
  · simp [hd, hne]
  · simp [hd]

/-- The fibers depend only on which members have the same value. -/
theorem fibers_congr {β γ : Type} [DecidableEq γ] {f : β → α} {g : β → γ} {l : List β}
    (h : ∀ a ∈ l, ∀ b ∈ l, f a = f b ↔ g a = g b) : fibers f l = fibers g l := by
  match l with
  | [] => rfl
  | a :: l =>
    have hshorter : (l.filter fun b => f b ≠ f a).length < (a :: l).length :=
      Nat.lt_succ_of_le (List.length_filter_le _ l)
    have hfirst : ((a :: l).filter fun b => f b = f a) = (a :: l).filter fun b => g b = g a :=
      List.filter_congr fun b hb => decide_eq_decide.mpr (h b hb a (by simp))
    have hothers : (l.filter fun b => f b ≠ f a) = l.filter fun b => g b ≠ g a :=
      List.filter_congr fun b hb =>
        decide_eq_decide.mpr (not_congr (h b (List.mem_cons_of_mem a hb) a (by simp)))
    have hrest : fibers f (l.filter fun b => f b ≠ f a) = fibers g (l.filter fun b => f b ≠ f a) :=
      fibers_congr fun b hb d hd =>
        h b (List.mem_cons_of_mem a (List.mem_filter.mp hb).1) d
          (List.mem_cons_of_mem a (List.mem_filter.mp hd).1)
    rw [fibers_cons, fibers_cons, hfirst, hrest, hothers]
termination_by l.length
decreasing_by exact hshorter

end LongTermMemory
