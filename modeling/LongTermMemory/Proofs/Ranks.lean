import LongTermMemory.Proofs.DisjointSets
import Mathlib.Algebra.Order.Ring.Nat
import Mathlib.Data.Nat.Log

/-!
Ranks: how deep a forest gets. A union hangs the root of lower rank under the other, so that a root
of rank `k` has at least `2 ^ k` ids in its class (`Sized`). Ranks rise along every path, which is
why a find visits few ids, and the ranks themselves stay small.
-/

namespace LongTermMemory.Partition

variable {p q : Partition} {x r : MemoryId} {l : List MemoryId}

/-- The known ids with one root. -/
def classOf (p : Partition) (r : MemoryId) : List MemoryId := p.ids.filter fun x => p.root x = r

/-- The class of a root is as large as the rank of the root asks for. -/
def Sized (p : Partition) : Prop :=
  ∀ r ∈ p.ids, p.parent r = r → 2 ^ p.rank r ≤ (p.classOf r).length

/-! ## Classes -/

theorem mem_classOf : x ∈ p.classOf r ↔ x ∈ p.ids ∧ p.root x = r := by simp [classOf]

theorem classOf_congr (hids : q.ids = p.ids) (hroots : ∀ x, q.root x = p.root x) (r : MemoryId) :
    q.classOf r = p.classOf r := by
  simp only [classOf, hids, hroots]

theorem length_classOf_le (p : Partition) (r : MemoryId) : (p.classOf r).length ≤ p.ids.length :=
  List.length_filter_le _ _

/-- Hanging `a` under `b` puts the two classes together. -/
theorem length_classOf_joined {a b : MemoryId} (hne : a ≠ b) (hids : q.ids = p.ids)
    (hroots : ∀ x, q.root x = if p.root x = a then b else p.root x) :
    (q.classOf b).length = (p.classOf a).length + (p.classOf b).length := by
  simp only [classOf, hids, hroots, ← List.countP_eq_length_filter]
  induction p.ids with
  | nil => rfl
  | cons x rest ih =>
    simp only [List.countP_cons, decide_eq_true_eq, ih]
    by_cases hxa : p.root x = a
    · simp only [hxa, ↓reduceIte, if_neg hne]
      omega
    · simp only [hxa, ↓reduceIte]
      omega

/-- The other classes stay as they are. -/
theorem classOf_apart {a b r : MemoryId} (hra : r ≠ a) (hrb : r ≠ b) (hids : q.ids = p.ids)
    (hroots : ∀ x, q.root x = if p.root x = a then b else p.root x) :
    q.classOf r = p.classOf r := by
  rw [classOf, classOf, hids]
  refine List.filter_congr fun x _ => ?_
  rw [hroots]
  split
  · next hxa => simp [hxa, Ne.symm hra, Ne.symm hrb]
  · rfl

theorem Forest.parent_eq_iff (hp : p.Forest) : p.parent r = r ↔ p.root r = r :=
  ⟨Forest.root_of_parent_eq, fun h => by rw [← h, hp.parent_root]⟩

/-! ## Steps -/

namespace Sized

/-- Only the ids, the roots and the ranks of the roots count. -/
theorem congr (h : p.Sized) (hp : p.Forest) (hq : q.Forest) (hids : q.ids = p.ids)
    (hroots : ∀ x, q.root x = p.root x) (hranks : ∀ x, q.rank x = p.rank x) : q.Sized := by
  intro r hr hroot
  rw [hids] at hr
  rw [hq.parent_eq_iff, hroots, ← hp.parent_eq_iff] at hroot
  rw [hranks, classOf_congr hids hroots]
  exact h r hr hroot

/-- A new id is alone in its class and has rank zero. -/
theorem add (h : p.Sized) (hp : p.Forest) (x : MemoryId) : (p.add x).Sized := by
  by_cases hx : x ∈ p.ids
  · rwa [add_of_mem hx]
  obtain ⟨hq, hroots⟩ := hp.add x
  have hids : (p.add x).ids = p.ids ++ [x] := by rw [ids_add, if_neg hx]
  intro r hr hroot
  rw [parent_add] at hroot
  rw [rank_add]
  rcases mem_ids_add.mp hr with hr | rfl
  · refine (h r hr hroot).trans ?_
    simp only [classOf, hids, hroots, List.filter_append, List.length_append]
    exact Nat.le_add_right _ _
  · have hself : r ∈ (p.add r).classOf r :=
      mem_classOf.mpr ⟨mem_ids_add.mpr (Or.inr rfl), by rw [hroots, Forest.root_of_parent_eq hroot]⟩
    have hzero : p.rank r = 0 := by rw [rank, node?_of_not_mem hx, Option.elim_none]
    rw [hzero]
    exact List.length_pos_of_mem hself

end Sized

theorem rank_foldl_setParent (p : Partition) (r x : MemoryId) (l : List MemoryId) :
    (l.foldl (fun q i => q.setParent i r) p).rank x = p.rank x := by
  induction l generalizing p with
  | nil => rfl
  | cons a rest ih => rw [List.foldl_cons, ih, rank_setParent]

/-- A find changes no rank. -/
theorem rank_find (p : Partition) (x y : MemoryId) : (p.find x).2.rank y = p.rank y := by
  rw [find]
  dsimp only
  rw [rank_foldl_setParent, rank_add]

namespace Sized

theorem find (h : p.Sized) (hp : p.Forest) (x : MemoryId) : (p.find x).2.Sized := by
  obtain ⟨hadded, hroots⟩ := hp.add x
  obtain ⟨-, hq, hids, hfound⟩ := hp.find_spec x
  refine (h.add hp x).congr hadded hq hids (fun y => ?_) fun y => ?_
  · rw [hfound, hroots]
  · rw [rank_find, rank_add]

/-- The root `a` goes under the root `b`, if the two classes are together large enough for the rank
of `b`. -/
theorem setParent {a b : MemoryId}
    (h : ∀ r ∈ p.ids, p.parent r = r → r ≠ b → 2 ^ p.rank r ≤ (p.classOf r).length) (hp : p.Forest)
    (ha : a ∈ p.ids) (hb : b ∈ p.ids) (hra : p.parent a = a) (hrb : p.parent b = b)
    (hlt : p.rank a < p.rank b)
    (hsize : 2 ^ p.rank b ≤ (p.classOf a).length + (p.classOf b).length) :
    (p.setParent a b).Sized := by
  have hne : a ≠ b := fun heq => Nat.ne_of_lt hlt (by rw [heq])
  have hq : (p.setParent a b).Forest := hp.setParent hb (Or.inr hlt)
  have hids : (p.setParent a b).ids = p.ids := ids_setParent p a b
  have hroots (x : MemoryId) :
      (p.setParent a b).root x = if p.root x = a then b else p.root x := by
    rw [hp.root_setParent ha hb hrb (Or.inr hlt) (Or.inr hra), Forest.root_of_parent_eq hra]
  intro r hr hroot
  rw [hids] at hr
  rw [hq.parent_eq_iff, hroots] at hroot
  rw [rank_setParent]
  by_cases hrb' : r = b
  · rw [hrb', length_classOf_joined hne hids hroots]
    exact hsize
  · split at hroot
    · exact absurd hroot.symm hrb'
    · next hapart =>
      have hra' : r ≠ a := fun heq => hapart (hroot.trans heq)
      rw [classOf_apart hra' hrb' hids hroots]
      exact h r hr (hp.parent_eq_iff.mpr hroot) hrb'

/-- Of two roots of one rank `k` both classes have `2 ^ k` ids, which is why the rank may rise. -/
theorem link {a b : MemoryId} (h : p.Sized) (hp : p.Forest) (ha : a ∈ p.ids) (hb : b ∈ p.ids)
    (hra : p.parent a = a) (hrb : p.parent b = b) (hne : a ≠ b) : (p.link a b).Sized := by
  have hsizea := h a ha hra
  have hsizeb := h b hb hrb
  unfold Partition.link
  split
  · next hlt =>
    exact setParent (fun r hr hroot _ => h r hr hroot) hp ha hb hra hrb hlt (by omega)
  · split
    · next hlt =>
      exact setParent (fun r hr hroot _ => h r hr hroot) hp hb ha hrb hra hlt (by omega)
    · next hab hba =>
      have hsame : p.rank b = p.rank a := by omega
      have hle : p.rank a ≤ p.rank a + 1 := Nat.le_succ _
      have hq : (p.setRank a (p.rank a + 1)).Forest := hp.setRank hra hle
      have hclass : (p.setRank a (p.rank a + 1)).classOf = p.classOf :=
        funext (classOf_congr (ids_setRank p a _) (hp.root_setRank hra hle))
      have hranka : (p.setRank a (p.rank a + 1)).rank a = p.rank a + 1 := by
        rw [rank_setRank ha, if_pos rfl]
      have hother {r : MemoryId} (hr : r ∈ p.ids) (hr' : r ≠ a) :
          (p.setRank a (p.rank a + 1)).rank r = p.rank r := by
        rw [rank_setRank hr, if_neg hr']
      rw [Forest.setRank_setParent]
      refine setParent (fun r hr hroot hr' => ?_) hq (by simpa using hb) (by simpa using ha)
        (by rwa [parent_setRank]) (by rwa [parent_setRank]) ?_ ?_
      · rw [ids_setRank] at hr
        rw [parent_setRank] at hroot
        rw [hclass, hother hr hr']
        exact h r hr hroot
      · rw [hranka, hother hb hne.symm, hsame]
        exact Nat.lt_succ_self _
      · rw [hclass, hranka, Nat.pow_succ]
        rw [hsame] at hsizeb
        omega

theorem union (h : p.Sized) (hp : p.Forest) (a b : MemoryId) : (p.union a b).Sized := by
  obtain ⟨hroota, hp₁, hids₁, hroots₁⟩ := hp.find_spec a
  obtain ⟨hrootb, hp₂, hids₂, hroots₂⟩ := hp₁.find_spec b
  have hsized := (h.find hp a).find hp₁ b
  have ha : a ∈ ((p.find a).2.find b).2.ids := by
    rw [hids₂, mem_ids_add, hids₁, mem_ids_add]
    exact Or.inl (Or.inr rfl)
  have hb : b ∈ ((p.find a).2.find b).2.ids := hids₂ ▸ mem_ids_add.mpr (Or.inr rfl)
  have hra : (p.find a).1 = ((p.find a).2.find b).2.root a := by rw [hroots₂, hroots₁, hroota]
  have hrb : ((p.find a).2.find b).1 = ((p.find a).2.find b).2.root b := by rw [hroots₂, hrootb]
  unfold Partition.union
  dsimp only
  rw [hra, hrb]
  split
  · exact hsized
  · next hne =>
    exact hsized.link hp₂ (hp₂.root_mem_ids ha) (hp₂.root_mem_ids hb) (hp₂.parent_root a)
      (hp₂.parent_root b) hne

theorem after (h : p.Sized) (hp : p.Forest) (step : Step) : (p.after step).Sized := by
  cases step with
  | find id => exact h.find hp id
  | union a b => exact h.union hp a b

end Sized

/-! ## Runs -/

/-- After any steps from any ids the classes are as large as the ranks of their roots ask for. -/
theorem sized_run (ids : List MemoryId) (steps : List Step) : (run ids steps).Sized := by
  have hadded : ∀ known : List MemoryId, (ofIds known).Sized := by
    intro known
    induction known using List.reverseRecOn with
    | nil => exact fun r hr => nomatch hr
    | append_singleton front id ih =>
      have hforest : (ofIds front).Forest := (spans_run front []).forest
      rw [ofIds, List.foldl_append]
      exact ih.add hforest id
  induction steps using List.reverseRecOn with
  | nil => exact hadded ids
  | append_singleton front step ih =>
    rw [run, List.foldl_append]
    exact ih.after (spans_run ids front).forest step

/-! ## Bounds -/

namespace Sized

variable (h : p.Sized) (hp : p.Forest)
include h hp

theorem two_pow_rank_le (hx : x ∈ p.ids) : 2 ^ p.rank x ≤ p.ids.length := by
  have hrank : p.rank x ≤ p.rank (p.root x) := hp.rank_le_of_mem_pathFrom hx (hp.root_mem_path x)
  calc 2 ^ p.rank x ≤ 2 ^ p.rank (p.root x) := Nat.pow_le_pow_right Nat.zero_lt_two hrank
    _ ≤ (p.classOf (p.root x)).length := h _ (hp.root_mem_ids hx) (hp.parent_root x)
    _ ≤ p.ids.length := length_classOf_le p _

theorem rank_le_log (x : MemoryId) : p.rank x ≤ Nat.log 2 p.ids.length := by
  by_cases hx : x ∈ p.ids
  · exact Nat.le_log_of_pow_le Nat.one_lt_two (h.two_pow_rank_le hp hx)
  · rw [rank, node?_of_not_mem hx, Option.elim_none]
    exact Nat.zero_le _

end Sized

/-! ## Visits -/

/-- The ids that a find from an id visits: that id and, unless it is a root, those that a find from
its parent visits. -/
inductive Visits (p : Partition) : MemoryId → List MemoryId → Prop
  | root {x : MemoryId} (h : p.parent x = x) : Visits p x [x]
  | up {x : MemoryId} {l : List MemoryId} (h : p.parent x ≠ x) (hup : Visits p (p.parent x) l) :
    Visits p x (x :: l)

theorem Visits.congr (hparents : ∀ x, q.parent x = p.parent x) (h : p.Visits x l) :
    q.Visits x l := by
  induction h with
  | root hroot => exact .root ((hparents _).trans hroot)
  | up hne _ ih => exact .up (by rwa [hparents]) (by rwa [hparents])

/-- A find that ends has visited the ids on its way. -/
theorem Finds.exists_visits (h : Finds p x r q) : ∃ l, p.Visits x l := by
  induction h with
  | root hroot => exact ⟨_, .root (by rwa [parent_add] at hroot)⟩
  | @up p q x r hne _ ih =>
    obtain ⟨l, hl⟩ := ih
    have hparents (y : MemoryId) : p.parent y = (p.add x).parent y := (parent_add p x y).symm
    exact ⟨x :: l, .congr hparents (.up hne hl)⟩

/-- With each id visited the rank has risen. -/
theorem Forest.rank_add_length_le (hp : p.Forest) {bound : Nat} (hbound : ∀ x, p.rank x ≤ bound)
    (h : p.Visits x l) : p.rank x + l.length ≤ bound + 1 := by
  induction h with
  | root => exact Nat.succ_le_succ (hbound _)
  | up hne _ ih =>
    have hlt := hp.ranked _ (mem_ids_of_parent_ne hne) hne
    rw [List.length_cons]
    omega

/-! ## What union by rank keeps low -/

/-- The group of a root is its class. -/
theorem Forest.length_of_mem_groups (hp : p.Forest) {g : List MemoryId} (hg : g ∈ p.groups)
    (hr : r ∈ g) (hroot : p.parent r = r) : g.length = (p.classOf r).length := by
  obtain ⟨x, -, rfl⟩ := mem_groups.mp hg
  have hsame : p.root r = p.root x := by simpa using (List.mem_filter.mp hr).2
  have hids : (Ascending.ofList p.ids).Perm p.ids :=
    (List.perm_ext_iff_of_nodup (Ascending.nodup_ofList _) hp.nodup).mpr
      fun y => Ascending.mem_ofList y p.ids
  rw [classOf, ← Forest.root_of_parent_eq hroot, hsame]
  exact (hids.filter _).length_eq

/-- After any finds and unions from any ids, the rank of a parent is greater, and the class of a
root of rank `k` has at least `2 ^ k` ids. With `n` ids known every find therefore ends, having
visited at most `log₂ n + 1` of them, and no rank is above `log₂ n`. The sum that a union writes is
a rank of the partition after it, so that with less than `2 ^ 32` ids a counter of 32 bits never
runs over. -/
theorem union_by_rank_stays_shallow (ids : List MemoryId) (steps : List Step) :
    let p := run ids steps
    (∀ x, p.parent x ≠ x → p.rank x < p.rank (p.parent x)) ∧
    (∀ r ∈ p.ids, p.parent r = r → ∃ g ∈ p.groups, r ∈ g ∧ 2 ^ p.rank r ≤ g.length) ∧
    (∀ x, (∃ r q, Finds p x r q) ∧ (∃ l, p.Visits x l) ∧
      ∀ l, p.Visits x l → l.length ≤ Nat.log 2 p.ids.length + 1) ∧
    (∀ x, p.rank x ≤ Nat.log 2 p.ids.length) ∧
    (p.ids.length < 2 ^ 32 → ∀ x, p.rank x < 32) := by
  have hp : (run ids steps).Forest := (spans_run ids steps).forest
  have hsized := sized_run ids steps
  have hranks := hsized.rank_le_log hp
  refine ⟨fun x hne => hp.ranked x (mem_ids_of_parent_ne hne) hne, fun r hr hroot => ?_,
    fun x => ?_, hranks, fun hn x => ?_⟩
  · obtain ⟨g, hg, hrg⟩ := (areClasses_groups _).complete r hr
    refine ⟨g, hg, hrg, ?_⟩
    rw [hp.length_of_mem_groups hg hrg hroot]
    exact hsized r hr hroot
  · have hends : Finds (run ids steps) x _ _ := hp.finds_iff.mpr rfl
    refine ⟨⟨_, _, hends⟩, hends.exists_visits, fun l hl => ?_⟩
    have hlength := hp.rank_add_length_le hranks hl
    omega
  · exact (hranks x).trans_lt (Nat.log_lt_of_lt_pow' (by decide) hn)

/-- Eight ids, joined in pairs, then in fours, then all. -/
def pairings : List Step :=
  [.union 1 2, .union 3 4, .union 5 6, .union 7 8, .union 1 3, .union 5 7, .union 1 5]

/-- The bounds are met: a root of rank three has eight ids under it, and a find visits four. -/
theorem union_by_rank_stays_shallow_pairings :
    (run [] pairings).rank 7 < (run [] pairings).rank 5 ∧ (run [] pairings).rank 1 = 3 ∧
      (∃ g ∈ (run [] pairings).groups, 1 ∈ g ∧ 2 ^ 3 ≤ g.length) ∧
      (run [] pairings).Visits 8 [8, 7, 5, 1] ∧
      [8, 7, 5, 1].length ≤ Nat.log 2 (run [] pairings).ids.length + 1 ∧
      ∀ x, (run [] pairings).rank x < 32 := by
  obtain ⟨hranked, hclasses, hfinds, -, hcounter⟩ := union_by_rank_stays_shallow [] pairings
  have hparent : (run [] pairings).parent 7 = 5 := by decide
  have hrank : (run [] pairings).rank 1 = 3 := by decide
  have hvisits : (run [] pairings).Visits 8 [8, 7, 5, 1] :=
    .up (by decide) (.up (by decide) (.up (by decide) (.root (by decide))))
  refine ⟨?_, hrank, ?_, hvisits, (hfinds 8).2.2 _ hvisits, hcounter (by decide)⟩
  · have hlt := hranked 7 (by decide)
    rwa [hparent] at hlt
  · have hclass := hclasses 1 (by decide) (by decide)
    rwa [hrank] at hclass

end LongTermMemory.Partition
