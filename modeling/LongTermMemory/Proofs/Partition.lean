import LongTermMemory.Partition
import LongTermMemory.Proofs.Ascending
import Mathlib.Data.List.Nodup
import Mathlib.Data.List.Perm.Subperm

/-!
Partitions: ranks rise along the paths of a forest, so that every path ends at a root; `find` leaves
all roots as they are, and `union` joins two classes and no others.
-/

namespace LongTermMemory.Partition

/-- Each id is known once, parents are known, and a parent has a greater rank. -/
structure Forest (p : Partition) : Prop where
  nodup : p.ids.Nodup
  closed : ∀ x ∈ p.ids, p.parent x ∈ p.ids
  ranked : ∀ x ∈ p.ids, p.parent x ≠ x → p.rank x < p.rank (p.parent x)

variable {p q : Partition} {x y : MemoryId}

/-! ## Nodes -/

theorem id_of_node? {n : Node} (h : p.node? x = some n) : n.id = x := by
  simpa using List.find?_some h

theorem node?_of_mem (h : x ∈ p.ids) : ∃ n, p.node? x = some n := by
  obtain ⟨n, hn, rfl⟩ := List.mem_map.mp h
  refine Option.isSome_iff_exists.mp (List.find?_isSome.mpr ⟨n, hn, by simp⟩)

theorem node?_of_not_mem (h : x ∉ p.ids) : p.node? x = none := by
  refine List.find?_eq_none.mpr fun n hn => ?_
  simpa using fun heq => h (List.mem_map.mpr ⟨n, hn, heq⟩)

theorem parent_of_not_mem (h : x ∉ p.ids) : p.parent x = x := by
  simp [parent, node?_of_not_mem h]

theorem node?_map {f : Node → Node} (hf : ∀ n, (f n).id = n.id) (x : MemoryId) :
    node? ⟨p.nodes.map f⟩ x = (p.node? x).map f := by
  simp only [node?, List.find?_map]
  congr 2
  funext n
  simp [hf]

theorem ids_map {f : Node → Node} (hf : ∀ n, (f n).id = n.id) :
    ids ⟨p.nodes.map f⟩ = p.ids := by
  simp only [ids, List.map_map]
  exact List.map_congr_left fun n _ => hf n

theorem setParent_id (a b : MemoryId) (n : Node) :
    (if n.id = a then { n with parent := b } else n).id = n.id := by
  split <;> rfl

theorem setRank_id (a : MemoryId) (k : Nat) (n : Node) :
    (if n.id = a then { n with rank := k } else n).id = n.id := by
  split <;> rfl

@[simp] theorem ids_setParent (p : Partition) (a b : MemoryId) : (p.setParent a b).ids = p.ids :=
  ids_map (setParent_id a b)

@[simp] theorem ids_setRank (p : Partition) (a : MemoryId) (k : Nat) :
    (p.setRank a k).ids = p.ids :=
  ids_map (setRank_id a k)

theorem parent_setParent (h : x ∈ p.ids) (a b : MemoryId) :
    (p.setParent a b).parent x = if x = a then b else p.parent x := by
  obtain ⟨n, hn⟩ := node?_of_mem h
  have hid := id_of_node? hn
  simp only [parent, setParent, node?_map (setParent_id a b), hn, Option.map_some,
    Option.elim_some, hid]
  split <;> rfl

@[simp] theorem rank_setParent (p : Partition) (a b x : MemoryId) :
    (p.setParent a b).rank x = p.rank x := by
  simp only [rank, setParent, node?_map (setParent_id a b)]
  cases p.node? x with
  | none => rfl
  | some n =>
    simp only [Option.map_some, Option.elim_some]
    split <;> rfl

@[simp] theorem parent_setRank (p : Partition) (a x : MemoryId) (k : Nat) :
    (p.setRank a k).parent x = p.parent x := by
  simp only [parent, setRank, node?_map (setRank_id a k)]
  cases p.node? x with
  | none => rfl
  | some n =>
    simp only [Option.map_some, Option.elim_some]
    split <;> rfl

theorem rank_setRank (h : x ∈ p.ids) (a : MemoryId) (k : Nat) :
    (p.setRank a k).rank x = if x = a then k else p.rank x := by
  obtain ⟨n, hn⟩ := node?_of_mem h
  have hid := id_of_node? hn
  simp only [rank, setRank, node?_map (setRank_id a k), hn, Option.map_some, Option.elim_some, hid]
  split <;> rfl

theorem add_of_mem (hx : x ∈ p.ids) : p.add x = p := by
  obtain ⟨n, hn⟩ := node?_of_mem hx
  rw [add, hn]

theorem add_of_not_mem (hx : x ∉ p.ids) : p.add x = ⟨p.nodes ++ [⟨x, x, 0⟩]⟩ := by
  rw [add, node?_of_not_mem hx]

theorem ids_add (p : Partition) (x : MemoryId) :
    (p.add x).ids = if x ∈ p.ids then p.ids else p.ids ++ [x] := by
  split
  · next hx => rw [add_of_mem hx]
  · next hx => simp [add_of_not_mem hx, ids]

theorem mem_ids_add : y ∈ (p.add x).ids ↔ y ∈ p.ids ∨ y = x := by
  rw [ids_add]
  split
  · next hx => exact ⟨Or.inl, fun h => h.elim id fun heq => heq ▸ hx⟩
  · simp

/-- An id has the node that it had, or that of an id alone in its class. -/
theorem node?_add (p : Partition) (x y : MemoryId) :
    (p.add x).node? y = p.node? y ∨ p.node? y = none ∧ (p.add x).node? y = some ⟨y, y, 0⟩ := by
  by_cases hx : x ∈ p.ids
  · rw [add_of_mem hx]
    exact Or.inl rfl
  · simp only [add_of_not_mem hx, node?, List.find?_append]
    cases p.nodes.find? (·.id = y) with
    | some n => exact Or.inl rfl
    | none =>
      by_cases hxy : x = y
      · exact Or.inr ⟨rfl, by simp [hxy]⟩
      · exact Or.inl (by simp [hxy])

@[simp] theorem parent_add (p : Partition) (x y : MemoryId) : (p.add x).parent y = p.parent y := by
  rcases node?_add p x y with h | ⟨hnone, h⟩
  · simp only [parent, h]
  · simp only [parent, h, hnone, Option.elim_some, Option.elim_none]

@[simp] theorem rank_add (p : Partition) (x y : MemoryId) : (p.add x).rank y = p.rank y := by
  rcases node?_add p x y with h | ⟨hnone, h⟩
  · simp only [rank, h]
  · simp only [rank, h, hnone, Option.elim_some, Option.elim_none]

/-! ## Paths -/

@[simp] theorem pathFrom_zero (p : Partition) (x : MemoryId) : p.pathFrom 0 x = [x] := rfl

theorem pathFrom_step (p : Partition) (fuel : Nat) (x : MemoryId) : p.pathFrom (fuel + 1) x =
    if p.parent x = x then [x] else x :: p.pathFrom fuel (p.parent x) := rfl

theorem pathFrom_of_root (h : p.parent x = x) (fuel : Nat) : p.pathFrom fuel x = [x] := by
  cases fuel with
  | zero => rfl
  | succ fuel => rw [pathFrom_step, if_pos h]

theorem mem_pathFrom_self (p : Partition) (fuel : Nat) (x : MemoryId) : x ∈ p.pathFrom fuel x := by
  cases fuel with
  | zero => simp
  | succ fuel =>
    rw [pathFrom_step]
    split <;> simp

theorem pathFrom_ne_nil (p : Partition) (fuel : Nat) (x : MemoryId) : p.pathFrom fuel x ≠ [] :=
  List.ne_nil_of_mem (mem_pathFrom_self p fuel x)

theorem pathFrom_of_ne (h : p.parent x ≠ x) (fuel : Nat) :
    p.pathFrom (fuel + 1) x = x :: p.pathFrom fuel (p.parent x) := by
  rw [pathFrom_step, if_neg h]

/-- More fuel adds nothing to a path that has come to a root. -/
theorem pathFrom_succ {fuel : Nat} {r : MemoryId}
    (hlast : (p.pathFrom fuel x).getLast? = some r) (hroot : p.parent r = r) :
    p.pathFrom (fuel + 1) x = p.pathFrom fuel x := by
  induction fuel generalizing x with
  | zero =>
    have hx : x = r := by simpa using hlast
    rw [pathFrom_of_root (hx ▸ hroot), pathFrom_of_root (hx ▸ hroot)]
  | succ fuel ih =>
    by_cases hx : p.parent x = x
    · rw [pathFrom_of_root hx, pathFrom_of_root hx]
    · rw [pathFrom_of_ne hx, List.getLast?_cons_of_ne_nil (pathFrom_ne_nil p fuel _)] at hlast
      rw [pathFrom_of_ne hx, pathFrom_of_ne hx, ih hlast]

theorem mem_ids_of_parent_ne (h : p.parent x ≠ x) : x ∈ p.ids :=
  Decidable.byContradiction fun hx => h (parent_of_not_mem hx)

/-- What no step changes is the same all along a path. -/
theorem eq_of_mem_pathFrom {α : Type} {f : MemoryId → α} (hf : ∀ x, f (p.parent x) = f x)
    {fuel : Nat} (h : y ∈ p.pathFrom fuel x) : f y = f x := by
  induction fuel generalizing x with
  | zero => rw [List.mem_singleton.mp h]
  | succ fuel ih =>
    rw [pathFrom_step] at h
    split at h
    · rw [List.mem_singleton.mp h]
    · rcases List.mem_cons.mp h with rfl | h
      · rfl
      · exact (ih h).trans (hf x)

namespace Forest

variable (hp : p.Forest)
include hp

theorem mem_ids_of_mem_pathFrom (hx : x ∈ p.ids) {fuel : Nat} (h : y ∈ p.pathFrom fuel x) :
    y ∈ p.ids := by
  induction fuel generalizing x with
  | zero => rwa [List.mem_singleton.mp h]
  | succ fuel ih =>
    rw [pathFrom_step] at h
    split at h
    · rwa [List.mem_singleton.mp h]
    · rcases List.mem_cons.mp h with rfl | h
      · exact hx
      · exact ih (hp.closed x hx) h

theorem rank_le_of_mem_pathFrom (hx : x ∈ p.ids) {fuel : Nat} (h : y ∈ p.pathFrom fuel x) :
    p.rank x ≤ p.rank y := by
  induction fuel generalizing x with
  | zero => exact Nat.le_of_eq (by rw [List.mem_singleton.mp h])
  | succ fuel ih =>
    rw [pathFrom_step] at h
    split at h
    · exact Nat.le_of_eq (by rw [List.mem_singleton.mp h])
    · next hne =>
      rcases List.mem_cons.mp h with rfl | h
      · exact Nat.le_refl _
      · exact Nat.le_of_lt (Nat.lt_of_lt_of_le (hp.ranked x hx hne) (ih (hp.closed x hx) h))

theorem pairwise_rank_pathFrom (hx : x ∈ p.ids) (fuel : Nat) :
    (p.pathFrom fuel x).Pairwise fun a b => p.rank a < p.rank b := by
  induction fuel generalizing x with
  | zero => exact List.pairwise_singleton _ _
  | succ fuel ih =>
    rw [pathFrom_step]
    split
    · exact List.pairwise_singleton _ _
    · next hne =>
      refine List.pairwise_cons.mpr ⟨fun y hy => ?_, ih (hp.closed x hx)⟩
      exact Nat.lt_of_lt_of_le (hp.ranked x hx hne)
        (hp.rank_le_of_mem_pathFrom (hp.closed x hx) hy)

omit hp in
/-- A path ends at a root unless the fuel runs out. -/
theorem getLast_pathFrom (p : Partition) (fuel : Nat) (x : MemoryId) :
    ∃ front r, p.pathFrom fuel x = front ++ [r] ∧ (p.parent r = r ∨ front.length = fuel) := by
  induction fuel generalizing x with
  | zero => exact ⟨[], x, rfl, Or.inr rfl⟩
  | succ fuel ih =>
    rw [pathFrom_step]
    split
    · next hroot => exact ⟨[], x, rfl, Or.inl hroot⟩
    · obtain ⟨front, r, heq, hend⟩ := ih (p.parent x)
      refine ⟨x :: front, r, by rw [heq]; rfl, hend.imp_right fun hlength => ?_⟩
      rw [List.length_cons, hlength]

/-- The fuel of `path` does not run out: ranks rise, so that no id comes twice. -/
theorem path_eq (hx : x ∈ p.ids) :
    ∃ front, p.path x = front ++ [p.root x] ∧ p.parent (p.root x) = p.root x := by
  obtain ⟨front, r, heq, hend⟩ := getLast_pathFrom p p.nodes.length x
  have hr : p.root x = r := by simp [root, path, heq]
  refine ⟨front, by rw [hr]; exact heq, ?_⟩
  rw [hr]
  rcases hend with hroot | hlength
  · exact hroot
  · have hnodup : (p.pathFrom p.nodes.length x).Nodup :=
      (hp.pairwise_rank_pathFrom hx _).imp fun hlt heq => by simp [heq] at hlt
    have hsubset : p.pathFrom p.nodes.length x ⊆ p.ids :=
      fun y hy => hp.mem_ids_of_mem_pathFrom hx hy
    have hle := (hnodup.subperm hsubset).length_le
    rw [heq, List.length_append, hlength, ids, List.length_map, List.length_singleton] at hle
    omega

theorem parent_root (x : MemoryId) : p.parent (p.root x) = p.root x := by
  by_cases hx : x ∈ p.ids
  · obtain ⟨front, -, hroot⟩ := hp.path_eq hx
    exact hroot
  · have hparent := parent_of_not_mem hx
    simp [root, path, pathFrom_of_root hparent, hparent]

omit hp in
theorem root_of_parent_eq (h : p.parent x = x) : p.root x = x := by
  simp [root, path, pathFrom_of_root h]

theorem root_mem_path (x : MemoryId) : p.root x ∈ p.path x := by
  by_cases hx : x ∈ p.ids
  · obtain ⟨front, heq, -⟩ := hp.path_eq hx
    rw [heq]
    simp
  · rw [root_of_parent_eq (parent_of_not_mem hx)]
    exact mem_pathFrom_self p _ x

/-- A function that no step changes and that is the identity on roots finds the roots. -/
theorem root_eq {f : MemoryId → MemoryId} (hstep : ∀ x, f (p.parent x) = f x)
    (hroot : ∀ r, p.parent r = r → f r = r) (x : MemoryId) : p.root x = f x := by
  have hsame : f (p.root x) = f x := eq_of_mem_pathFrom hstep (hp.root_mem_path x)
  rw [← hsame, hroot _ (hp.parent_root x)]

theorem root_mem_ids (hx : x ∈ p.ids) : p.root x ∈ p.ids :=
  hp.mem_ids_of_mem_pathFrom hx (hp.root_mem_path x)

theorem getLast?_path (hx : x ∈ p.ids) : (p.path x).getLast? = some (p.root x) := by
  obtain ⟨front, heq, -⟩ := hp.path_eq hx
  rw [heq, List.getLast?_append_of_ne_nil _ (by simp)]
  rfl

theorem root_parent (x : MemoryId) : p.root (p.parent x) = p.root x := by
  by_cases hroot : p.parent x = x
  · rw [hroot]
  have hx : x ∈ p.ids := mem_ids_of_parent_ne hroot
  have hlast : (p.path x).getLast? = some (p.root x) := hp.getLast?_path hx
  obtain ⟨n, hn⟩ : ∃ n, p.nodes.length = n + 1 := by
    obtain ⟨node, hnode, -⟩ := List.mem_map.mp hx
    exact Nat.exists_eq_succ_of_ne_zero (Nat.ne_of_gt (List.length_pos_of_mem hnode))
  have hpath : p.path x = x :: p.pathFrom n (p.parent x) := by
    rw [path, hn, pathFrom_of_ne hroot]
  rw [hpath, List.getLast?_cons_of_ne_nil (pathFrom_ne_nil p n _)] at hlast
  rw [root, path, hn, pathFrom_succ hlast (hp.parent_root x), hlast, Option.getD_some]

/-- Below the root of a path are lower ranks. -/
theorem rank_of_mem_path (hx : x ∈ p.ids) (h : y ∈ p.path x) :
    y = p.root x ∨ p.rank y < p.rank (p.root x) := by
  obtain ⟨front, heq, -⟩ := hp.path_eq hx
  have hranks : (p.path x).Pairwise fun a b => p.rank a < p.rank b :=
    hp.pairwise_rank_pathFrom hx _
  rw [heq, List.pairwise_append] at hranks
  rw [heq] at h
  rcases List.mem_append.mp h with h | h
  · exact Or.inr (hranks.2.2 y h _ (by simp))
  · exact Or.inl (List.mem_singleton.mp h)

theorem root_of_mem_path (h : y ∈ p.path x) : p.root y = p.root x :=
  eq_of_mem_pathFrom hp.root_parent h

/-! ## Redirection -/

theorem setParent {a r : MemoryId} (hr : r ∈ p.ids) (h : a = r ∨ p.rank a < p.rank r) :
    (p.setParent a r).Forest := by
  refine ⟨by simpa using hp.nodup, fun x hx => ?_, fun x hx hne => ?_⟩
  · rw [ids_setParent] at hx ⊢
    rw [parent_setParent hx]
    split
    · exact hr
    · exact hp.closed x hx
  · rw [ids_setParent] at hx
    rw [parent_setParent hx] at hne ⊢
    rw [rank_setParent, rank_setParent]
    split at hne
    · next hxa =>
      rw [if_pos hxa]
      rcases h with har | hlt
      · exact absurd (har ▸ hxa).symm hne
      · exact hxa ▸ hlt
    · next hxa =>
      rw [if_neg hxa]
      exact hp.ranked x hx hne

/-- A root, or an id under the root `r`, is hung under `r`: its class gets the root `r`. -/
theorem root_setParent {a r : MemoryId} (ha : a ∈ p.ids) (hr : r ∈ p.ids) (hroot : p.parent r = r)
    (h : a = r ∨ p.rank a < p.rank r) (hclass : p.root a = r ∨ p.parent a = a) (x : MemoryId) :
    (p.setParent a r).root x = if p.root x = p.root a then r else p.root x := by
  have hq : (p.setParent a r).Forest := hp.setParent hr h
  refine hq.root_eq (f := fun x => if p.root x = p.root a then r else p.root x) (fun x => ?_)
    (fun y hy => ?_) x
  · by_cases hx : x ∈ p.ids
    · rw [parent_setParent hx]
      split
      · next hxa => simp [hxa, root_of_parent_eq hroot]
      · rw [hp.root_parent x]
    · rw [parent_of_not_mem (by simpa using hx)]
  · by_cases hmem : y ∈ p.ids
    · rw [parent_setParent hmem] at hy
      split at hy
      · next hya => rw [hya, if_pos rfl, hy, hya]
      · next hya =>
        rw [root_of_parent_eq hy]
        split
        · next heq =>
          rcases hclass with hclass | hclass
          · rw [heq, hclass]
          · exact absurd (heq.trans (root_of_parent_eq hclass)) hya
        · rfl
    · rw [root_of_parent_eq (parent_of_not_mem hmem)]
      exact if_neg fun (heq : y = p.root a) => hmem (heq ▸ hp.root_mem_ids ha)

theorem setRank {a : MemoryId} {k : Nat} (hroot : p.parent a = a) (hk : p.rank a ≤ k) :
    (p.setRank a k).Forest := by
  refine ⟨by simpa using hp.nodup, fun x hx => ?_, fun x hx hne => ?_⟩
  · rw [ids_setRank] at hx ⊢
    rw [parent_setRank]
    exact hp.closed x hx
  · rw [ids_setRank] at hx
    rw [parent_setRank] at hne ⊢
    have hlt := hp.ranked x hx hne
    have hxa : x ≠ a := fun hxa => hne (hxa ▸ hroot)
    rw [rank_setRank hx, if_neg hxa, rank_setRank (hp.closed x hx)]
    split
    · next hpa => exact Nat.lt_of_lt_of_le (hpa ▸ hlt) hk
    · exact hlt

theorem root_setRank {a : MemoryId} {k : Nat} (hroot : p.parent a = a) (hk : p.rank a ≤ k)
    (x : MemoryId) : (p.setRank a k).root x = p.root x := by
  refine (hp.setRank hroot hk).root_eq (fun x => ?_) (fun r hr => ?_) x
  · rw [parent_setRank, hp.root_parent]
  · rw [parent_setRank] at hr
    exact root_of_parent_eq hr

/-! ## Find -/

/-- Pointing ids at their root changes no root. -/
theorem compress {r : MemoryId} (hr : r ∈ p.ids) (hroot : p.parent r = r) (l : List MemoryId)
    (hl : ∀ a ∈ l, a ∈ p.ids ∧ p.root a = r ∧ (a = r ∨ p.rank a < p.rank r)) :
    (l.foldl (fun q i => q.setParent i r) p).Forest ∧
      (l.foldl (fun q i => q.setParent i r) p).ids = p.ids ∧
      ∀ x, (l.foldl (fun q i => q.setParent i r) p).root x = p.root x := by
  induction l generalizing p with
  | nil => exact ⟨hp, rfl, fun _ => rfl⟩
  | cons a rest ih =>
    obtain ⟨ha, hclass, hrank⟩ := hl a (by simp)
    have hsame : ∀ x, (p.setParent a r).root x = p.root x := by
      intro x
      rw [hp.root_setParent ha hr hroot hrank (Or.inl hclass), hclass]
      split
      · next heq => exact heq.symm
      · rfl
    have hparent : (p.setParent a r).parent r = r := by
      rw [parent_setParent hr, hroot, ite_self]
    obtain ⟨hforest, hids, hroots⟩ := ih (hp.setParent hr hrank) (by simpa using hr) hparent
      (fun b hb => by simpa [hsame] using hl b (List.mem_cons_of_mem a hb))
    exact ⟨hforest, by simpa using hids, fun x => (hroots x).trans (hsame x)⟩

/-- An id that becomes known is its own root, as it was before. -/
theorem add (x : MemoryId) : (p.add x).Forest ∧ ∀ y, (p.add x).root y = p.root y := by
  have hq : (p.add x).Forest := by
    refine ⟨?_, fun y hy => ?_, fun y hy hne => ?_⟩
    · rw [ids_add]
      split
      · exact hp.nodup
      · next hx => exact hp.nodup.append (List.nodup_singleton x) (by simpa using hx)
    · rw [mem_ids_add] at hy ⊢
      rw [parent_add]
      rcases hy with hy | rfl
      · exact Or.inl (hp.closed y hy)
      · by_cases hmem : y ∈ p.ids
        · exact Or.inl (hp.closed y hmem)
        · exact Or.inr (parent_of_not_mem hmem)
    · rw [parent_add] at hne ⊢
      rw [rank_add, rank_add]
      exact hp.ranked y (mem_ids_of_parent_ne hne) hne
  refine ⟨hq, hq.root_eq (fun y => ?_) fun r hr => ?_⟩
  · rw [parent_add, hp.root_parent]
  · rw [parent_add] at hr
    exact root_of_parent_eq hr

/-- `find` gives the root and changes none. -/
theorem find_spec (x : MemoryId) :
    (p.find x).1 = p.root x ∧ (p.find x).2.Forest ∧ (p.find x).2.ids = (p.add x).ids ∧
      ∀ y, (p.find x).2.root y = p.root y := by
  obtain ⟨hq, hroots⟩ := hp.add x
  have hx : x ∈ (p.add x).ids := mem_ids_add.mpr (Or.inr rfl)
  obtain ⟨hforest, hids, hsame⟩ := hq.compress (hq.root_mem_ids hx) (hq.parent_root x)
    ((p.add x).path x) fun a ha =>
      ⟨hq.mem_ids_of_mem_pathFrom hx ha, hq.root_of_mem_path ha, hq.rank_of_mem_path hx ha⟩
  exact ⟨hroots x, hforest, hids, fun y => (hsame y).trans (hroots y)⟩

/-! ## Union -/

omit hp in
theorem setRank_setParent (p : Partition) (a b c : MemoryId) (k : Nat) :
    (p.setParent b c).setRank a k = (p.setRank a k).setParent b c := by
  simp only [Partition.setRank, Partition.setParent, List.map_map, Partition.mk.injEq]
  refine List.map_congr_left fun n _ => ?_
  simp only [Function.comp_apply]
  split <;> split <;> simp_all

/-- Of two roots one is hung under the other. -/
theorem link_spec {a b : MemoryId} (ha : a ∈ p.ids) (hb : b ∈ p.ids) (hra : p.parent a = a)
    (hrb : p.parent b = b) :
    (p.link a b).Forest ∧ (p.link a b).ids = p.ids ∧
      ((∀ x, (p.link a b).root x = if p.root x = a then b else p.root x) ∨
        ∀ x, (p.link a b).root x = if p.root x = b then a else p.root x) := by
  unfold link
  split
  · next hlt =>
    refine ⟨hp.setParent hb (Or.inr hlt), by simp, Or.inl fun x => ?_⟩
    rw [hp.root_setParent ha hb hrb (Or.inr hlt) (Or.inr hra), root_of_parent_eq hra]
  · split
    · next hlt =>
      refine ⟨hp.setParent ha (Or.inr hlt), by simp, Or.inr fun x => ?_⟩
      rw [hp.root_setParent hb ha hra (Or.inr hlt) (Or.inr hrb), root_of_parent_eq hrb]
    · next hab hba =>
      have hle : p.rank a ≤ p.rank a + 1 := Nat.le_succ _
      have hq : (p.setRank a (p.rank a + 1)).Forest := hp.setRank hra hle
      have hrank : b = a ∨ (p.setRank a (p.rank a + 1)).rank b <
          (p.setRank a (p.rank a + 1)).rank a := by
        rw [rank_setRank hb, rank_setRank ha]
        by_cases heq : b = a
        · exact Or.inl heq
        · simp only [heq, ↓reduceIte]
          exact Or.inr (by omega)
      rw [setRank_setParent]
      refine ⟨hq.setParent (by simpa using ha) hrank, by simp, Or.inr fun x => ?_⟩
      rw [hq.root_setParent (by simpa using hb) (by simpa using ha) (by simpa using hra) hrank
        (Or.inr (by simpa using hrb))]
      simp only [hp.root_setRank hra hle, root_of_parent_eq hrb]

/-- Whether two ids have one root after the union of `a` and `b`. -/
theorem union_spec (a b : MemoryId) :
    (p.union a b).Forest ∧ (p.union a b).ids = ((p.add a).add b).ids ∧
      ∀ x y, (p.union a b).root x = (p.union a b).root y ↔
        p.root x = p.root y ∨ p.root x = p.root a ∧ p.root y = p.root b ∨
          p.root x = p.root b ∧ p.root y = p.root a := by
  obtain ⟨hroota, hp₁, hids₁, hroots₁⟩ := hp.find_spec a
  obtain ⟨hrootb, hp₂, hids₂, hroots₂⟩ := hp₁.find_spec b
  have hids : ((p.find a).2.find b).2.ids = ((p.add a).add b).ids := by
    rw [hids₂, ids_add, ids_add, hids₁]
  have hroots : ∀ x, ((p.find a).2.find b).2.root x = p.root x :=
    fun x => (hroots₂ x).trans (hroots₁ x)
  have hrb : ((p.find a).2.find b).1 = p.root b := hrootb.trans (hroots₁ b)
  have hknown : ∀ c, c = a ∨ c = b → c ∈ ((p.add a).add b).ids := by
    intro c hc
    rw [mem_ids_add, mem_ids_add]
    exact hc.imp_left Or.inr
  unfold union
  dsimp only
  rw [hroota, hrb]
  generalize ((p.find a).2.find b).2 = q at hp₂ hids hroots
  split
  · next heq =>
    refine ⟨hp₂, hids, fun x y => ?_⟩
    rw [hroots, hroots, heq]
    grind
  · next hne =>
    have hparent : ∀ c, q.parent (p.root c) = p.root c := fun c => by
      rw [← hroots c]
      exact hp₂.parent_root c
    have hroot : ∀ c, c = a ∨ c = b → p.root c ∈ q.ids := fun c hc => by
      rw [← hroots c]
      exact hp₂.root_mem_ids (hids ▸ hknown c hc)
    obtain ⟨hforest, hlinked, hspec⟩ := hp₂.link_spec (a := p.root a) (b := p.root b)
      (hroot a (Or.inl rfl)) (hroot b (Or.inr rfl)) (hparent a) (hparent b)
    refine ⟨hforest, hlinked.trans hids, fun x y => ?_⟩
    rcases hspec with hspec | hspec
    · rw [hspec, hspec, hroots, hroots]
      grind
    · rw [hspec, hspec, hroots, hroots]
      grind

end Forest

end LongTermMemory.Partition
