import LongTermMemory.Proofs.Distinct
import LongTermMemory.Proofs.Partition
import LongTermMemory.Proofs.Sorting
import Mathlib.Data.List.Induction
import Mathlib.Logic.Relation
import Mathlib.Data.Int.Order.Basic

/-!
Partitions as disjoint sets. After any finds and unions the classes are those of the smallest
equivalence that relates the ids of each union (`Spans`); a find climbs to a root and ends there
(`Finds`), and gathering the classes with one find after another in any order gives `groups`.
-/

namespace LongTermMemory.Partition

open Relation (EqvGen)

variable {p q : Partition} {x y r : MemoryId}

/-! ## Finds -/

/-- A find as a recursion of any depth: an id not known yet becomes known, and an id on the way to
the root `r` points at it as soon as `r` is found. -/
inductive Finds : Partition → MemoryId → MemoryId → Partition → Prop
  | root {p : Partition} {x : MemoryId} (h : (p.add x).parent x = x) : Finds p x x (p.add x)
  | up {p q : Partition} {x r : MemoryId} (h : (p.add x).parent x ≠ x)
      (hup : Finds (p.add x) ((p.add x).parent x) r q) : Finds p x r (q.setParent x r)

/-- A union as two finds and a link. -/
def Unions (p : Partition) (a b : MemoryId) (q : Partition) : Prop :=
  ∃ rootA rootB p₁ p₂, Finds p a rootA p₁ ∧ Finds p₁ b rootB p₂ ∧
    q = if rootA = rootB then p₂ else p₂.link rootA rootB

theorem Finds.unique {r' : MemoryId} {q' : Partition} (h : Finds p x r q) (h' : Finds p x r' q') :
    r = r' ∧ q = q' := by
  induction h generalizing r' q' with
  | root hroot =>
    cases h' with
    | root => exact ⟨rfl, rfl⟩
    | up hne => exact absurd hroot hne
  | up hne _ ih =>
    cases h' with
    | root hroot => exact absurd hroot hne
    | up _ hup =>
      obtain ⟨rfl, rfl⟩ := ih hup
      exact ⟨rfl, rfl⟩

theorem Finds.of_add (h : Finds (p.add x) x r q) : Finds p x r q := by
  have hadd : (p.add x).add x = p.add x := add_of_mem (mem_ids_add.mpr (Or.inr rfl))
  cases h with
  | root hroot =>
    rw [hadd] at hroot ⊢
    exact .root hroot
  | up hne hup =>
    rw [hadd] at hne hup
    exact .up hne hup

theorem setParent_comm (p : Partition) (a b r : MemoryId) :
    (p.setParent a r).setParent b r = (p.setParent b r).setParent a r := by
  simp only [setParent, List.map_map, Partition.mk.injEq]
  refine List.map_congr_left fun n _ => ?_
  simp only [Function.comp_apply]
  split <;> split <;> simp_all

theorem foldl_setParent (p : Partition) (a r : MemoryId) (l : List MemoryId) :
    l.foldl (fun q i => q.setParent i r) (p.setParent a r) =
      (l.foldl (fun q i => q.setParent i r) p).setParent a r := by
  induction l generalizing p with
  | nil => rfl
  | cons b rest ih => rw [List.foldl_cons, List.foldl_cons, setParent_comm, ih]

namespace Forest

variable (hp : p.Forest)
include hp

/-- A root already points at itself. -/
theorem setParent_self (h : p.parent x = x) : p.setParent x x = p := by
  have hnodes : p.nodes.map (fun n => if n.id = x then { n with parent := x } else n) =
      p.nodes := by
    refine (List.map_congr_left fun n hn => ?_).trans (List.map_id _)
    split
    · next hid =>
      obtain ⟨m, hm⟩ := node?_of_mem (List.mem_map.mpr ⟨n, hn, hid⟩)
      -- Each id has one node, so that this is the one that `parent` reads.
      have heq : m = n := List.inj_on_of_nodup_map hp.nodup (List.mem_of_find?_eq_some hm) hn
        ((id_of_node? hm).trans hid.symm)
      have hparent : n.parent = x := by
        rw [parent, hm, heq] at h
        exact h
      rw [← hparent]
      rfl
    · rfl
  rw [Partition.setParent, hnodes]

theorem finds_root (hx : x ∈ p.ids) (h : p.parent x = x) : Finds p x x (p.setParent x x) := by
  have hfound : Finds p x x (p.add x) := .root (by rwa [parent_add])
  rw [add_of_mem hx] at hfound
  rwa [hp.setParent_self h]

/-- A path that comes to a root is what the recursion passes. -/
theorem finds_of_pathFrom (hx : x ∈ p.ids) {fuel : Nat}
    (hlast : (p.pathFrom fuel x).getLast? = some r) (hroot : p.parent r = r) :
    Finds p x r ((p.pathFrom fuel x).foldl (fun q i => q.setParent i r) p) := by
  induction fuel generalizing x with
  | zero =>
    obtain rfl : x = r := by simpa using hlast
    exact hp.finds_root hx hroot
  | succ fuel ih =>
    by_cases hself : p.parent x = x
    · rw [pathFrom_of_root hself] at hlast ⊢
      obtain rfl : x = r := by simpa using hlast
      exact hp.finds_root hx hself
    · rw [pathFrom_of_ne hself] at hlast ⊢
      rw [List.getLast?_cons_of_ne_nil (pathFrom_ne_nil p fuel _)] at hlast
      rw [List.foldl_cons, foldl_setParent]
      refine .up (by rwa [parent_add]) ?_
      rw [add_of_mem hx]
      exact ih (hp.closed x hx) hlast

/-- `find` is the recursion, which ends in every forest. -/
theorem finds_iff : Finds p x r q ↔ p.find x = (r, q) := by
  have hfound : Finds p x (p.find x).1 (p.find x).2 := by
    obtain ⟨hadded, -⟩ := hp.add x
    have hx : x ∈ (p.add x).ids := mem_ids_add.mpr (Or.inr rfl)
    exact .of_add (hadded.finds_of_pathFrom hx (hadded.getLast?_path hx) (hadded.parent_root x))
  constructor
  · intro h
    obtain ⟨hr, hq⟩ := h.unique hfound
    rw [hr, hq]
  · intro h
    rwa [h] at hfound

/-- So is `union`, whose two finds both end. -/
theorem unions_iff {a b : MemoryId} : Unions p a b q ↔ p.union a b = q := by
  obtain ⟨-, hp₁, -, -⟩ := hp.find_spec a
  constructor
  · rintro ⟨rootA, rootB, p₁, p₂, ha, hb, rfl⟩
    rw [hp.finds_iff] at ha
    rw [ha] at hp₁
    rw [hp₁.finds_iff] at hb
    rw [union, ha]
    dsimp only
    rw [hb]
  · rintro rfl
    exact ⟨_, _, _, _, hp.finds_iff.mpr rfl, hp₁.finds_iff.mpr rfl, rfl⟩

end Forest

/-! ## Runs -/

/-- What is done with a partition between two looks at its classes. -/
inductive Step where
  | find (id : MemoryId)
  | union (a b : MemoryId)
deriving DecidableEq, Repr

/-- The ids that a step makes known. -/
def Step.ids : Step → List MemoryId
  | .find id => [id]
  | .union a b => [a, b]

/-- The ids that a step puts into one class. -/
def Step.joins : Step → List (MemoryId × MemoryId)
  | .find _ => []
  | .union a b => [(a, b)]

def after (p : Partition) : Step → Partition
  | .find id => (p.find id).2
  | .union a b => p.union a b

/-- The partition of some ids, each alone at first, after some steps. -/
def run (ids : List MemoryId) (steps : List Step) : Partition := steps.foldl after (ofIds ids)

/-- The ids that a run has come across, of which some may come twice. -/
def mentioned (ids : List MemoryId) (steps : List Step) : List MemoryId :=
  ids ++ steps.flatMap Step.ids

/-- The smallest equivalence that relates the ids of each union. -/
def Joined (steps : List Step) : MemoryId → MemoryId → Prop :=
  EqvGen fun a b => (a, b) ∈ steps.flatMap Step.joins

/-- A forest of the ids mentioned whose roots tell apart just the ids that are not joined. -/
structure Spans (p : Partition) (mentioned : List MemoryId)
    (pairs : List (MemoryId × MemoryId)) : Prop where
  forest : p.Forest
  known : ∀ x, x ∈ p.ids ↔ x ∈ mentioned
  joined : ∀ x y, p.root x = p.root y ↔ EqvGen (fun a b => (a, b) ∈ pairs) x y

/-- One more pair joins what it links to and nothing else. -/
theorem eqvGen_concat {pairs : List (MemoryId × MemoryId)} {a b : MemoryId} :
    EqvGen (fun c d => (c, d) ∈ pairs ++ [(a, b)]) x y ↔
      EqvGen (fun c d => (c, d) ∈ pairs) x y ∨
        EqvGen (fun c d => (c, d) ∈ pairs) x a ∧ EqvGen (fun c d => (c, d) ∈ pairs) y b ∨
        EqvGen (fun c d => (c, d) ∈ pairs) x b ∧ EqvGen (fun c d => (c, d) ∈ pairs) y a := by
  have hsame (c d : MemoryId) : EqvGen (fun c d => (c, d) ∈ pairs) c d ↔
      Quot.mk (fun c d => (c, d) ∈ pairs) c = Quot.mk (fun c d => (c, d) ∈ pairs) d :=
    ⟨Quot.eqvGen_sound, Quot.eqvGen_exact⟩
  constructor
  · intro h
    simp only [hsame]
    induction h with
    | rel c d hcd =>
      rcases List.mem_append.mp hcd with hcd | hcd
      · exact Or.inl (Quot.sound hcd)
      · obtain ⟨rfl, rfl⟩ : c = a ∧ d = b := by simpa using hcd
        exact Or.inr (Or.inl ⟨rfl, rfl⟩)
    | refl c => exact Or.inl rfl
    | symm c d _ ih => grind
    | trans c d e _ _ ihcd ihde => grind
  · have hmono {c d : MemoryId} (h : EqvGen (fun c d => (c, d) ∈ pairs) c d) :
        EqvGen (fun c d => (c, d) ∈ pairs ++ [(a, b)]) c d :=
      h.mono fun _ _ hcd => List.mem_append_left _ hcd
    have hab : EqvGen (fun c d => (c, d) ∈ pairs ++ [(a, b)]) a b := .rel _ _ (by simp)
    rintro (hxy | ⟨hxa, hyb⟩ | ⟨hxb, hya⟩)
    · exact hmono hxy
    · exact ((hmono hxa).trans _ _ _ hab).trans _ _ _ (hmono hyb).symm
    · exact ((hmono hxb).trans _ _ _ hab.symm).trans _ _ _ (hmono hya).symm

theorem Spans.after {mentioned : List MemoryId} {pairs : List (MemoryId × MemoryId)}
    (h : Spans p mentioned pairs) (step : Step) :
    Spans (p.after step) (mentioned ++ step.ids) (pairs ++ step.joins) := by
  cases step with
  | find id =>
    obtain ⟨-, hforest, hids, hroots⟩ := h.forest.find_spec id
    refine ⟨hforest, fun x => ?_, fun x y => ?_⟩
    · simp only [Partition.after, Step.ids, hids, mem_ids_add, h.known, List.mem_append,
        List.mem_singleton]
    · simp only [Partition.after, Step.joins, hroots, h.joined, List.append_nil]
  | union a b =>
    obtain ⟨hforest, hids, hroots⟩ := h.forest.union_spec a b
    refine ⟨hforest, fun x => ?_, fun x y => ?_⟩
    · simp only [Partition.after, Step.ids, hids, mem_ids_add, h.known, List.mem_append,
        List.mem_cons, List.not_mem_nil, or_false, or_assoc]
    · simp only [Partition.after, Step.joins, hroots, h.joined, eqvGen_concat]

theorem Spans.foldl_after {mentioned : List MemoryId} {pairs : List (MemoryId × MemoryId)}
    (h : Spans p mentioned pairs) (steps : List Step) :
    Spans (steps.foldl Partition.after p) (mentioned ++ steps.flatMap Step.ids)
      (pairs ++ steps.flatMap Step.joins) := by
  induction steps generalizing p mentioned pairs with
  | nil => simpa using h
  | cons step rest ih => simpa using ih (h.after step)

/-- An id that is added alone joins nothing. -/
theorem Spans.foldl_add {mentioned : List MemoryId} {pairs : List (MemoryId × MemoryId)}
    (h : Spans p mentioned pairs) (ids : List MemoryId) :
    Spans (ids.foldl add p) (mentioned ++ ids) pairs := by
  induction ids generalizing p mentioned with
  | nil => simpa using h
  | cons id rest ih =>
    obtain ⟨hforest, hroots⟩ := h.forest.add id
    have hadded : Spans (p.add id) (mentioned ++ [id]) pairs := by
      refine ⟨hforest, fun x => ?_, fun x y => ?_⟩
      · rw [mem_ids_add, h.known, List.mem_append, List.mem_singleton]
      · rw [hroots, hroots, h.joined]
    simpa using ih hadded

theorem spans_empty : Spans ⟨[]⟩ [] [] := by
  have hroot (x : MemoryId) : root ⟨[]⟩ x = x :=
    Forest.root_of_parent_eq (parent_of_not_mem (by simp [ids]))
  refine ⟨⟨List.nodup_nil, by simp [ids], by simp [ids]⟩, by simp [ids], fun x y => ?_⟩
  rw [hroot, hroot]
  constructor
  · rintro rfl
    exact .refl x
  · intro h
    induction h with
    | rel c d hcd => cases hcd
    | refl c => rfl
    | symm c d _ ih => exact ih.symm
    | trans c d e _ _ ihcd ihde => exact ihcd.trans ihde

/-- After any steps from any ids, two ids have one root just when the unions join them. -/
theorem spans_run (ids : List MemoryId) (steps : List Step) :
    Spans (run ids steps) (mentioned ids steps) (steps.flatMap Step.joins) :=
  (spans_empty.foldl_add ids).foldl_after steps

/-! ## Classes -/

/-- The classes of an equivalence on some ids: each strictly ascending, no id in two of them, and
all by their smallest ids. -/
structure AreClasses (known : List MemoryId) (same : MemoryId → MemoryId → Prop)
    (classes : List (List MemoryId)) : Prop where
  nonempty : ∀ c ∈ classes, c ≠ []
  ascending : ∀ c ∈ classes, c.Pairwise (· < ·)
  complete : ∀ x ∈ known, ∃ c ∈ classes, x ∈ c
  related : ∀ c ∈ classes, ∀ x ∈ c, ∀ y, y ∈ c ↔ y ∈ known ∧ same x y
  disjoint : classes.Pairwise List.Disjoint
  ordered : classes.Pairwise fun c d => ∃ x ∈ c, ∀ y ∈ d, x < y

theorem groups_eq_fibers (p : Partition) :
    p.groups = fibers p.root (Ascending.ofList p.ids) := rfl

theorem mem_groups {g : List MemoryId} : g ∈ p.groups ↔ ∃ x ∈ p.ids,
    g = (Ascending.ofList p.ids).filter fun y => p.root y = p.root x := by
  simp only [groups, List.mem_map, List.mem_eraseDups, Ascending.mem_ofList]
  constructor
  · rintro ⟨-, ⟨x, hx, rfl⟩, rfl⟩
    exact ⟨x, hx, rfl⟩
  · rintro ⟨x, hx, rfl⟩
    exact ⟨p.root x, ⟨x, hx, rfl⟩, rfl⟩

theorem mem_of_mem_groups {g : List MemoryId} (hg : g ∈ p.groups) (hx : x ∈ g) :
    y ∈ g ↔ y ∈ p.ids ∧ p.root y = p.root x := by
  obtain ⟨z, -, rfl⟩ := mem_groups.mp hg
  have hroot : p.root x = p.root z := by simpa using (List.mem_filter.mp hx).2
  simp [hroot]

theorem ordered_groups (p : Partition) :
    p.groups.Pairwise fun g g' => ∃ x ∈ g, ∀ y ∈ g', x < y := by
  refine List.pairwise_map.mpr ((pairwise_eraseDups_map (Ascending.pairwise_ofList p.ids)).imp
    fun {r r'} hfirst => ?_)
  obtain ⟨x, hx, hr, hless⟩ := hfirst
  refine ⟨x, List.mem_filter.mpr ⟨hx, by simpa using hr⟩, fun y hy => ?_⟩
  obtain ⟨hy, hr'⟩ := List.mem_filter.mp hy
  exact hless y hy (by simpa using hr')

/-- The groups of a partition are the classes of its ids, related when they have one root. -/
theorem areClasses_groups (p : Partition) :
    AreClasses p.ids (fun x y => p.root x = p.root y) p.groups := by
  constructor
  case nonempty =>
    intro g hg
    obtain ⟨x, hx, rfl⟩ := mem_groups.mp hg
    exact List.ne_nil_of_mem (a := x) (by simpa using hx)
  case ascending =>
    intro g hg
    obtain ⟨x, -, rfl⟩ := mem_groups.mp hg
    exact (Ascending.pairwise_ofList _).filter _
  case complete =>
    intro x hx
    exact ⟨_, mem_groups.mpr ⟨x, hx, rfl⟩, by simpa using hx⟩
  case related =>
    intro g hg x hx y
    rw [mem_of_mem_groups hg hx, eq_comm (a := p.root y)]
  case disjoint =>
    refine (ordered_groups p).imp_of_mem fun {g g'} hg hg' hfirst x hx hx' => ?_
    obtain ⟨a, ha, hless⟩ := hfirst
    -- A shared id would put the first of `g` into `g'`, before itself.
    have hmem : a ∈ g' := (mem_of_mem_groups hg' hx').mpr ((mem_of_mem_groups hg hx).mp ha)
    exact absurd (hless a hmem) (Int.lt_irrefl a)
  case ordered => exact ordered_groups p

theorem AreClasses.congr {known known' : List MemoryId} {same same' : MemoryId → MemoryId → Prop}
    {classes : List (List MemoryId)} (h : AreClasses known same classes)
    (hknown : ∀ x, x ∈ known ↔ x ∈ known') (hsame : ∀ x y, same x y ↔ same' x y) :
    AreClasses known' same' classes := by
  refine { h with complete := fun x hx => ?_, related := fun c hc x hx y => ?_ }
  · exact h.complete x ((hknown x).mpr hx)
  · rw [h.related c hc x hx, hknown, hsame]

/-- Partitions of the same ids with the same roots have the same groups. -/
theorem groups_congr (hids : ∀ x, x ∈ q.ids ↔ x ∈ p.ids) (hroots : ∀ x, q.root x = p.root x) :
    q.groups = p.groups := by
  have hroot : q.root = p.root := funext hroots
  rw [groups_eq_fibers, groups_eq_fibers, hroot, Ascending.ofList_congr hids]

/-! ## Gathering -/

/-- The ids found under each root, in the order in which they come, by one find after another. -/
def collect (p : Partition) (order : List MemoryId) : (MemoryId → List MemoryId) × Partition :=
  order.foldl (fun (byRoot, q) id =>
    (fun r => if r = (q.find id).1 then byRoot r ++ [id] else byRoot r, (q.find id).2))
    (fun _ => [], p)

/-- Classes in any order, each sorted, by their first ids. -/
def arranged (classes : List (List MemoryId)) : List (List MemoryId) :=
  (classes.map fun c => c.mergeSort fun x y => x ≤ y).mergeSort fun c d => c.headD 0 ≤ d.headD 0

theorem headD_mem {c : List MemoryId} (h : c ≠ []) : c.headD 0 ∈ c := by
  cases c with
  | nil => exact absurd rfl h
  | cons x rest => exact List.mem_cons_self

theorem headD_le {c : List MemoryId} (h : c.Pairwise (· < ·)) (hx : x ∈ c) : c.headD 0 ≤ x := by
  cases c with
  | nil => cases hx
  | cons y rest =>
    rcases List.mem_cons.mp hx with rfl | hx
    · exact Int.le_refl _
    · exact Int.le_of_lt (List.rel_of_pairwise_cons h hx)

namespace Forest

variable (hp : p.Forest)
include hp

/-- The finds of `collect` change no root and make no id known that was not. -/
theorem collect_spec {order : List MemoryId} (h : ∀ x ∈ order, x ∈ p.ids) :
    (∀ r, (p.collect order).1 r = order.filter fun x => p.root x = r) ∧
      (p.collect order).2.Forest ∧ (p.collect order).2.ids = p.ids ∧
      ∀ x, (p.collect order).2.root x = p.root x := by
  induction order using List.reverseRecOn with
  | nil => exact ⟨fun _ => rfl, hp, rfl, fun _ => rfl⟩
  | append_singleton order x ih =>
    obtain ⟨hbyRoot, hforest, hids, hroots⟩ := ih fun y hy => h y (List.mem_append_left _ hy)
    obtain ⟨hroot, hforest', hids', hroots'⟩ := hforest.find_spec x
    have hx : x ∈ (p.collect order).2.ids := hids ▸ h x (by simp)
    have hstep : p.collect (order ++ [x]) =
        (fun r => if r = ((p.collect order).2.find x).1 then (p.collect order).1 r ++ [x]
          else (p.collect order).1 r, ((p.collect order).2.find x).2) := by
      rw [collect, List.foldl_append]
      rfl
    rw [hstep]
    refine ⟨fun r => ?_, hforest', ?_, fun y => (hroots' y).trans (hroots y)⟩
    · simp only [hroot, hroots, hbyRoot, List.filter_append]
      by_cases hr : p.root x = r
      · simp [hr]
      · simp [hr, Ne.symm hr]
    · rw [hids', add_of_mem hx, hids]

/-- Whatever the order of the ids and of the roots, what is gathered is the groups. -/
theorem arranged_collect {order roots : List MemoryId} (horder : order.Perm p.ids)
    (hnodup : roots.Nodup) (hroots : ∀ r, r ∈ roots ↔ (p.collect order).1 r ≠ []) :
    arranged (roots.map (p.collect order).1) = p.groups := by
  obtain ⟨hbyRoot, -⟩ := hp.collect_spec fun x hx => horder.mem_iff.mp hx
  have hids : order.Perm (Ascending.ofList p.ids) := by
    refine horder.trans ((List.perm_ext_iff_of_nodup hp.nodup (Ascending.nodup_ofList _)).mpr ?_)
    exact fun x => (Ascending.mem_ofList x p.ids).symm
  have hclass (r : MemoryId) : ((p.collect order).1 r).mergeSort (fun x y => x ≤ y) =
      (Ascending.ofList p.ids).filter fun x => p.root x = r := by
    rw [hbyRoot]
    exact mergeSort_of_ascending id (hids.filter _) ((Ascending.pairwise_ofList p.ids).filter _)
  have hperm : roots.Perm ((Ascending.ofList p.ids).map p.root).eraseDups := by
    refine (List.perm_ext_iff_of_nodup hnodup (nodup_eraseDups _)).mpr fun r => ?_
    rw [hroots, hbyRoot, List.mem_eraseDups, List.mem_map, ne_eq, List.filter_eq_nil_iff]
    simp [horder.mem_iff]
  rw [arranged, List.map_map]
  refine mergeSort_of_ascending (fun c : List MemoryId => c.headD 0) ?_ ?_
  · exact (hperm.map _).trans (.of_eq (List.map_congr_left fun r _ => hclass r))
  · have hclasses := areClasses_groups p
    refine hclasses.ordered.imp_of_mem fun {c d} hc hd hfirst => ?_
    obtain ⟨x, hx, hless⟩ := hfirst
    have hd₀ : d.headD 0 ∈ d := headD_mem (hclasses.nonempty d hd)
    exact Int.lt_of_le_of_lt (headD_le (hclasses.ascending c hc) hx) (hless _ hd₀)

end Forest

/-! ## What a run computes -/

theorem Spans.areClasses {mentioned : List MemoryId} {pairs : List (MemoryId × MemoryId)}
    (h : Spans p mentioned pairs) :
    AreClasses mentioned (EqvGen fun a b => (a, b) ∈ pairs) p.groups :=
  (areClasses_groups p).congr h.known h.joined

/-- After any finds and unions from any ids, the groups are the classes of the smallest equivalence
that relates the ids of each union, over the ids mentioned. Every find and union ends; a find gives
a member of the class of its id, the same for ids of one class only; and neither finds nor the
gathering of the groups, in whatever order, moves an id to another class. -/
theorem run_computes_equivalence (ids : List MemoryId) (steps : List Step) :
    let p := run ids steps
    (∀ x r q, Finds p x r q ↔ p.find x = (r, q)) ∧
    (∀ a b q, Unions p a b q ↔ p.union a b = q) ∧
    AreClasses (mentioned ids steps) (Joined steps) p.groups ∧
    (∀ x, ∃ g ∈ (p.find x).2.groups, x ∈ g ∧ (p.find x).1 ∈ g) ∧
    (∀ x y, (p.find x).1 = ((p.find x).2.find y).1 ↔ Joined steps x y) ∧
    (∀ x y, ((p.find x).2.find y).1 = (p.find y).1) ∧
    (∀ x ∈ mentioned ids steps, (p.find x).2.groups = p.groups) ∧
    ∀ order : List MemoryId, order.Perm p.ids →
      (∀ roots : List MemoryId, roots.Nodup → (∀ r, r ∈ roots ↔ (p.collect order).1 r ≠ []) →
        arranged (roots.map (p.collect order).1) = p.groups) ∧
      (p.collect order).2.groups = p.groups ∧
      ∀ x, ((p.collect order).2.find x).1 = (p.find x).1 := by
  have hspans : Spans (run ids steps) (mentioned ids steps) (steps.flatMap Step.joins) :=
    spans_run ids steps
  have hp : (run ids steps).Forest := hspans.forest
  have hfind (x y : MemoryId) :
      (((run ids steps).find x).2.find y).1 = ((run ids steps).find y).1 := by
    obtain ⟨-, hforest, -, hroots⟩ := hp.find_spec x
    rw [(hforest.find_spec y).1, hroots, (hp.find_spec y).1]
  refine ⟨fun x r q => hp.finds_iff, fun a b q => hp.unions_iff, hspans.areClasses, fun x => ?_,
    fun x y => ?_, hfind, fun x hx => ?_, fun order horder => ⟨fun roots hnodup hroots =>
      hp.arranged_collect horder hnodup hroots, ?_⟩⟩
  · obtain ⟨hroot, hforest, hids, hroots⟩ := hp.find_spec x
    have hx : x ∈ ((run ids steps).find x).2.ids := hids ▸ mem_ids_add.mpr (Or.inr rfl)
    obtain ⟨g, hg, hxg⟩ := (areClasses_groups _).complete x hx
    refine ⟨g, hg, hxg, (mem_of_mem_groups hg hxg).mpr ?_⟩
    rw [hroot, ← hroots x]
    exact ⟨hforest.root_mem_ids hx, Forest.root_of_parent_eq (hforest.parent_root x)⟩
  · rw [hfind, (hp.find_spec x).1, (hp.find_spec y).1]
    exact hspans.joined x y
  · obtain ⟨-, -, hids, hroots⟩ := hp.find_spec x
    refine groups_congr (fun y => ?_) hroots
    rw [hids, add_of_mem ((hspans.known x).mpr hx)]
  · obtain ⟨-, hforest, hids, hroots⟩ := hp.collect_spec fun x hx => horder.mem_iff.mp hx
    refine ⟨groups_congr (fun y => by rw [hids]) hroots, fun x => ?_⟩
    rw [(hforest.find_spec x).1, hroots, (hp.find_spec x).1]

/-- Some unions, one of them of an id with itself, and a find. -/
def fourSteps : List Step := [.union 1 7, .find 9, .union 7 3, .union 4 4]

/-- Ids that were not given at first are found, and one that is given twice is in one class. -/
theorem run_computes_equivalence_fourSteps :
    (run [3, 1, 3] fourSteps).ids = [3, 1, 7, 9, 4] ∧
      arranged ([4, 9, 1].map ((run [3, 1, 3] fourSteps).collect [9, 7, 4, 3, 1]).1) =
        [[1, 3, 7], [4], [9]] := by
  have hp : (run [3, 1, 3] fourSteps).Forest := (spans_run [3, 1, 3] fourSteps).forest
  have horder : [9, 7, 4, 3, 1].Perm (run [3, 1, 3] fourSteps).ids := by decide
  have hroots : [9, 7, 4, 3, 1].map (run [3, 1, 3] fourSteps).root = [9, 1, 4, 1, 1] := by decide
  obtain ⟨-, -, -, -, -, -, -, hgathered⟩ := run_computes_equivalence [3, 1, 3] fourSteps
  obtain ⟨hgroups, -⟩ := hgathered [9, 7, 4, 3, 1] horder
  refine ⟨by decide, (hgroups [4, 9, 1] (by decide) fun r => ?_).trans (by decide)⟩
  obtain ⟨hbyRoot, -⟩ := hp.collect_spec fun x hx => horder.mem_iff.mp hx
  simp only [List.map_cons, List.map_nil, List.cons.injEq, and_true] at hroots
  rw [hbyRoot, ne_eq, List.filter_eq_nil_iff]
  simp only [List.forall_mem_cons, hroots, decide_eq_true_eq]
  grind

end LongTermMemory.Partition
