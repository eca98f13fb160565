import LongTermMemory.Proofs.DisjointSets
import LongTermMemory.Proofs.Page

/-!
The groups of a consolidation are the connected components of the similarity of memories: `Linked`
memories are joined by a chain of similar ones, and the partition joins just the linked ones.
-/

namespace LongTermMemory

open Relation (ReflTransGen EqvGen)

/-! ## Similarity -/

theorem jaccard_comm {a b : List String} (ha : a.Nodup) (hb : b.Nodup) :
    jaccard a b = jaccard b a := by
  have hperm : (a.filter b.contains).Perm (b.filter a.contains) := by
    refine (List.perm_ext_iff_of_nodup (ha.filter _) (hb.filter _)).mpr fun s => ?_
    simp [and_comm]
  have hshared : a.countP b.contains = b.countP a.contains := by
    rw [List.countP_eq_length_filter, List.countP_eq_length_filter, hperm.length_eq]
  unfold jaccard
  rw [hshared, Nat.add_comm b.length]

theorem Memory.similar_comm (c : ConsolidationConfig) (a b : Memory) :
    a.similar c b = b.similar c a := by
  have htags : jaccard a.tagSet b.tagSet = jaccard b.tagSet a.tagSet :=
    jaccard_comm (Ascending.nodup_ofList _) (Ascending.nodup_ofList _)
  have htokens : jaccard a.tokenSet b.tokenSet = jaccard b.tokenSet a.tokenSet :=
    jaccard_comm (Ascending.nodup_ofList _) (Ascending.nodup_ofList _)
  unfold similar Features.similar features
  rw [htags, htokens]

/-- A chain of memories of a list, each similar to the next, leads from one memory to another. -/
def Linked (c : ConsolidationConfig) (memories : List Memory) : Memory → Memory → Prop :=
  ReflTransGen fun a b => a ∈ memories ∧ b ∈ memories ∧ a.similar c b = true

namespace Linked

variable {c : ConsolidationConfig} {memories : List Memory} {a b : Memory}

theorem symm (h : Linked c memories a b) : Linked c memories b a := by
  induction h with
  | refl => exact .refl
  | tail _ hstep ih =>
    obtain ⟨hb, hd, hsimilar⟩ := hstep
    exact ih.head ⟨hd, hb, by rwa [Memory.similar_comm]⟩

theorem mono {memories' : List Memory} (hsub : memories ⊆ memories')
    (h : Linked c memories a b) : Linked c memories' a b := by
  induction h with
  | refl => exact .refl
  | tail _ hstep ih => exact ih.tail ⟨hsub hstep.1, hsub hstep.2.1, hstep.2.2⟩

theorem mem (h : Linked c memories a b) (ha : a ∈ memories) : b ∈ memories := by
  induction h with
  | refl => exact ha
  | tail _ hstep _ => exact hstep.2.1

end Linked

/-- The connected components of more than one memory, each in the order of the list, and in the
order of their smallest ids. -/
structure AreComponents (c : ConsolidationConfig) (memories : List Memory)
    (groups : List (List Memory)) : Prop where
  sublist : ∀ group ∈ groups, group.Sublist memories
  several : ∀ group ∈ groups, 1 < group.length
  linked : ∀ group ∈ groups, ∀ a ∈ group, ∀ b, b ∈ group ↔ Linked c memories a b
  complete : ∀ a ∈ memories, ∀ b, Linked c memories a b → a ≠ b → ∃ group ∈ groups, a ∈ group
  ordered : groups.Pairwise fun g g' => ∃ a ∈ g, ∀ b ∈ g', a.id < b.id

theorem AreComponents.nonempty {c : ConsolidationConfig} {memories : List Memory}
    {groups : List (List Memory)} (h : AreComponents c memories groups) {group : List Memory}
    (hgroup : group ∈ groups) : group ≠ [] :=
  List.ne_nil_of_length_pos (Nat.lt_trans Nat.zero_lt_one (h.several group hgroup))

/-- Components share no member. -/
theorem AreComponents.disjoint {c : ConsolidationConfig} {memories : List Memory}
    {groups : List (List Memory)} (h : AreComponents c memories groups) :
    groups.Pairwise fun g g' => ∀ m ∈ g, m ∉ g' := by
  refine h.ordered.imp_of_mem fun {g g'} hg hg' hfirst m hm hm' => ?_
  obtain ⟨a, ha, hless⟩ := hfirst
  -- A shared member would put the first of `g` into `g'`, before itself.
  have hlinked : Linked c memories m a := ((h.linked g hg a ha m).mp hm).symm
  exact absurd (hless a ((h.linked g' hg' m hm' a).mpr hlinked)) (Int.lt_irrefl _)

/-! ## Pairs -/

theorem mem_pairs {α : Type} {l : List α} {a b : α} (h : (a, b) ∈ pairs l) : a ∈ l ∧ b ∈ l := by
  induction l with
  | nil => simp [pairs] at h
  | cons x rest ih =>
    rw [pairs, List.mem_append] at h
    rcases h with h | h
    · obtain ⟨y, hy, heq⟩ := List.mem_map.mp h
      cases heq
      exact ⟨by simp, List.mem_cons_of_mem a hy⟩
    · exact ⟨List.mem_cons_of_mem x (ih h).1, List.mem_cons_of_mem x (ih h).2⟩

theorem mem_pairs_or {α : Type} {l : List α} {a b : α} (ha : a ∈ l) (hb : b ∈ l) :
    a = b ∨ (a, b) ∈ pairs l ∨ (b, a) ∈ pairs l := by
  induction l with
  | nil => cases ha
  | cons x rest ih =>
    simp only [pairs, List.mem_append, List.mem_map]
    rcases List.mem_cons.mp ha with rfl | harest
    · rcases List.mem_cons.mp hb with rfl | hbrest
      · exact Or.inl rfl
      · exact Or.inr (Or.inl (Or.inl ⟨b, hbrest, rfl⟩))
    · rcases List.mem_cons.mp hb with rfl | hbrest
      · exact Or.inr (Or.inr (Or.inl ⟨a, harest, rfl⟩))
      · exact (ih harest hbrest).imp_right (Or.imp Or.inr Or.inr)

namespace ConsolidationConfig

variable {c : ConsolidationConfig} {memories : List Memory} {a b : Memory}

/-- The ids of the similar pairs, in the order in which they are joined. -/
def similarIds (c : ConsolidationConfig) (memories : List Memory) :
    List (MemoryId × MemoryId) :=
  ((pairs (memories.map Memory.features)).filter fun e => e.1.similar c e.2).map
    fun e => (e.1.id, e.2.id)

theorem partition_eq (c : ConsolidationConfig) (memories : List Memory) :
    c.partition memories = Partition.run (memories.map (·.id))
      ((c.similarIds memories).map fun e => .union e.1 e.2) := by
  have hids : (memories.map Memory.features).map (·.id) = memories.map (·.id) := by
    rw [List.map_map]
    rfl
  rw [Partition.run, List.foldl_map, similarIds, List.foldl_map, List.foldl_filter, partition, hids]
  rfl

theorem mem_similarIds {x y : MemoryId} (h : (x, y) ∈ c.similarIds memories) :
    ∃ a ∈ memories, ∃ b ∈ memories, a.similar c b = true ∧ a.id = x ∧ b.id = y := by
  obtain ⟨⟨f, g⟩, hmem, heq⟩ := List.mem_map.mp h
  obtain ⟨hpair, hsimilar⟩ := List.mem_filter.mp hmem
  obtain ⟨hf, hg⟩ := mem_pairs hpair
  obtain ⟨a, ha, rfl⟩ := List.mem_map.mp hf
  obtain ⟨b, hb, rfl⟩ := List.mem_map.mp hg
  cases heq
  exact ⟨a, ha, b, hb, hsimilar, rfl, rfl⟩

theorem joined_of_similar (ha : a ∈ memories) (hb : b ∈ memories)
    (hsimilar : a.similar c b = true) :
    EqvGen (fun x y => (x, y) ∈ c.similarIds memories) a.id b.id := by
  have hmem : ∀ {f g : Features}, (f, g) ∈ pairs (memories.map Memory.features) →
      f.similar c g = true → (f.id, g.id) ∈ c.similarIds memories := fun hpair h =>
    List.mem_map_of_mem (List.mem_filter.mpr ⟨hpair, h⟩)
  rcases mem_pairs_or (List.mem_map_of_mem (f := Memory.features) ha)
    (List.mem_map_of_mem (f := Memory.features) hb) with heq | hpair | hpair
  · have hid : a.id = b.id := congrArg Features.id heq
    rw [hid]
    exact .refl _
  · exact .rel _ _ (hmem hpair hsimilar)
  · rw [Memory.similar_comm] at hsimilar
    exact (EqvGen.rel _ _ (hmem hpair hsimilar)).symm

/-- Ids that are joined are one id or belong to linked memories. -/
theorem linked_of_joined (h : (memories.map (·.id)).Nodup) {x y : MemoryId}
    (hxy : EqvGen (fun x y => (x, y) ∈ c.similarIds memories) x y) :
    x = y ∨ ∃ a ∈ memories, ∃ b ∈ memories, a.id = x ∧ b.id = y ∧ Linked c memories a b := by
  induction hxy with
  | rel x y hxy =>
    obtain ⟨a, ha, b, hb, hsimilar, hax, hby⟩ := mem_similarIds hxy
    exact Or.inr ⟨a, ha, b, hb, hax, hby, .single ⟨ha, hb, hsimilar⟩⟩
  | refl x => exact Or.inl rfl
  | symm x y _ ih =>
    rcases ih with rfl | ⟨a, ha, b, hb, hax, hby, hab⟩
    · exact Or.inl rfl
    · exact Or.inr ⟨b, hb, a, ha, hby, hax, hab.symm⟩
  | trans x y z _ _ ihxy ihyz =>
    rcases ihxy with rfl | ⟨a, ha, b, hb, hax, hby, hab⟩
    · exact ihyz
    · rcases ihyz with rfl | ⟨d, hd, e, he, hdy, hez, hde⟩
      · exact Or.inr ⟨a, ha, b, hb, hax, hby, hab⟩
      · have hbd : b = d := List.inj_on_of_nodup_map h hb hd (hby.trans hdy.symm)
        exact Or.inr ⟨a, ha, e, he, hax, hez, hab.trans (hbd ▸ hde)⟩

/-- Two memories are in one class when a chain of similar ones links them. -/
theorem partition_spec (h : (memories.map (·.id)).Nodup) :
    (∀ id, id ∈ (c.partition memories).ids ↔ id ∈ memories.map (·.id)) ∧
      ∀ a ∈ memories, ∀ b ∈ memories,
        ((c.partition memories).root a.id = (c.partition memories).root b.id ↔
          Linked c memories a b) := by
  have hspans := Partition.spans_run (memories.map (·.id))
    ((c.similarIds memories).map fun e => .union e.1 e.2)
  have hpairs : ((c.similarIds memories).map fun e => Partition.Step.union e.1 e.2).flatMap
      Partition.Step.joins = c.similarIds memories := by
    rw [List.flatMap_map]
    exact List.flatMap_singleton' _
  rw [← partition_eq, hpairs] at hspans
  refine ⟨fun id => ?_, fun a ha b hb => (hspans.joined a.id b.id).trans ?_⟩
  · rw [hspans.known, Partition.mentioned, List.mem_append, or_iff_left_iff_imp]
    intro hid
    obtain ⟨step, hstep, hid⟩ := List.mem_flatMap.mp hid
    obtain ⟨e, he, rfl⟩ := List.mem_map.mp hstep
    obtain ⟨a, ha, b, hb, -, hea, heb⟩ := mem_similarIds he
    rcases List.mem_pair.mp hid with rfl | rfl
    · exact hea ▸ List.mem_map_of_mem ha
    · exact heb ▸ List.mem_map_of_mem hb
  constructor
  · intro hjoined
    rcases linked_of_joined h hjoined with heq | ⟨a', ha', b', hb', hida, hidb, hab⟩
    · rw [List.inj_on_of_nodup_map h ha hb heq]
      exact .refl
    · rwa [← List.inj_on_of_nodup_map h ha' ha hida, ← List.inj_on_of_nodup_map h hb' hb hidb]
  · intro hlinked
    clear hb
    induction hlinked with
    | refl => exact .refl _
    | tail _ hstep ih =>
      obtain ⟨hd, he, hsimilar⟩ := hstep
      exact ih.trans _ _ _ (joined_of_similar hd he hsimilar)

/-- Of memories with different ids just one has the id of a member. -/
theorem find?_reverse_iff (h : (memories.map (·.id)).Nodup) {id : MemoryId} {m : Memory} :
    memories.reverse.find? (fun k => k.id = id) = some m ↔ m ∈ memories ∧ m.id = id := by
  have hsome {k : Memory} (hk : memories.reverse.find? (fun k => k.id = id) = some k) :
      k ∈ memories ∧ k.id = id :=
    ⟨List.mem_reverse.mp (List.mem_of_find?_eq_some hk), by simpa using List.find?_some hk⟩
  refine ⟨hsome, ?_⟩
  rintro ⟨hm, rfl⟩
  cases hk : memories.reverse.find? (fun k => k.id = m.id) with
  | none => simpa using List.find?_eq_none.mp hk m (by simpa using hm)
  | some k =>
    obtain ⟨hmem, hid⟩ := hsome hk
    rw [List.inj_on_of_nodup_map h hmem hm hid]

/-- The memories of some of the ids of a list. -/
theorem filterMap_find? (h : ById memories) {group : List Memory}
    (hgroup : group.Sublist memories) :
    ((group.map (·.id)).filterMap fun id => memories.reverse.find? fun m => m.id = id) = group := by
  rw [List.filterMap_map]
  refine (List.filterMap_congr fun m hm => ?_).trans List.filterMap_some
  exact (find?_reverse_iff h.nodup_ids).mpr ⟨hgroup.subset hm, rfl⟩

/-- The classes of the partition as memories, those of one memory included. -/
def classes (c : ConsolidationConfig) (memories : List Memory) : List (List Memory) :=
  (memories.map fun m => (c.partition memories).root m.id).eraseDups.map fun r =>
    memories.filter fun m => (c.partition memories).root m.id = r

theorem groups_partition (h : ById memories) :
    (c.partition memories).groups = (c.classes memories).map (·.map (·.id)) := by
  unfold Partition.groups classes
  rw [Ascending.ofList_congr (partition_spec h.nodup_ids).1, Ascending.ofList_of_pairwise _ h]
  simp only [List.map_map, List.filter_map]
  rfl

theorem findGroups_eq (h : ById memories) :
    c.findGroups memories = (c.classes memories).filter fun group => 1 < group.length := by
  unfold findGroups
  rw [groups_partition h, List.filter_map, List.map_map]
  simp only [Function.comp_def, List.length_map]
  refine (List.map_congr_left fun group hgroup => ?_).trans (List.map_id _)
  obtain ⟨r, -, rfl⟩ := List.mem_map.mp (List.mem_filter.mp hgroup).1
  exact filterMap_find? h List.filter_sublist

/-- The groups of memories by ascending id are their connected components. -/
theorem areComponents_findGroups (h : ById memories) :
    AreComponents c memories (c.findGroups memories) := by
  have hroot : ∀ a ∈ memories, ∀ b ∈ memories, (c.partition memories).root a.id =
      (c.partition memories).root b.id ↔ Linked c memories a b :=
    (partition_spec h.nodup_ids).2
  rw [findGroups_eq h]
  have hclass : ∀ group ∈ (c.classes memories).filter fun group => 1 < group.length,
      1 < group.length ∧ ∃ r, group =
        memories.filter fun m => (c.partition memories).root m.id = r := by
    intro group hgroup
    obtain ⟨hmem, hlength⟩ := List.mem_filter.mp hgroup
    obtain ⟨r, -, rfl⟩ := List.mem_map.mp hmem
    exact ⟨by simpa using hlength, r, rfl⟩
  constructor
  case sublist =>
    intro group hgroup
    obtain ⟨-, r, rfl⟩ := hclass group hgroup
    exact List.filter_sublist
  case several => exact fun group hgroup => (hclass group hgroup).1
  case linked =>
    intro group hgroup a ha b
    obtain ⟨-, r, rfl⟩ := hclass group hgroup
    obtain ⟨hmem, hr⟩ := List.mem_filter.mp ha
    have hr : (c.partition memories).root a.id = r := by simpa using hr
    rw [List.mem_filter, decide_eq_true_eq, ← hr]
    constructor
    · rintro ⟨hb, hsame⟩
      exact (hroot a hmem b hb).mp hsame.symm
    · intro hlinked
      have hb := hlinked.mem hmem
      exact ⟨hb, ((hroot a hmem b hb).mpr hlinked).symm⟩
  case complete =>
    intro a ha b hlinked hne
    have hb := hlinked.mem ha
    have hsame := (hroot a ha b hb).mpr hlinked
    have hmem : a ∈ memories.filter fun m =>
        (c.partition memories).root m.id = (c.partition memories).root a.id :=
      List.mem_filter.mpr ⟨ha, by simp⟩
    have htwo : [a, b] ⊆ memories.filter fun m =>
        (c.partition memories).root m.id = (c.partition memories).root a.id := by
      simp [ha, hb, hsame]
    have hnodup : [a, b].Nodup := by simpa using hne
    have hlength := (hnodup.subperm htwo).length_le
    refine ⟨_, List.mem_filter.mpr ⟨List.mem_map_of_mem ?_, decide_eq_true hlength⟩, hmem⟩
    exact List.mem_eraseDups.mpr (List.mem_map_of_mem ha)
  case ordered =>
    refine List.Pairwise.filter _ (List.pairwise_map.mpr ?_)
    refine (pairwise_eraseDups_map (ById.iff_pairwise.mp h)).imp fun {r r'} hfirst => ?_
    obtain ⟨a, ha, har, hless⟩ := hfirst
    refine ⟨a, List.mem_filter.mpr ⟨ha, by simpa using har⟩, fun b hb => ?_⟩
    obtain ⟨hb, hbr⟩ := List.mem_filter.mp hb
    exact hless b hb (by simpa using hbr)

end ConsolidationConfig

end LongTermMemory
