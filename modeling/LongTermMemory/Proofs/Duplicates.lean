import LongTermMemory.Proofs.Store.Indexed

/-!
Duplicates. The store looks for a memory that says the same by the digest of its content. Since the
digest beside a memory is always that of its present content, the search finds just the memories
with this content, as long as the digest tells the contents at hand apart.
-/

namespace LongTermMemory

/-- No two of some contents have one digest. -/
def Digest.TellsApart (contents : List String) : Prop :=
  ∀ a ∈ contents, ∀ b ∈ contents, ofContent a = ofContent b → a = b

theorem Digest.TellsApart.of_subset {contents contents' : List String}
    (h : Digest.TellsApart contents') (hsubset : contents ⊆ contents') :
    Digest.TellsApart contents :=
  fun a ha b hb => h a (hsubset ha) b (hsubset hb)

/-- An active memory of an owner, a type and a category with a content, all as they are stored. -/
structure Memory.Says (m : Memory) (owner : String) (type : MemoryType)
    (category content : String) : Prop where
  owner : m.owner = owner
  type : m.type = type
  category : m.category = category
  content : m.content = content
  active : m.archived = false

/-- An entry that the search by digest may take. -/
structure Entry.Matches (e : Entry) (owner : String) (type : MemoryType)
    (category content : String) : Prop where
  owner : e.memory.owner = owner
  type : e.memory.type = type
  category : e.memory.category = category
  digest : e.digest = Digest.ofContent content
  active : e.memory.archived = false

namespace Store

variable {s : Store} {owner category content : String} {type : MemoryType} {id : MemoryId}

/-- The search comes to an entry that matches, and to none only where no entry does. -/
theorem findDuplicate?_spec (s : Store) (owner : String) (type : MemoryType)
    (category content : String) :
    (s.findDuplicate? owner type category content = none ↔
      ∀ e ∈ s.entries, ¬ e.Matches owner type category content) ∧
    ∀ id, s.findDuplicate? owner type category content = some id →
      ∃ e ∈ s.entries, e.memory.id = id ∧ e.Matches owner type category content := by
  have hmatches (e : Entry) : (e.memory.owner = owner && e.memory.type = type &&
      e.memory.category = category && e.digest = Digest.ofContent content &&
        !e.memory.archived) = true ↔ e.Matches owner type category content := by
    simp only [Bool.and_eq_true, decide_eq_true_eq, Bool.not_eq_true']
    constructor
    · rintro ⟨⟨⟨⟨howner, htype⟩, hcategory⟩, hdigest⟩, hactive⟩
      exact ⟨howner, htype, hcategory, hdigest, hactive⟩
    · rintro ⟨howner, htype, hcategory, hdigest, hactive⟩
      exact ⟨⟨⟨⟨howner, htype⟩, hcategory⟩, hdigest⟩, hactive⟩
  unfold findDuplicate?
  constructor
  · rw [Option.map_eq_none_iff, List.find?_eq_none]
    exact forall₂_congr fun e _ => not_congr (hmatches e)
  · intro id hid
    obtain ⟨e, hfind, rfl⟩ := Option.map_eq_some_iff.mp hid
    have hfound := List.find?_some hfind
    exact ⟨e, List.mem_of_find?_eq_some hfind, rfl, (hmatches e).mp hfound⟩

/-- Where digests follow the contents and tell them apart, matching is saying the same. -/
theorem Indexed.matches_iff (h : s.Indexed)
    (hdigests : Digest.TellsApart (content :: s.memories.map (·.content))) {e : Entry}
    (he : e ∈ s.entries) :
    e.Matches owner type category content ↔ e.memory.Says owner type category content := by
  have hdigest : e.digest = Digest.ofContent e.memory.content := by rw [← h e he]; rfl
  have hmem : e.memory.content ∈ content :: s.memories.map (·.content) :=
    List.mem_cons_of_mem _ (List.mem_map_of_mem (List.mem_map_of_mem he))
  constructor
  · rintro ⟨howner, htype, hcategory, hsame, hactive⟩
    exact ⟨howner, htype, hcategory,
      hdigests _ hmem _ List.mem_cons_self (hdigest.symm.trans hsame), hactive⟩
  · rintro ⟨howner, htype, hcategory, rfl, hactive⟩
    exact ⟨howner, htype, hcategory, hdigest, hactive⟩

end Store

namespace World

/-- In every store that was reached the search for a duplicate finds a memory just where an active
one of the owner, the type and the category has this very content, and what it finds is such a
memory; so are all the entries that it might take. The digest must tell apart no more than the text
and the contents that are stored. -/
theorem duplicates_found_exactly {p : Engine → Prop} {w : World} (hw : w.Reached p)
    (owner : String) (type : MemoryType) (category content : String)
    (hdigests : Digest.TellsApart (content :: w.store.memories.map (·.content))) :
    ((∃ id, w.store.findDuplicate? owner type category content = some id) ↔
      ∃ m ∈ w.store.memories, m.Says owner type category content) ∧
    (∀ id, w.store.findDuplicate? owner type category content = some id →
      ∃ m, w.store.kept? id = some m ∧ m.Says owner type category content) ∧
    ∀ e ∈ w.store.entries, e.Matches owner type category content ↔
      e.memory.Says owner type category content := by
  obtain ⟨hnone, hsome⟩ := w.store.findDuplicate?_spec owner type category content
  have hiff : ∀ e ∈ w.store.entries, e.Matches owner type category content ↔
      e.memory.Says owner type category content := fun e he => hw.indexed.matches_iff hdigests he
  refine ⟨⟨?_, ?_⟩, fun id hid => ?_, hiff⟩
  · rintro ⟨id, hid⟩
    obtain ⟨e, he, -, hmatches⟩ := hsome id hid
    exact ⟨e.memory, List.mem_map_of_mem he, (hiff e he).mp hmatches⟩
  · rintro ⟨m, hm, hsays⟩
    obtain ⟨e, he, rfl⟩ := List.mem_map.mp hm
    refine Option.ne_none_iff_exists'.mp fun hid => ?_
    exact hnone.mp hid e he ((hiff e he).mpr hsays)
  · obtain ⟨e, he, rfl, hmatches⟩ := hsome id hid
    exact ⟨e.memory, hw.sound.kept?_of_mem (List.mem_map_of_mem he), (hiff e he).mp hmatches⟩

/-- The first memory has a new content, the second one was archived and brought back. -/
def rewrittenTeas : World :=
  [.create (tea 5), .create { tea 5 with content := "green tea" },
    .update 1 { content := some "cocoa" }, .update 2 { archived := some true },
    .update 2 { archived := some false }, .create (tea 5), .delete 3].foldl
    (fun w op => Engine.oneTag.perform op w) (start ⟨0⟩)

theorem reached_rewrittenTeas : rewrittenTeas.Reached (· = .oneTag) :=
  ⟨⟨0⟩, runs_foldl (p := (· = .oneTag)) rfl _ _⟩

/-- The old content of the first memory is not found any more, nor that of the deleted one. -/
theorem duplicates_found_exactly_rewrittenTeas :
    rewrittenTeas.store.memories.map (·.content) = ["cocoa", "green tea"] ∧
    (∃ id, rewrittenTeas.store.findDuplicate? "ann" .preference "personal" "cocoa" = some id) ∧
    ¬∃ id, rewrittenTeas.store.findDuplicate? "ann" .preference "personal" "tea" = some id := by
  have hcontents : rewrittenTeas.store.memories.map (·.content) = ["cocoa", "green tea"] := by
    decide
  have hdigests : Digest.TellsApart ["tea", "cocoa", "green tea"] := by
    unfold Digest.TellsApart
    decide +kernel
  obtain ⟨hcocoa, -⟩ := duplicates_found_exactly reached_rewrittenTeas "ann" .preference
    "personal" "cocoa" (hdigests.of_subset (by rw [hcontents]; decide))
  obtain ⟨htea, -⟩ := duplicates_found_exactly reached_rewrittenTeas "ann" .preference
    "personal" "tea" (hdigests.of_subset (by rw [hcontents]; decide))
  refine ⟨hcontents, hcocoa.mpr ⟨_, List.mem_cons_self, ⟨rfl, rfl, rfl, rfl, rfl⟩⟩,
    htea.not.mpr ?_⟩
  rintro ⟨m, hm, hsays⟩
  have hcontent := List.mem_map_of_mem (f := (·.content)) hm
  rw [hcontents, hsays.content] at hcontent
  revert hcontent
  decide

end World

end LongTermMemory
