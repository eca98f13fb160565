import LongTermMemory.Proofs.Operations
import LongTermMemory.Proofs.Store.Tags
import Mathlib.Data.List.Nodup

/-!
Finding what was stored: after a request was accepted, its own strings find the memory again. Tags
are normalized by writers and readers alike. Owners and categories are trimmed by writers only, so
that one with blanks at its ends finds nothing.
-/

namespace LongTermMemory

/-! ## Blank queries -/

namespace Text

theorem runs_eq_nil {p : Char → Bool} {cs : List Char} (h : ∀ c ∈ cs, p c = false) :
    runs p cs = [] := by
  have hsplit : splitRuns p cs = ([], []) := by
    induction cs with
    | nil => rfl
    | cons c cs ih =>
      rw [splitRuns, ih fun b hb => h b (List.mem_cons_of_mem _ hb)]
      simp [h c List.mem_cons_self]
  rw [runs, hsplit]
  rfl

end Text

/-- A query of blanks has no words. -/
theorem Store.queryWords_of_blank {query : String} (h : Text.blank query = true) :
    queryWords query = [] := by
  have hchars := Text.blank_iff.mp h
  rw [queryWords, Text.runs_eq_nil fun c hc => Text.not_alphanumeric_of_isBlank (hchars c hc)]
  rfl

/-! ## Selections -/

/-- A selection by what a request says, of as many memories as there are. -/
structure Selection.Asks (c : Selection) (r : NewMemory) (type : MemoryType) (total : Nat) :
    Prop where
  limit : ∃ n : Nat, c.limit = some (n : Int) ∧ total ≤ n
  offset : c.offset = none
  afterId : c.afterId = none
  tags : c.tags = none ∨ c.tags = some r.tags
  type : c.type = none ∨ c.type = some type
  category : c.category = none ∨ c.category = r.category
  importance : c.minImportance = none ∨ c.minImportance = some r.importance

namespace Store

variable {s : Store} {now : Instant} {owner : String} {c : Selection}

/-- A selection of as many memories as there are leaves out none that it admits. -/
theorem mem_list_iff (hs : s.Sound) {n : Nat} (hlimit : c.limit = some (n : Int))
    (hn : s.memories.length ≤ n) (hoffset : c.offset = none) {k : Memory}
    (hk : k ∈ s.memories) :
    k.readAt now ∈ s.list now owner c ↔ k.owner = owner ∧ c.admits k = true := by
  have hpage : ∀ ms : List Memory, ms.length ≤ n → c.page ms = ms := by
    intro ms hms
    simp [Selection.page, hoffset, hlimit, List.take_of_length_le hms]
  let found := s.memories.filter fun m => m.owner = owner && c.admits m
  have hfound : ((s.entriesOf owner).filter fun e => true && c.admits e.memory).map (·.memory) =
      found := by
    simp only [found, entriesOf, memories, List.filter_map, List.filter_filter]
    congr 2
    funext e
    simp [Bool.and_comm]
  have hlist : s.list now owner c = (c.sorted found).map (·.readAt now) := by
    rw [list, select, hfound, hpage]
    rw [Selection.sorted, List.length_mergeSort]
    exact (List.length_filter_le _ _).trans hn
  rw [hlist, Selection.sorted]
  simp only [List.mem_map, List.mem_mergeSort, found, List.mem_filter, Bool.and_eq_true,
    decide_eq_true_eq]
  constructor
  · rintro ⟨m, ⟨hm, howner, hadmits⟩, hread⟩
    obtain rfl : m = k := List.inj_on_of_nodup_map hs.nodup_ids hm hk
      (show (m.readAt now).id = (k.readAt now).id by rw [hread])
    exact ⟨howner, hadmits⟩
  · rintro ⟨howner, hadmits⟩
    exact ⟨k, ⟨hk, howner, hadmits⟩, rfl⟩

end Store

/-! ## The memory of a request -/

namespace Engine

variable {e : Engine} {now : Instant} {r : NewMemory} {m : Memory} {s s' : Store}

/-- What was stored carries one of the tags of its request, in whatever spelling. -/
theorem carries_newcomer (s : Store) (now : Instant) {tags : List String}
    (h : r.check e.vocabulary = .ok tags) :
    Selection.carries (s.newcomer now { r with tags }) (r.tags.map normalizeTag) = true := by
  obtain ⟨rfl, hne, -⟩ := Vocabulary.validate_eq_ok.mp (NewMemory.check_eq_ok.mp h).2.2.1
  obtain ⟨tag, htag⟩ := List.exists_mem_of_ne_nil _ hne
  obtain ⟨t, ht, hsame⟩ := Store.exists_mem_keepTags s.tagNames htag
  obtain ⟨-, u, hu, rfl⟩ := (Vocabulary.mem_normalForms tag r.tags).mp htag
  simp only [Selection.carries, List.any_eq_true, List.mem_map]
  exact ⟨t, ht, normalizeTag u, ⟨u, hu, rfl⟩, by rwa [Text.NoCase.same_comm]⟩

/-- What is kept of a request that was carried out. -/
theorem exists_kept_of_create (h : e.create now r s = .ok (m, s')) :
    ∃ k, s'.memories = s.memories ++ [k] ∧ k.readAt now = m ∧ Text.blank r.owner = false ∧
      k.owner = Text.trim r.owner ∧ k.archived = false ∧ k.importance = r.importance ∧
      (∀ g, r.category = some g → k.category = Text.trim g) ∧
      Selection.carries k (r.tags.map normalizeTag) = true := by
  obtain ⟨r', hprepare, h⟩ := bind_eq_ok.mp h
  obtain ⟨-, -, -, heq⟩ := Store.create_eq_ok.mp h
  cases heq
  obtain ⟨tags, hcheck, rfl⟩ := prepare_eq_ok hprepare
  have hcarries := carries_newcomer s now hcheck
  refine ⟨_, Store.memories_withNewcomer .., rfl, (NewMemory.check_eq_ok.mp hcheck).1, rfl, rfl,
    rfl, ?_, hcarries⟩
  intro g hg
  simp [Store.newcomer, Store.newMemory, hg]

end Engine

/-- By the strings of its request a memory is found when they have no blanks at their ends. -/
theorem Selection.Asks.admits_iff {c : Selection} {r : NewMemory} {k : Memory} {total : Nat}
    (hc : c.Asks r k.type total) (hactive : k.archived = false)
    (himportance : k.importance = r.importance)
    (hcategory : ∀ g, r.category = some g → k.category = Text.trim g)
    (hcarries : carries k (r.tags.map normalizeTag) = true) :
    c.admits k = true ↔ ∀ g, c.category = some g → Text.trim g = g := by
  have htags : c.matchesTags k = true := by
    unfold matchesTags
    rcases hc.tags with htags | htags
    · rw [htags]
    · rw [htags]
      generalize r.tags = tags at hcarries
      cases tags with
      | nil => rfl
      | cons tag rest => exact hcarries
  have htype : c.type.all (· = k.type) = true := by
    rcases hc.type with htype | htype <;> simp [htype]
  have hleast : c.minImportance.all (· ≤ k.importance) = true := by
    rcases hc.importance with hleast | hleast <;> simp [hleast, himportance]
  simp only [admits, htags, htype, hleast, hactive, hc.afterId, Bool.not_false, Bool.or_true,
    Bool.true_and, Bool.and_true, Option.all_none]
  rcases hc.category with hnone | hsame
  · simp [hnone]
  · rw [hsame]
    cases hg : r.category with
    | none => simp
    | some g => simp [hcategory g hg, eq_comm]

/-! ## Owners -/

namespace Store

/-- An owner has one memory more, which is told in the figures and which the owner may delete. -/
structure Gains (s s' : Store) (owner : String) (k : Memory) : Prop where
  memories : s'.memoriesOf owner = s.memoriesOf owner ++ [k]
  count : s'.count owner = s.count owner + 1
  stats : ∃ figures, Engine.stats owner s' = .ok figures ∧
    figures.totalMemories = (s.stats owner).totalMemories + 1 ∧
    figures.activeMemories = (s.stats owner).activeMemories + 1
  deletable : ∃ s'', Engine.deleteOwned owner k.id s' = .ok s''

/-- An owner has no memory, and no memory of an id to delete. -/
structure Ignores (s : Store) (owner : String) (id : MemoryId) : Prop where
  list : ∀ now c, s.list now owner c = []
  count : s.count owner = 0
  stats : ∃ figures, Engine.stats owner s = .ok figures ∧ figures.totalMemories = 0 ∧
    figures.activeMemories = 0
  undeletable : Engine.deleteOwned owner id s = .error (.notFound id)

theorem Gains.of_append {s s' : Store} {k : Memory} (hs' : s'.Sound)
    (hblank : Text.blank k.owner = false) (hactive : k.archived = false)
    (h : s'.memories = s.memories ++ [k]) : s.Gains s' k.owner k := by
  have hof : s'.memoriesOf k.owner = s.memoriesOf k.owner ++ [k] := by
    simp [memoriesOf_eq, h]
  refine ⟨hof, ?_, ⟨s'.stats k.owner, ?_, ?_, ?_⟩, s'.remove k.id, ?_⟩
  · simp [count_eq, hof]
  · rw [Engine.stats, Invalid.raise_checkOwner hblank]
    rfl
  · simp [Store.stats, hof]
  · simp [Store.stats, hof, hactive]
  · have hk : k ∈ s'.memories := by simp [h]
    have hexists : s'.exists? k.id = true := exists?_iff.mpr ⟨k, hk, rfl⟩
    rw [Engine.deleteOwned, Invalid.raise_checkOwner hblank, hs'.kept?_of_mem hk]
    simp [Bind.bind, Except.bind, delete, hexists]

/-- No memory has an owner with blanks at its ends. -/
theorem Ignores.of_untrimmed {s : Store} (hs : s.Sound) {owner : String}
    (hblank : Text.blank owner = false) (howner : Text.trim owner ≠ owner) (id : MemoryId) :
    s.Ignores owner id := by
  have hother : ∀ m ∈ s.memories, m.owner ≠ owner := by
    rintro m hm rfl
    exact howner (hs.memories m hm).owner.2
  have hof : s.memoriesOf owner = [] := by
    rw [memoriesOf_eq, List.filter_eq_nil_iff]
    intro m hm
    simpa using hother m hm
  refine ⟨fun now c => ?_, ?_, ⟨s.stats owner, ?_, ?_, ?_⟩, ?_⟩
  · have hentries : s.entriesOf owner = [] := List.map_eq_nil_iff.mp hof
    simp [Store.list, select, hentries, Selection.sorted, Selection.page]
  · simp [count_eq, hof]
  · rw [Engine.stats, Invalid.raise_checkOwner hblank]
    rfl
  · simp [Store.stats, hof]
  · simp [Store.stats, hof]
  · rw [Engine.deleteOwned, Invalid.raise_checkOwner hblank]
    simp only [Bind.bind, Except.bind]
    split
    · rfl
    · next m hm => rw [if_neg (hother m (mem_of_kept? hm).1)]

end Store

namespace World

/-- The memory of a request that was carried out is found by the strings of the request, listing
and searching for nothing alike, just when the owner, and the category where one is asked for, have
no blanks at their ends. The owner's figures tell of it and the owner may delete it just when the
owner has none. -/
theorem created_found {p : Engine → Prop} {w : World} (hw : w.Reached p) {e : Engine}
    {now : Instant} {r : NewMemory} {m : Memory} {s' : Store}
    (h : e.create now r w.store = .ok (m, s')) :
    ∃ k ∈ s'.memories, k.readAt now = m ∧
      (∀ (now' : Instant) (c : Selection), c.Asks r m.type s'.memories.length →
        ∃ ms, Engine.list now' r.owner c s' = .ok ms ∧ (k.readAt now' ∈ ms ↔
          Text.trim r.owner = r.owner ∧ ∀ g, c.category = some g → Text.trim g = g)) ∧
      (∀ (now' : Instant) (query : String) (f : SearchFilters), Text.blank query = true →
        f.selection.Asks r m.type s'.memories.length →
        ∃ ms, Engine.search now' r.owner query f s' = .ok ms ∧ (k.readAt now' ∈ ms ↔
          Text.trim r.owner = r.owner ∧ ∀ g, f.category = some g → Text.trim g = g)) ∧
      (Text.trim r.owner = r.owner → w.store.Gains s' r.owner k) ∧
      (Text.trim r.owner ≠ r.owner → s'.Ignores r.owner m.id) := by
  have hsound : s'.Sound := hw.sound.writes (Engine.writes_create h)
  obtain ⟨k, hmemories, hread, hblank, howner, hactive, himportance, hcategory, hcarries⟩ :=
    Engine.exists_kept_of_create h
  have hk : k ∈ s'.memories := by simp [hmemories]
  have hlisted (now' : Instant) {c : Selection} (hc : c.Asks r m.type s'.memories.length) :
      k.readAt now' ∈ s'.list now' r.owner c ↔
        Text.trim r.owner = r.owner ∧ ∀ g, c.category = some g → Text.trim g = g := by
    obtain ⟨n, hlimit, hn⟩ := hc.limit
    have hasks : c.Asks r k.type s'.memories.length := by
      rw [← hread] at hc
      exact hc
    rw [Store.mem_list_iff hsound hlimit hn hc.offset hk, howner,
      hasks.admits_iff hactive himportance hcategory hcarries]
  have hchecked {limit : Option Int} (hlimit : ∃ n : Nat, limit = some (n : Int) ∧
      s'.memories.length ≤ n) : Invalid.raise (Invalid.ifPresent Invalid.checkLimit limit) =
        .ok () := by
    obtain ⟨n, rfl, -⟩ := hlimit
    simp [Invalid.checkLimit_eq_ok]
  refine ⟨k, hk, hread, fun now' c hc => ⟨_, ?_, hlisted now' hc⟩,
    fun now' query f hquery hf => ⟨_, ?_, hlisted now' hf⟩, fun htrim => ?_, fun htrim => ?_⟩
  · rw [Engine.list, Invalid.raise_checkOwner hblank, hchecked hc.limit]
    rfl
  · have hlimit : Invalid.raise (Invalid.ifPresent Invalid.checkLimit f.limit) = .ok () :=
      hchecked hf.limit
    rw [Engine.search, Invalid.raise_checkOwner hblank, hlimit, Store.search,
      Store.queryWords_of_blank hquery]
    rfl
  · rw [htrim] at howner
    rw [← howner] at hblank ⊢
    exact .of_append hsound hblank hactive hmemories
  · exact .of_untrimmed hsound hblank htrim m.id

theorem created_found_tea : ∃ m s', Engine.oneTag.create ⟨0⟩ (tea 5) (start ⟨0⟩).store =
    .ok (m, s') ∧ (∃ ms, Engine.list ⟨0⟩ "ann" { limit := some 1, category := some "personal" } s' =
      .ok ms ∧ m ∈ ms) ∧ ∃ s'', Engine.deleteOwned "ann" m.id s' = .ok s'' := by
  have hcreate : ∃ m s', Engine.oneTag.create ⟨0⟩ (tea 5) (start ⟨0⟩).store = .ok (m, s') ∧
      s'.memories.length = 1 := ⟨_, _, rfl, rfl⟩
  obtain ⟨m, s', hcreate, hone⟩ := hcreate
  obtain ⟨k, -, rfl, hlist, -, hgains, -⟩ :=
    created_found (p := fun _ => True) ⟨⟨0⟩, .refl⟩ hcreate
  have htrimmed : Text.trim (tea 5).owner = (tea 5).owner := by decide
  refine ⟨_, s', hcreate, ?_, (hgains htrimmed).deletable⟩
  obtain ⟨ms, hms, hmem⟩ := hlist ⟨0⟩ { limit := some 1, category := some "personal" }
    ⟨⟨1, rfl, by omega⟩, rfl, rfl, Or.inl rfl, Or.inl rfl, Or.inr rfl, Or.inl rfl⟩
  refine ⟨ms, hms, hmem.mpr ⟨htrimmed, ?_⟩⟩
  intro g hg
  cases hg
  decide

/-- A request whose owner has blanks at the ends. -/
def blankEnds : NewMemory := { tea 5 with owner := " ann " }

theorem created_but_not_found : ∃ m s', Engine.oneTag.create ⟨0⟩ blankEnds (start ⟨0⟩).store =
    .ok (m, s') ∧ s'.memories.length = 1 ∧
      Engine.list ⟨0⟩ blankEnds.owner { limit := some 1 } s' = .ok [] ∧
      s'.count blankEnds.owner = 0 ∧
      Engine.deleteOwned blankEnds.owner m.id s' = .error (.notFound m.id) := by
  have hcreate : ∃ m s', Engine.oneTag.create ⟨0⟩ blankEnds (start ⟨0⟩).store = .ok (m, s') ∧
      s'.memories.length = 1 := ⟨_, _, rfl, rfl⟩
  obtain ⟨m, s', hcreate, hone⟩ := hcreate
  have hblank : Text.blank blankEnds.owner = false := by decide
  have hignores : s'.Ignores blankEnds.owner m.id :=
    .of_untrimmed (Store.sound_empty.writes (Engine.writes_create hcreate)) hblank
      (by decide) m.id
  refine ⟨m, s', hcreate, hone, ?_, hignores.count, hignores.undeletable⟩
  rw [Engine.list, Invalid.raise_checkOwner hblank, hignores.list]
  rfl

end World

end LongTermMemory
