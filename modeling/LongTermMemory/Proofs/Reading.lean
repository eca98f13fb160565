import LongTermMemory.Proofs.Isolation
import LongTermMemory.Proofs.Page
import LongTermMemory.Proofs.Store.Indexed

/-!
Reading for an owner. All owners share the tables, the names of tags and the index of terms, but
what is found for one of them, and what finding it leaves of the owner's memories, is told by these
memories alone.
-/

namespace LongTermMemory

namespace Store

variable {s t : Store} {owner : String}

/-- Lists by ascending ids are told by their members. -/
theorem memoriesOf_ext (hs : s.Sound) (ht : t.Sound)
    (h : ∀ m, m ∈ s.memoriesOf owner ↔ m ∈ t.memoriesOf owner) :
    s.memoriesOf owner = t.memoriesOf owner := by
  have hascending {s : Store} (hs : s.Sound) :
      (s.memoriesOf owner).Pairwise fun a b => a.id < b.id := by
    rw [memoriesOf_eq]
    exact ById.iff_pairwise.mp (hs.ascending.sublist (List.filter_sublist.map _))
  have hnodup {s : Store} (hs : s.Sound) : (s.memoriesOf owner).Nodup :=
    (hascending hs).imp fun {a b} hlt heq => absurd (heq ▸ hlt) (Int.lt_irrefl _)
  exact ((List.perm_ext_iff_of_nodup (hnodup hs) (hnodup ht)).mpr h).eq_of_pairwise
    (fun a b _ _ hab hba => absurd (Int.lt_trans hab hba) (Int.lt_irrefl _))
    (hascending hs) (hascending ht)

/-- What is kept beside the memories follows from them. -/
theorem Indexed.entriesOf_eq (h : s.Indexed) (owner : String) :
    s.entriesOf owner = (s.memoriesOf owner).map Entry.ofMemory := by
  rw [memoriesOf, List.map_map]
  exact (List.map_id _).symm.trans (List.map_congr_left fun e he =>
    (h e (List.mem_filter.mp he).1).symm)

/-! ## Finding -/

section

variable (h : s.entriesOf owner = t.entriesOf owner)
include h

theorem select_eq_of_entriesOf (now : Instant) (c : Selection) (p : Entry → Bool) :
    s.select now owner c p = t.select now owner c p := by
  rw [select, select, h]

theorem search_eq_of_entriesOf (now : Instant) (query : String) (f : SearchFilters) :
    s.search now owner query f = t.search now owner query f := by
  unfold search
  split
  · exact select_eq_of_entriesOf h now f.selection _
  · exact select_eq_of_entriesOf h now f.selection _

end

/-! ## Accessing -/

theorem memoriesOf_withAccess (s : Store) (now : Instant) (id : MemoryId) (n : AccessNote)
    (owner : String) : (s.withAccess now id n).memoriesOf owner =
      (s.memoriesOf owner).map (·.editAt id (accessed now)) := by
  have howner (m : Memory) : (m.editAt id (accessed now)).owner = m.owner := by
    unfold Memory.editAt
    split <;> rfl
  rw [memoriesOf_eq, memories_withAccess, List.filter_map, memoriesOf_eq]
  simp only [Function.comp_def, howner]

/-- An access of a memory of the owner succeeds, and leaves of the owner's memories what they were
and that access. -/
theorem recordAccess_of_mem {m : Memory} (hm : m ∈ s.memoriesOf owner) (now : Instant)
    (n : AccessNote) : ∃ s', s.recordAccess now m.id n = .ok s' ∧
      s'.memoriesOf owner = (s.memoriesOf owner).map (·.editAt m.id (accessed now)) :=
  ⟨_, recordAccess_eq_ok.mpr ⟨exists?_iff.mpr ⟨m, (mem_memoriesOf.mp hm).1, rfl⟩, rfl⟩,
    memoriesOf_withAccess s now m.id n owner⟩

end Store

namespace Engine

variable {s t : Store} {owner : String}

/-- What a call gives, with the memories that it leaves the owner. -/
def leaving {α : Type} (owner : String) (result : Except Error (α × Store)) :
    Except Error (α × List Memory) :=
  (fun a => (a.1, a.2.memoriesOf owner)) <$> result

/-- A result told from the answer alone leaves what the call leaves. -/
theorem leaving_bind_congr {α β : Type} {x y : Except Error (α × Store)}
    (h : leaving owner x = leaving owner y) (f : α → β) :
    leaving owner (x >>= fun a => .ok (f a.1, a.2)) =
      leaving owner (y >>= fun a => .ok (f a.1, a.2)) := by
  have hbind (x : Except Error (α × Store)) : leaving owner (x >>= fun a => .ok (f a.1, a.2)) =
      (fun a => (f a.1, a.2)) <$> leaving owner x := by
    cases x <;> rfl
  rw [hbind, hbind, h]

/-- Accesses of memories of the owner go alike, and leave alike what the owner has. -/
theorem accessAll_of_memoriesOf (now : Instant) (query : String) (found : List (Memory × Score))
    (h : s.memoriesOf owner = t.memoriesOf owner)
    (hfound : ∀ x ∈ found, ∃ m ∈ s.memoriesOf owner, m.id = x.1.id) :
    (accessAll now query found s).1 = (accessAll now query found t).1 ∧
      (accessAll now query found s).2.memoriesOf owner =
        (accessAll now query found t).2.memoriesOf owner := by
  induction found generalizing s t with
  | nil => exact ⟨rfl, h⟩
  | cons x found ih =>
    obtain ⟨k, score⟩ := x
    obtain ⟨m, hm, hid⟩ := hfound (k, score) (by simp)
    have hid : m.id = k.id := hid
    have hmt : m ∈ t.memoriesOf owner := h ▸ hm
    let note : AccessNote := .retrieval query score.total score.relevant
    obtain ⟨s', hs', hleft⟩ := Store.recordAccess_of_mem hm now note
    obtain ⟨t', ht', hleft'⟩ := Store.recordAccess_of_mem hmt now note
    have hfound' : ∀ x ∈ found, ∃ m ∈ s'.memoriesOf owner, m.id = x.1.id := by
      intro x hx
      obtain ⟨j, hj, hjid⟩ := hfound x (by simp [hx])
      have hsame : (j.editAt m.id (Store.accessed now)).id = j.id :=
        Memory.editAt_id (f := Store.accessed now) (fun _ => rfl) j
      rw [hleft]
      exact ⟨_, List.mem_map_of_mem hj, hsame.trans hjid⟩
    obtain ⟨hanswer, hrest⟩ := ih (hleft.trans (h ▸ hleft'.symm)) hfound'
    rw [hid] at hs' ht'
    unfold accessAll
    rw [hs', ht']
    dsimp only
    exact ⟨by rw [hanswer], hrest⟩

section

variable (h : s.entriesOf owner = t.entriesOf owner)
include h

theorem list_of_entriesOf (now : Instant) (c : Selection) :
    list now owner c s = list now owner c t := by
  rw [list, list, Store.list, Store.list, Store.select_eq_of_entriesOf h]

theorem search_of_entriesOf (now : Instant) (query : String) (f : SearchFilters) :
    search now owner query f s = search now owner query f t := by
  rw [search, search, Store.search_eq_of_entriesOf h]

theorem leaving_retrieveScored (e : Engine) (now : Instant) (query : String) (limit : Int) :
    leaving owner (e.retrieveScored now owner query limit s) =
      leaving owner (e.retrieveScored now owner query limit t) := by
  have hmemories : s.memoriesOf owner = t.memoriesOf owner := by
    rw [Store.memoriesOf, h]
    rfl
  have hcandidates : e.candidates now owner s = e.candidates now owner t :=
    list_of_entriesOf h now _
  unfold retrieveScored
  rw [hcandidates]
  cases Invalid.raise (Invalid.checkOwner owner) with
  | error cause => rfl
  | ok _ =>
    cases Invalid.raise (Invalid.checkLimit limit) with
    | error cause => rfl
    | ok _ =>
      cases hpool : e.candidates now owner t with
      | error cause => rfl
      | ok pool =>
        have hfound : ∀ x ∈ (e.config.retrieval.rank now query pool).take limit.toNat,
            ∃ m ∈ s.memoriesOf owner, m.id = x.1.id := by
          intro x hx
          obtain ⟨m, hm, rfl⟩ := List.mem_map.mp (List.mem_mergeSort.mp (List.mem_of_mem_take hx))
          obtain ⟨k, hk, rfl⟩ := shows_list (hcandidates.trans hpool) m hm
          exact ⟨k, hk, rfl⟩
        obtain ⟨hanswer, hleft⟩ := accessAll_of_memoriesOf now query _ hmemories hfound
        exact congrArg Except.ok (Prod.ext hanswer hleft)

theorem leaving_retrieve (e : Engine) (now : Instant) (query : String) (limit : Option Int) :
    leaving owner (e.retrieve now owner query limit s) =
      leaving owner (e.retrieve now owner query limit t) :=
  leaving_bind_congr (leaving_retrieveScored h e now query _) (List.map Prod.fst)

theorem leaving_retrieveContext (e : Engine) (now : Instant) (query : String)
    (maxLength : Option Nat) :
    leaving owner (e.retrieveContext now owner query maxLength s) =
      leaving owner (e.retrieveContext now owner query maxLength t) :=
  leaving_bind_congr (leaving_retrieve h e now query none) fun found =>
    ContextBlock.format e.config.retrieval e.config.context now found query
      (maxLength.getD e.config.context.maxLength)

end

end Engine

namespace World

/-- Reads for an owner give the same on any two stores in which the owner has the same memories,
whatever others have in them, and leave the owner the same memories. -/
theorem reads_depend_on_owner {p₁ p₂ : Engine → Prop} {w₁ w₂ : World} (hw₁ : w₁.Reached p₁)
    (hw₂ : w₂.Reached p₂) {owner : String}
    (h : ∀ m, m ∈ w₁.store.memoriesOf owner ↔ m ∈ w₂.store.memoriesOf owner) (e : Engine)
    (now : Instant) :
    (∀ c, Engine.list now owner c w₁.store = Engine.list now owner c w₂.store) ∧
    (∀ query f, Engine.search now owner query f w₁.store =
      Engine.search now owner query f w₂.store) ∧
    w₁.store.count owner = w₂.store.count owner ∧
    (∀ query limit, Engine.leaving owner (e.retrieve now owner query limit w₁.store) =
      Engine.leaving owner (e.retrieve now owner query limit w₂.store)) ∧
    ∀ query maxLength, Engine.leaving owner (e.retrieveContext now owner query maxLength w₁.store) =
      Engine.leaving owner (e.retrieveContext now owner query maxLength w₂.store) := by
  have hmemories := Store.memoriesOf_ext hw₁.sound hw₂.sound h
  have hentries : w₁.store.entriesOf owner = w₂.store.entriesOf owner := by
    rw [hw₁.indexed.entriesOf_eq, hw₂.indexed.entriesOf_eq, hmemories]
  exact ⟨Engine.list_of_entriesOf hentries now, Engine.search_of_entriesOf hentries now,
    congrArg List.length hentries, Engine.leaving_retrieve hentries e now,
    Engine.leaving_retrieveContext hentries e now⟩

/-- Beside a memory of another owner that is tied to hers, ann finds what she found without it. -/
theorem reads_depend_on_owner_sharedTeas :
    (∀ m, m ∈ (withTea ⟨0⟩ 5).store.memoriesOf "ann" ↔ m ∈ sharedTeas.store.memoriesOf "ann") ∧
    sharedTeas.store.count "ann" = 1 ∧ sharedTeas.store.count "bob" = 1 ∧
    Engine.leaving "ann" (Engine.oneTag.retrieve ⟨0⟩ "ann" "tea" none sharedTeas.store) =
      Engine.leaving "ann"
        (Engine.oneTag.retrieve ⟨0⟩ "ann" "tea" none (withTea ⟨0⟩ 5).store) := by
  have hsame : (withTea ⟨0⟩ 5).store.memoriesOf "ann" = sharedTeas.store.memoriesOf "ann" := rfl
  have hmem : ∀ m, m ∈ (withTea ⟨0⟩ 5).store.memoriesOf "ann" ↔
      m ∈ sharedTeas.store.memoriesOf "ann" := fun m => hsame ▸ Iff.rfl
  obtain ⟨-, -, -, hretrieve, -⟩ := reads_depend_on_owner (reached_withTea ⟨0⟩ 5) reached_sharedTeas
    hmem .oneTag ⟨0⟩
  exact ⟨hmem, rfl, rfl, (hretrieve "tea" none).symm⟩

end World

end LongTermMemory
