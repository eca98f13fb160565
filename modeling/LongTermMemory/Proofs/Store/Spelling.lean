import LongTermMemory.Proofs.Operations
import LongTermMemory.Proofs.Store.Tags

/-!
The spelling of kept tags: each tag of a memory is one of the tag names and stands there once, no
two of the names are one name, and where the vocabularies are in normal form, so are the tag names.
-/

namespace LongTermMemory

namespace Store

/-- Memories spell their tags as the tag names do. -/
def Spelled (s : Store) : Prop := ∀ m ∈ s.memories, ∀ t ∈ m.tags, t ∈ s.tagNames

/-- The names after some tags are those before them and some of the tags. -/
theorem mem_names_keepTags {names tags : List String} {n : String}
    (hn : n ∈ (keepTags names tags).2) : n ∈ names ∨ n ∈ tags := by
  have hspell : ∀ (names : List String) (tag : String), n ∈ (spell names tag).2 →
      n ∈ names ∨ n = tag := by
    intro names tag h
    unfold spell at h
    split at h
    · exact Or.inl h
    · simpa using h
  change n ∈ (spellAll names tags).2 at hn
  induction tags generalizing names with
  | nil => exact Or.inl hn
  | cons tag rest ih =>
    rcases ih hn with hn | hn
    · exact (hspell names tag hn).imp_right fun heq => by simp [heq]
    · exact Or.inr (List.mem_cons_of_mem _ hn)

/-- Tags that are names already are kept as they are, and add no name. -/
theorem keepTags_of_names {names tags : List String} (hnames : DistinctNames names)
    (htags : tags ⊆ names) (hnodup : tags.Nodup) :
    keepTags names tags = (tags.mergeSort Text.NoCase.le, names) := by
  have hspell : ∀ t ∈ names, spell names t = (t, names) := by
    intro t ht
    have hfind : names.find? (Text.NoCase.same t) = some t := by
      cases hfind : names.find? (Text.NoCase.same t) with
      | none => simpa using List.find?_eq_none.mp hfind t ht
      | some n =>
        by_cases hne : t = n
        · rw [hne]
        · have hn := hnames.same_eq_false ht (List.mem_of_find?_eq_some hfind) hne
          rw [List.find?_some hfind] at hn
          cases hn
    rw [spell, hfind]
  have hall : spellAll names tags = (tags, names) := by
    induction tags with
    | nil => rfl
    | cons t rest ih =>
      obtain ⟨ht, hrest⟩ := List.nodup_cons.mp hnodup
      simp only [spellAll, hspell t (htags (by simp)),
        ih (fun u hu => htags (by simp [hu])) hrest]
      rw [if_neg (by simpa using ht)]
  rw [keepTags, hall]

variable {v : Vocabulary} {s s' : Store}

/-- A change of one memory that keeps its tags, or gives it others that are kept now. -/
theorem tags_edit {id : MemoryId} {f : Memory → Memory}
    (hm : s'.memories = s.memories.map (·.editAt id f))
    (htags : ∀ m, (f m).tags = m.tags ∨
      ∃ tags, keepTags s.tagNames tags = ((f m).tags, s'.tagNames)) :
    ∀ m' ∈ s'.memories, (∃ m ∈ s.memories, m.tags = m'.tags) ∨
      ∃ tags, keepTags s.tagNames tags = (m'.tags, s'.tagNames) := by
  intro m' hm'
  obtain ⟨m, hmem, rfl⟩ := List.mem_map.mp (hm ▸ hm')
  unfold Memory.editAt
  split
  · exact (htags m).imp_left fun heq => ⟨m, hmem, heq.symm⟩
  · exact Or.inl ⟨m, hmem, rfl⟩

/-- Where the tags of a memory come from in one write: a memory had them before, or they are some
tags as they are kept, and the names with them. -/
theorem tags_write (hw : Write v s s') : ∀ m' ∈ s'.memories,
    (∃ m ∈ s.memories, m.tags = m'.tags) ∨
      ∃ tags, keepTags s.tagNames tags = (m'.tags, s'.tagNames) := by
  cases hw with
  | @create now r =>
    intro m' hm'
    rw [tagNames_withNewcomer]
    rw [memories_withNewcomer] at hm'
    rcases List.mem_append.mp hm' with hm' | hm'
    · exact Or.inl ⟨m', hm', rfl⟩
    · rw [List.mem_singleton.mp hm']
      exact Or.inr ⟨r.tags, rfl⟩
  | @update now id c =>
    refine tags_edit (memories_withChanges ..) fun m => ?_
    have hnames : (s.withChanges now id c).tagNames = (s.changedTags c).2 := rfl
    rw [hnames]
    unfold changedTags
    split
    · exact Or.inl rfl
    · next tags heq => exact Or.inr ⟨tags, rfl⟩
  | remove =>
    intro m' hm'
    rw [memories_remove] at hm'
    obtain ⟨m, hm, rfl⟩ := List.mem_map.mp hm'
    refine Or.inl ⟨m, (List.mem_filter.mp hm).1, ?_⟩
    unfold Memory.orphanedBy
    split <;> rfl
  | access => exact tags_edit (memories_withAccess ..) fun _ => Or.inl rfl
  | context => exact fun m hm => Or.inl ⟨m, hm, rfl⟩
  | relate => exact fun m hm => Or.inl ⟨m, hm, rfl⟩
  | archive => exact tags_edit (memories_modifyMemory ..) fun _ => Or.inl rfl
  | age => exact tags_edit (memories_modifyMemory ..) fun _ => Or.inl rfl

/-- No write drops a name. -/
theorem names_subset_write (hw : Write v s s') : s.tagNames ⊆ s'.tagNames := by
  cases hw with
  | create =>
    rw [tagNames_withNewcomer]
    exact fun _ => mem_keepTags_of_mem
  | @update now id c =>
    change s.tagNames ⊆ (s.changedTags c).2
    unfold changedTags
    split
    · exact List.Subset.refl _
    · exact fun _ => mem_keepTags_of_mem
  | remove | access | context | relate | archive | age => exact List.Subset.refl _

theorem Spelled.write (h : s.Spelled) (hw : Write v s s') : s'.Spelled := by
  intro m' hm' t ht
  rcases tags_write hw m' hm' with ⟨m, hm, heq⟩ | ⟨tags, heq⟩
  · exact names_subset_write hw (h m hm t (heq ▸ ht))
  · have htags : (keepTags s.tagNames tags).1 = m'.tags := congrArg Prod.fst heq
    have hnames : (keepTags s.tagNames tags).2 = s'.tagNames := congrArg Prod.snd heq
    rw [← htags] at ht
    exact hnames ▸ mem_names_of_mem_keepTags ht

theorem nodup_tags_write (h : ∀ m ∈ s.memories, m.tags.Nodup) (hw : Write v s s') :
    ∀ m ∈ s'.memories, m.tags.Nodup := by
  intro m' hm'
  rcases tags_write hw m' hm' with ⟨m, hm, heq⟩ | ⟨tags, heq⟩
  · exact heq ▸ h m hm
  · have htags : (keepTags s.tagNames tags).1 = m'.tags := congrArg Prod.fst heq
    rw [← htags]
    exact nodup_keepTags s.tagNames tags

theorem distinctNames_write (h : DistinctNames s.tagNames) (hw : Write v s s') :
    DistinctNames s'.tagNames := by
  cases hw with
  | @create now r hr hp =>
    rw [tagNames_withNewcomer]
    exact distinct_keepTags h r.tags
  | @update now id c hc =>
    show DistinctNames (s.changedTags c).2
    unfold changedTags
    split
    · exact h
    · exact distinct_keepTags h _
  | remove | access | context | relate | archive | age => exact h

theorem normal_names_write {l : List String}
    (h : ∀ n ∈ s.tagNames, n ≠ "" ∧ normalizeTag n = n) (hw : Write (.ofList l) s s') :
    ∀ n ∈ s'.tagNames, n ≠ "" ∧ normalizeTag n = n := by
  have hkeep {tags : List String} (htags : ∀ t ∈ tags, t ∈ (Vocabulary.ofList l).tags) :
      ∀ n ∈ (keepTags s.tagNames tags).2, n ≠ "" ∧ normalizeTag n = n := fun n hn =>
    (mem_names_keepTags hn).elim (h n) fun hn => Vocabulary.normal_of_mem_ofList (htags n hn)
  cases hw with
  | create hr =>
    rw [tagNames_withNewcomer]
    exact hkeep hr.tags.2.2
  | @update now id c hc =>
    change ∀ n ∈ (s.changedTags c).2, n ≠ "" ∧ normalizeTag n = n
    unfold changedTags
    split
    · exact h
    · next tags heq => exact hkeep (hc.tags tags heq).2.2
  | remove | access | context | relate | archive | age => exact h

end Store

namespace World

theorem Reached.spelled {p : Engine → Prop} {w : World} (hw : w.Reached p) : w.store.Spelled :=
  hw.holds (by simp [Store.Spelled, Store.empty, Store.memories])
    fun _ _ h hwrite => h.write hwrite

/-- No memory carries a tag twice. -/
theorem Reached.nodup_tags {p : Engine → Prop} {w : World} (hw : w.Reached p) :
    ∀ m ∈ w.store.memories, m.tags.Nodup :=
  hw.holds (I := fun s => ∀ m ∈ s.memories, m.tags.Nodup)
    (by simp [Store.empty, Store.memories]) fun _ _ h hwrite => Store.nodup_tags_write h hwrite

theorem Reached.distinctNames {p : Engine → Prop} {w : World} (hw : w.Reached p) :
    Store.DistinctNames w.store.tagNames :=
  hw.holds (I := fun s => Store.DistinctNames s.tagNames) List.Pairwise.nil
    fun _ _ h hwrite => Store.distinctNames_write h hwrite

/-- Engines made of configurations keep names in normal form. -/
theorem Reached.normal_names {p : Engine → Prop} (hp : ∀ e, p e → ∃ c, Engine.ofConfig c = .ok e)
    {w : World} (hw : w.Reached p) : ∀ n ∈ w.store.tagNames, n ≠ "" ∧ normalizeTag n = n := by
  refine hw.holds (I := fun s => ∀ n ∈ s.tagNames, n ≠ "" ∧ normalizeTag n = n)
    (by simp [Store.empty]) fun {e s s'} he _ h hwrite => ?_
  obtain ⟨c, hc⟩ := hp e he
  obtain ⟨_, -, hc⟩ := bind_eq_ok.mp hc
  cases hc
  exact Store.normal_names_write h hwrite

theorem Reached.normal_tags {p : Engine → Prop} (hp : ∀ e, p e → ∃ c, Engine.ofConfig c = .ok e)
    {w : World} (hw : w.Reached p) :
    ∀ m ∈ w.store.memories, ∀ t ∈ m.tags, t ≠ "" ∧ normalizeTag t = t :=
  fun m hm t ht => hw.normal_names hp t (hw.spelled m hm t ht)

end World

end LongTermMemory
