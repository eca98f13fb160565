import LongTermMemory.Proofs.Preparation
import Mathlib.Data.List.Pairwise

/-!
The tags of memories as they are kept: of the names of one tag in several spellings the first is
kept, and the tags of a memory stand in the order of names.
-/

namespace LongTermMemory

/-- Kept tags: at least one, in the order of names, all of the vocabulary. -/
structure Vocabulary.Keeps (v : Vocabulary) (tags : List String) : Prop where
  nonempty : tags ≠ []
  ascending : tags.Pairwise fun a b => Text.NoCase.compareNames a b = .lt
  known : ∀ t ∈ tags, t ∈ v.tags

/-- The first spellings: all of the vocabulary, no two of them one name. -/
structure Vocabulary.Spells (v : Vocabulary) (names : List String) : Prop where
  known : ∀ t ∈ names, t ∈ v.tags
  distinct : names.Pairwise fun a b => Text.NoCase.same a b = false

namespace Vocabulary

/-- Without NUL in the vocabulary the order of names is the order of texts. -/
theorem Keeps.pairwise_lt {l tags : List String} (h : (ofList l).Keeps tags)
    (hnul : ∀ t ∈ (ofList l).tags, ∀ c ∈ t.toList, c.toNat ≠ 0) : tags.Pairwise (· < ·) := by
  refine h.ascending.imp_of_mem fun {a b} ha hb hlt => ?_
  have hplain (t : String) (ht : t ∈ tags) : Text.NoCase.Plain t :=
    plain_of_mem_ofList (h.known t ht) (hnul t (h.known t ht))
  exact Text.NoCase.lt_of_plain a b (hplain a ha) (hplain b hb) hlt

end Vocabulary

namespace Store

variable {v : Vocabulary}

/-! ## Names -/

theorem mem_spell (names : List String) (tag : String) :
    (spell names tag).1 ∈ (spell names tag).2 := by
  unfold spell
  split
  · next name hfind => exact List.mem_of_find?_eq_some hfind
  · simp

/-- No name is lost and none changes its place. -/
theorem keepTags_names (names tags : List String) :
    ∃ added, (keepTags names tags).2 = names ++ added := by
  have hspell : ∀ (names : List String) (tag : String),
      ∃ added, (spell names tag).2 = names ++ added := by
    intro names tag
    unfold spell
    split
    · exact ⟨[], (List.append_nil names).symm⟩
    · exact ⟨[tag], rfl⟩
  show ∃ added, (spellAll names tags).2 = names ++ added
  induction tags generalizing names with
  | nil => exact ⟨[], (List.append_nil names).symm⟩
  | cons tag rest ih =>
    obtain ⟨added, hadded⟩ := hspell names tag
    obtain ⟨more, hmore⟩ := ih (spell names tag).2
    exact ⟨added ++ more, by rw [spellAll, hmore, hadded, List.append_assoc]⟩

theorem mem_keepTags_of_mem {names tags : List String} {n : String} (hn : n ∈ names) :
    n ∈ (keepTags names tags).2 := by
  obtain ⟨added, hadded⟩ := keepTags_names names tags
  rw [hadded]
  exact List.mem_append_left _ hn

theorem mem_spellAll {names tags : List String} {t : String} (ht : t ∈ (spellAll names tags).1) :
    t ∈ (spellAll names tags).2 := by
  induction tags generalizing names with
  | nil => simp [spellAll] at ht
  | cons tag rest ih =>
    simp only [spellAll] at ht ⊢
    split at ht
    · exact ih ht
    · rcases List.mem_cons.mp ht with rfl | ht
      · exact mem_keepTags_of_mem (mem_spell names tag)
      · exact ih ht

/-- Kept tags are spelled by the names kept with them. -/
theorem mem_names_of_mem_keepTags {names tags : List String} {t : String}
    (ht : t ∈ (keepTags names tags).1) : t ∈ (keepTags names tags).2 :=
  mem_spellAll (List.mem_mergeSort.mp ht)

theorem same_spell (names : List String) (tag : String) :
    Text.NoCase.same tag (spell names tag).1 = true := by
  unfold spell
  split
  · next name hfind => exact List.find?_some hfind
  · simp

theorem exists_mem_spellAll (names : List String) {tags : List String} {tag : String}
    (h : tag ∈ tags) :
    ∃ t ∈ (spellAll names tags).1, Text.NoCase.same tag t = true := by
  induction tags generalizing names with
  | nil => cases h
  | cons first rest ih =>
    simp only [spellAll]
    rcases List.mem_cons.mp h with rfl | h
    · refine ⟨(spell names tag).1, ?_, same_spell names tag⟩
      split
      · next hcontains => simpa using hcontains
      · exact List.mem_cons_self
    · obtain ⟨t, ht, hsame⟩ := ih (spell names first).2 h
      refine ⟨t, ?_, hsame⟩
      split
      · exact ht
      · exact List.mem_cons_of_mem _ ht

/-- Each tag is kept in some spelling of its name. -/
theorem exists_mem_keepTags (names : List String) {tags : List String} {tag : String}
    (h : tag ∈ tags) :
    ∃ t ∈ (keepTags names tags).1, Text.NoCase.same tag t = true := by
  obtain ⟨t, ht, hsame⟩ := exists_mem_spellAll names h
  exact ⟨t, List.mem_mergeSort.mpr ht, hsame⟩

/-! ## Different tags -/

/-- No two of the names are one name. -/
def DistinctNames (names : List String) : Prop :=
  names.Pairwise fun a b => Text.NoCase.same a b = false

theorem distinct_spell {names : List String} (h : DistinctNames names) (tag : String) :
    DistinctNames (spell names tag).2 := by
  unfold spell
  split
  · exact h
  · next hfind =>
    refine List.pairwise_append.mpr ⟨h, List.pairwise_singleton _ _, ?_⟩
    intro a ha b hb
    rw [List.mem_singleton.mp hb, Text.NoCase.same_comm]
    simpa using List.find?_eq_none.mp hfind a ha

theorem distinct_keepTags {names : List String} (h : DistinctNames names) (tags : List String) :
    DistinctNames (keepTags names tags).2 := by
  show DistinctNames (spellAll names tags).2
  induction tags generalizing names with
  | nil => exact h
  | cons tag rest ih => exact ih (distinct_spell h tag)

theorem DistinctNames.same_eq_false {names : List String} (h : DistinctNames names) {a b : String}
    (ha : a ∈ names) (hb : b ∈ names) (hne : a ≠ b) : Text.NoCase.same a b = false := by
  have hsymm : Std.Symm fun a b => Text.NoCase.same a b = false :=
    ⟨fun a b h => by rw [Text.NoCase.same_comm, h]⟩
  exact List.Pairwise.forall h ha hb hne

theorem nodup_spellAll (names tags : List String) : (spellAll names tags).1.Nodup := by
  induction tags generalizing names with
  | nil => exact List.nodup_nil
  | cons tag rest ih =>
    simp only [spellAll]
    split
    · exact ih _
    · next hnot => exact List.nodup_cons.mpr ⟨by simpa using hnot, ih _⟩

/-- Each tag is kept once. -/
theorem nodup_keepTags (names tags : List String) : (keepTags names tags).1.Nodup :=
  (List.mergeSort_perm _ _).nodup_iff.mpr (nodup_spellAll names tags)

theorem pairwise_keepTags (names tags : List String) :
    (keepTags names tags).1.Pairwise fun a b => Text.NoCase.le a b = true :=
  List.pairwise_mergeSort Text.NoCase.le_trans Text.NoCase.le_total _

/-- Kept tags strictly ascend in the order of names. -/
theorem ascending_keepTags {names : List String} (h : DistinctNames names) (tags : List String) :
    (keepTags names tags).1.Pairwise fun a b => Text.NoCase.compareNames a b = .lt := by
  refine (List.Pairwise.and (pairwise_keepTags names tags)
    (nodup_keepTags names tags)).imp_of_mem fun {a b} ha hb hab => ?_
  exact Text.NoCase.compareNames_eq_lt hab.1 ((distinct_keepTags h tags).same_eq_false
    (mem_names_of_mem_keepTags ha) (mem_names_of_mem_keepTags hb) hab.2)

/-! ## Tags of a vocabulary -/

theorem spells_spell {names : List String} {tag : String} (hn : v.Spells names)
    (ht : tag ∈ v.tags) : v.Spells (spell names tag).2 := by
  refine ⟨?_, distinct_spell hn.distinct tag⟩
  unfold spell
  split
  · exact hn.known
  · intro t h
    rcases List.mem_append.mp h with h | h
    · exact hn.known t h
    · rwa [List.mem_singleton.mp h]

theorem spellAll_spec {names tags : List String} (hn : v.Spells names)
    (ht : ∀ t ∈ tags, t ∈ v.tags) :
    v.Spells (spellAll names tags).2 ∧ (tags ≠ [] → (spellAll names tags).1 ≠ []) := by
  induction tags generalizing names with
  | nil => exact ⟨hn, by simp⟩
  | cons tag rest ih =>
    have hspelled : v.Spells (spell names tag).2 := spells_spell hn (ht tag (by simp))
    obtain ⟨hall, -⟩ := ih hspelled fun t h => ht t (by simp [h])
    simp only [spellAll]
    refine ⟨hall, fun _ => ?_⟩
    split
    · next hcontains =>
      intro hnil
      simp [hnil] at hcontains
    · simp

/-- Accepted tags are kept each once and in the order of names. -/
theorem keepTags_spec {names tags : List String} (hn : v.Spells names) (ht : v.Accepts tags) :
    v.Keeps (keepTags names tags).1 ∧ v.Spells (keepTags names tags).2 := by
  obtain ⟨hne, -, hknown⟩ := ht
  obtain ⟨hall, hspelled⟩ := spellAll_spec hn hknown
  have hin : ∀ t ∈ (keepTags names tags).1, t ∈ (spellAll names tags).2 :=
    fun t h => mem_names_of_mem_keepTags h
  refine ⟨⟨?_, ascending_keepTags hn.distinct tags, fun t h => hall.known t (hin t h)⟩, hall⟩
  intro hnil
  obtain ⟨tag, htag⟩ := List.exists_mem_of_ne_nil _ (hspelled hne)
  have hkept : tag ∈ (keepTags names tags).1 := List.mem_mergeSort.mpr htag
  rw [hnil] at hkept
  cases hkept

end Store

end LongTermMemory
