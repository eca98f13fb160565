import LongTermMemory.Proofs.Integrity
import LongTermMemory.Proofs.Listing
import LongTermMemory.Proofs.Store.Spelling

/-!
The figures about an owner. They are counted one by one from the tables, and in every store that a
run reaches they agree: with one another, with what is listed and counted otherwise, and with the
log of accesses.

A tally is told by what it counts and a choice of the first few by what it leaves out, neither by
the sorting that makes it.
-/

namespace LongTermMemory

/-- Each value that some of the memories have is told once, with the number of those that have it.
A memory may have several values. -/
structure Tallies (has : String → Memory → Bool) (ms : List Memory)
    (told : List (String × Nat)) : Prop where
  once : (told.map (·.1)).Nodup
  exact : ∀ v n, (v, n) ∈ told ↔ 0 < n ∧ n = ms.countP (has v)

/-- The first in the order `R` of all that satisfy `p`, at most `k`: whoever is left out comes after
them, and is left out only where they are `k`. -/
structure IsTop {α : Type} (k : Nat) (R : α → α → Prop) (p : α → Prop) (top : List α) : Prop where
  among : ∀ a ∈ top, p a
  ordered : top.Pairwise R
  few : top.length ≤ k
  rest : ∀ a, p a → a ∉ top → top.length = k ∧ ∀ b ∈ top, R b a

/-- A greater count goes first, and of one count what is less in the order `lt`. -/
def CountedBefore {α κ : Type} [LT κ] (lt : α → α → Prop) (a b : α × κ) : Prop :=
  b.2 < a.2 ∨ a.2 = b.2 ∧ lt a.1 b.1

/-- The active memories of an owner. -/
def Store.activeOf (s : Store) (owner : String) : List Memory :=
  (s.memoriesOf owner).filter fun m => !m.archived

/-- The figures are those of an owner in a store. -/
structure Stats.Agrees (f : Stats) (s : Store) (owner : String) : Prop where
  sum : f.totalMemories = f.activeMemories + f.archivedMemories
  counted : f.totalMemories = s.count owner
  active : f.activeMemories = (s.activeOf owner).length
  listed : ∀ now (limit : Int), f.activeMemories ≤ limit →
    ∃ ms, Engine.list now owner { limit := some limit } s = .ok ms ∧ ms.length = f.activeMemories
  byType : Tallies (fun v m => m.type.name = v) (s.activeOf owner) f.byType
  ofType : ∀ (t : MemoryType) n, (t.name, n) ∈ f.byType ↔
    0 < n ∧ n = (s.activeOf owner).countP (·.type = t)
  allTypes : total (f.byType.map fun x => (x.2 : Int)) = f.activeMemories
  byCategory : Tallies (fun v m => m.category = v) (s.activeOf owner) f.byCategory
  allCategories : total (f.byCategory.map fun x => (x.2 : Int)) = f.activeMemories
  accesses : f.totalAccesses = total ((s.memoriesOf owner).map (·.accessCount))
  logged : f.totalAccesses = s.accesses.countP fun a => s.owns owner a.memoryId
  relationships : f.totalRelationships = s.relationships.countP fun q => s.owns owner q.source
  topTags : IsTop 5 (CountedBefore fun t t' => Text.NoCase.compareNames t t' = .lt)
    (fun x => 0 < x.2 ∧ x.2 = (s.activeOf owner).countP fun m => x.1 ∈ m.tags) f.topTags
  /-- Without capitals and NUL, names stand as texts do. -/
  topTagsByText : (∀ m ∈ s.activeOf owner, ∀ t ∈ m.tags, Text.NoCase.Plain t) →
    f.topTags.Pairwise (CountedBefore (· < ·))
  mostAccessed : IsTop 5 (CountedBefore (· < ·))
    (fun x => 0 < x.2 ∧ ∃ m ∈ s.memoriesOf owner, m.id = x.1 ∧ m.accessCount = x.2) f.mostAccessed

/-! ## Sums of counts -/

theorem countP_mem_cons {α κ : Type} [DecidableEq κ] (f : α → κ) (l : List α) {k : κ}
    {keys : List κ} (hk : k ∉ keys) :
    l.countP (f · ∈ k :: keys) = l.countP (f · = k) + l.countP (f · ∈ keys) := by
  induction l with
  | nil => rfl
  | cons a l ih =>
    rw [List.countP_cons, List.countP_cons, List.countP_cons, ih]
    by_cases ha : f a = k
    · simp only [ha, hk, List.mem_cons, true_or, decide_true, decide_false, if_true]
      simp
      omega
    · simp [ha]
      omega

/-- Counts by different keys add up to the count by all of them. -/
theorem total_countP {α κ : Type} [DecidableEq κ] (f : α → κ) (l : List α) {keys : List κ}
    (h : keys.Nodup) :
    total (keys.map fun k => (l.countP (f · = k) : Int)) = l.countP (f · ∈ keys) := by
  induction keys with
  | nil => simp [total]
  | cons k keys ih =>
    obtain ⟨hk, hkeys⟩ := List.nodup_cons.mp h
    have hcons : total ((k :: keys).map fun k => (l.countP (f · = k) : Int)) =
        l.countP (f · = k) + total (keys.map fun k => (l.countP (f · = k) : Int)) := rfl
    rw [hcons, ih hkeys, countP_mem_cons f l hk]
    exact (Int.natCast_add _ _).symm

/-! ## Tallies -/

theorem mem_tally {values : List String} {v : String} {n : Nat} :
    (v, n) ∈ tally values ↔ 0 < n ∧ n = values.count v := by
  simp only [tally, List.mem_map, Prod.mk.injEq, Ascending.mem_ofList]
  constructor
  · rintro ⟨v, hv, rfl, rfl⟩
    exact ⟨List.count_pos_iff.mpr hv, rfl⟩
  · rintro ⟨hpos, rfl⟩
    exact ⟨v, List.count_pos_iff.mp hpos, rfl, rfl⟩

theorem map_fst_tally (values : List String) :
    (tally values).map (·.1) = Ascending.ofList values := by
  rw [tally, List.map_map]
  exact List.map_id _

theorem nodup_fst_tally (values : List String) : ((tally values).map (·.1)).Nodup := by
  rw [map_fst_tally]
  exact Ascending.nodup_ofList values

theorem tallies_tally {has : String → Memory → Bool} {ms : List Memory} {values : List String}
    (h : ∀ v, values.count v = ms.countP (has v)) : Tallies has ms (tally values) := by
  refine ⟨nodup_fst_tally values, fun v n => ?_⟩
  rw [mem_tally, h]

theorem count_map (value : Memory → String) (ms : List Memory) (v : String) :
    (ms.map value).count v = ms.countP (value · = v) := by
  rw [List.count, List.countP_map]
  refine List.countP_congr fun m _ => ?_
  simp

/-- Where each memory has one value, a tally counts each memory once. -/
theorem total_tally (value : Memory → String) (ms : List Memory) :
    total ((tally (ms.map value)).map fun x => (x.2 : Int)) = ms.length := by
  have hkeys : (tally (ms.map value)).map (fun x => (x.2 : Int)) =
      (Ascending.ofList (ms.map value)).map fun v => (ms.countP (value · = v) : Int) := by
    rw [tally, List.map_map]
    exact List.map_congr_left fun v _ => congrArg Nat.cast (count_map value ms v)
  rw [hkeys, total_countP value ms (Ascending.nodup_ofList _), Int.natCast_inj,
    List.countP_eq_length]
  intro m hm
  simpa using ⟨m, hm, rfl⟩

/-- Where no memory has a value twice, the members of their lists are counted by memories. -/
theorem count_flatMap_tags {ms : List Memory} (h : ∀ m ∈ ms, m.tags.Nodup) (t : String) :
    (ms.flatMap (·.tags)).count t = ms.countP fun m => t ∈ m.tags := by
  induction ms with
  | nil => rfl
  | cons m ms ih =>
    have hm := h m List.mem_cons_self
    rw [List.flatMap_cons, List.count_append, List.countP_cons,
      ih fun k hk => h k (List.mem_cons_of_mem m hk), hm.count]
    simp [Nat.add_comm]

/-! ## The first few -/

/-- Sorting and taking the first `k` gives the top of a list, where what comes before is told by
`R` of different members. -/
theorem isTop_take_mergeSort {α : Type} {before : α → α → Bool} {R : α → α → Prop} (k : Nat)
    (htrans : ∀ a b c, before a b = true → before b c = true → before a c = true)
    (htotal : ∀ a b, (before a b || before b a) = true) {l : List α} (hnodup : l.Nodup)
    (hR : ∀ a ∈ l, ∀ b ∈ l, a ≠ b → before a b = true → R a b) :
    IsTop k R (· ∈ l) ((l.mergeSort before).take k) := by
  have hperm := List.mergeSort_perm l before
  have hsorted : (l.mergeSort before).Pairwise R := by
    refine ((List.pairwise_mergeSort htrans htotal l).and
      (hperm.nodup_iff.mpr hnodup)).imp_of_mem fun {a b} ha hb hab => ?_
    exact hR a (hperm.mem_iff.mp ha) b (hperm.mem_iff.mp hb) hab.2 hab.1
  refine ⟨fun a ha => hperm.mem_iff.mp (List.mem_of_mem_take ha),
    hsorted.sublist (List.take_sublist _ _), List.length_take_le _ _, fun a ha hnot => ?_⟩
  have hparts := List.take_append_drop k (l.mergeSort before)
  have hmem := hparts.symm ▸ hperm.mem_iff.mpr ha
  have hdrop : a ∈ (l.mergeSort before).drop k :=
    (List.mem_append.mp hmem).resolve_left hnot
  refine ⟨?_, fun b hb => ?_⟩
  · have hlong : k < (l.mergeSort before).length := by
      have hpos := List.length_pos_of_mem hdrop
      rw [List.length_drop] at hpos
      omega
    rw [List.length_take]
    omega
  · rw [← hparts] at hsorted
    exact (List.pairwise_append.mp hsorted).2.2 b hb a hdrop

section

variable {α κ : Type} [LinearOrder κ] {le : α → α → Bool}

/-- Whether the first comes at or before the second: by descending counts, then in the order
`le`. -/
def countedAtOrBefore (le : α → α → Bool) (a b : α × κ) : Bool :=
  b.2 < a.2 || (b.2 = a.2 && le a.1 b.1)

theorem countedAtOrBefore_iff {a b : α × κ} :
    countedAtOrBefore le a b = true ↔ b.2 < a.2 ∨ b.2 = a.2 ∧ le a.1 b.1 = true := by
  simp [countedAtOrBefore]

theorem countedAtOrBefore_trans (h : ∀ x y z, le x y = true → le y z = true → le x z = true)
    (a b c : α × κ) (hab : countedAtOrBefore le a b = true)
    (hbc : countedAtOrBefore le b c = true) : countedAtOrBefore le a c = true := by
  rw [countedAtOrBefore_iff] at *
  rcases hab with hab | ⟨hab, hle⟩
  · rcases hbc with hbc | ⟨hbc, -⟩
    · exact Or.inl (hbc.trans hab)
    · exact Or.inl (hbc ▸ hab)
  · rcases hbc with hbc | ⟨hbc, hle'⟩
    · exact Or.inl (hab ▸ hbc)
    · exact Or.inr ⟨hbc.trans hab, h _ _ _ hle hle'⟩

theorem countedAtOrBefore_total (h : ∀ x y, (le x y || le y x) = true) (a b : α × κ) :
    (countedAtOrBefore le a b || countedAtOrBefore le b a) = true := by
  rw [Bool.or_eq_true, countedAtOrBefore_iff, countedAtOrBefore_iff]
  rcases lt_trichotomy a.2 b.2 with hlt | heq | hlt
  · exact Or.inr (Or.inl hlt)
  · refine ((Bool.or_eq_true ..).mp (h a.1 b.1)).imp (fun hle => ?_) fun hle => ?_
    · exact Or.inr ⟨heq.symm, hle⟩
    · exact Or.inr ⟨heq, hle⟩
  · exact Or.inl (Or.inl hlt)

/-- The top by descending counts, of things that are told once each. -/
theorem isTop_counted (le : α → α → Bool) {lt : α → α → Prop} (k : Nat)
    (htrans : ∀ x y z, le x y = true → le y z = true → le x z = true)
    (htotal : ∀ x y, (le x y || le y x) = true) {l : List (α × κ)} (hnodup : (l.map (·.1)).Nodup)
    (hlt : ∀ a ∈ l, ∀ b ∈ l, a.1 ≠ b.1 → le a.1 b.1 = true → lt a.1 b.1) :
    IsTop k (CountedBefore lt) (· ∈ l) ((l.mergeSort (countedAtOrBefore le)).take k) := by
  refine isTop_take_mergeSort k (countedAtOrBefore_trans htrans) (countedAtOrBefore_total htotal)
    (List.Nodup.of_map _ hnodup) fun a ha b hb hne hbefore => ?_
  refine (countedAtOrBefore_iff.mp hbefore).imp_right fun ⟨heq, hle⟩ => ⟨heq.symm, ?_⟩
  refine hlt a ha b hb (fun hfst => hne ?_) hle
  exact List.inj_on_of_nodup_map hnodup ha hb hfst

end

theorem IsTop.congr {α : Type} {k : Nat} {R : α → α → Prop} {p q : α → Prop} {top : List α}
    (h : IsTop k R p top) (hpq : ∀ a, q a ↔ p a) : IsTop k R q top :=
  ⟨fun a ha => (hpq a).mpr (h.among a ha), h.ordered, h.few, fun a ha => h.rest a ((hpq a).mp ha)⟩

namespace Store

/-- Tags are told once each, so that those of one count stand in the order of names. -/
theorem isTop_topTags {ms : List Memory} (hnodup : ∀ m ∈ ms, m.tags.Nodup)
    (hnames : ∀ a ∈ ms.flatMap (·.tags), ∀ b ∈ ms.flatMap (·.tags), a ≠ b →
      Text.NoCase.same a b = false) :
    IsTop 5 (CountedBefore fun t t' => Text.NoCase.compareNames t t' = .lt)
      (fun x => 0 < x.2 ∧ x.2 = ms.countP fun m => x.1 ∈ m.tags) (topTags ms) := by
  have hmem : ∀ x ∈ tally (ms.flatMap (·.tags)), x.1 ∈ ms.flatMap (·.tags) := by
    intro x hx
    obtain ⟨hpos, heq⟩ := mem_tally.mp hx
    exact List.count_pos_iff.mp (heq ▸ hpos)
  refine IsTop.congr (isTop_counted Text.NoCase.le 5 Text.NoCase.le_trans Text.NoCase.le_total
    (nodup_fst_tally _) fun a ha b hb hne hle => ?_) fun x => ?_
  · exact Text.NoCase.compareNames_eq_lt hle (hnames a.1 (hmem a ha) b.1 (hmem b hb) hne)
  · rw [← count_flatMap_tags hnodup]
    exact mem_tally.symm

theorem isTop_mostAccessed {ms : List Memory} (hids : (ms.map (·.id)).Nodup) :
    IsTop 5 (CountedBefore (· < ·))
      (fun x => 0 < x.2 ∧ ∃ m ∈ ms, m.id = x.1 ∧ m.accessCount = x.2) (mostAccessed ms) := by
  have hnodup : (((ms.filter fun m => 0 < m.accessCount).map
      fun m => (m.id, m.accessCount)).map (·.1)).Nodup := by
    rw [List.map_map]
    exact hids.sublist (List.filter_sublist.map _)
  refine IsTop.congr (isTop_counted (fun i j => decide (i ≤ j)) 5 (fun i j k hij hjk => ?_)
    (fun i j => ?_) hnodup fun a _ b _ hne hle => ?_) fun x => ?_
  · rw [decide_eq_true_eq] at *
    exact Int.le_trans hij hjk
  · simpa using Int.le_total i j
  · exact Int.lt_iff_le_and_ne.mpr ⟨of_decide_eq_true hle, hne⟩
  · simp only [List.mem_map, List.mem_filter, decide_eq_true_eq, Prod.ext_iff]
    constructor
    · rintro ⟨hpos, m, hm, hid, hcount⟩
      exact ⟨m, ⟨hm, hcount ▸ hpos⟩, hid, hcount⟩
    · rintro ⟨m, ⟨hm, hpos⟩, hid, hcount⟩
      exact ⟨hcount ▸ hpos, m, hm, hid, hcount⟩

variable {s : Store} {owner : String}

/-! ## Rows of an owner -/

theorem owns_iff {id : MemoryId} :
    s.owns owner id = true ↔ id ∈ (s.memoriesOf owner).map (·.id) := by
  simp [owns]

/-- Each memory tells its part of the log, and no row is about two of them. -/
theorem total_accessCount (hs : s.Sound) (hl : s.Logged) (owner : String) :
    total ((s.memoriesOf owner).map (·.accessCount)) =
      s.accesses.countP fun a => s.owns owner a.memoryId := by
  have hcounts : (s.memoriesOf owner).map (·.accessCount) =
      ((s.memoriesOf owner).map (·.id)).map fun id =>
        (s.accesses.countP (·.memoryId = id) : Int) := by
    rw [List.map_map]
    refine List.map_congr_left fun m hm => ?_
    rw [(hl.told m (mem_memoriesOf.mp hm).1).count, accessesOf, ← List.countP_eq_length_filter]
    rfl
  rw [hcounts, total_countP (·.memoryId) s.accesses (hs.nodup_ids_of owner), Int.natCast_inj]
  refine List.countP_congr fun a _ => ?_
  rw [decide_eq_true_eq, owns_iff]

/-- Each edge has a source, and the source has one owner. -/
theorem total_relationships (hs : s.Sound) :
    total (s.owners.map fun owner =>
      (s.relationships.countP (fun q => s.owns owner q.source) : Int)) =
        s.relationships.length := by
  let sourceOwner (q : Relationship) : String := ((s.kept? q.source).map (·.owner)).getD ""
  have hsource : ∀ q ∈ s.relationships, ∃ m ∈ s.memories,
      sourceOwner q = m.owner ∧ ∀ owner, s.owns owner q.source = true ↔ m.owner = owner := by
    intro q hq
    obtain ⟨m, hm⟩ := kept?_of_exists? (hs.ends q hq).1
    obtain ⟨hmem, hid⟩ := mem_of_kept? hm
    refine ⟨m, hmem, by simp [sourceOwner, hm], fun owner => ⟨fun howns => ?_, ?_⟩⟩
    · by_contra hne
      rw [← hid, hs.not_owns hmem hne] at howns
      cases howns
    · rintro rfl
      exact owns_iff.mpr (List.mem_map.mpr ⟨m, mem_memoriesOf.mpr ⟨hmem, rfl⟩, hid⟩)
  have hcounts : (s.owners.map fun owner =>
      (s.relationships.countP (fun q => s.owns owner q.source) : Int)) =
        s.owners.map fun owner => (s.relationships.countP (sourceOwner · = owner) : Int) := by
    refine List.map_congr_left fun owner _ => congrArg Nat.cast (List.countP_congr fun q hq => ?_)
    obtain ⟨m, -, heq, howns⟩ := hsource q hq
    rw [howns, decide_eq_true_eq, heq]
  have howners : s.owners.Nodup := Ascending.nodup_ofList _
  rw [hcounts, total_countP sourceOwner _ howners, Int.natCast_inj, List.countP_eq_length]
  intro q hq
  obtain ⟨m, hm, heq, -⟩ := hsource q hq
  rw [decide_eq_true_eq, heq]
  exact (Ascending.mem_ofList ..).mpr (by simpa [memories] using List.mem_map_of_mem hm)

theorem length_list_unlimited (howner : Text.blank owner = false) {limit : Int} (now : Instant)
    (hlimit : (s.activeOf owner).length ≤ limit) :
    ∃ ms, Engine.list now owner { limit := some limit } s = .ok ms ∧
      ms.length = (s.activeOf owner).length := by
  have hadmits : (s.memoriesOf owner).filter { limit := some limit : Selection }.admits =
      s.activeOf owner := by
    refine List.filter_congr fun m _ => ?_
    simp [Selection.admits, Selection.matchesTags]
  have hnonneg : 0 ≤ limit := Int.le_trans (Int.natCast_nonneg _) hlimit
  refine ⟨_, Engine.list_of_accepted howner fun l hl => ?_, ?_⟩
  · cases hl
    exact hnonneg
  · rw [list_eq, listing, hadmits, List.length_map, Selection.page]
    have hnot : ¬ limit < 0 := Int.not_lt.mpr hnonneg
    have hlong : (s.activeOf owner).length ≤ limit.toNat := by omega
    simp [Selection.sorted, hnot, hlong]

theorem length_active_add_archived (ms : List Memory) :
    (ms.filter fun m => !m.archived).length + (ms.filter (·.archived)).length = ms.length := by
  induction ms with
  | nil => rfl
  | cons m ms ih =>
    cases hm : m.archived <;> simp [hm] <;> omega

theorem stats_agrees (hs : s.Sound) (hl : s.Logged) (hspelled : s.Spelled)
    (hnames : DistinctNames s.tagNames) (hnodup : ∀ m ∈ s.memories, m.tags.Nodup)
    (howner : Text.blank owner = false) : (s.stats owner).Agrees s owner := by
  have hkept : ∀ m ∈ s.activeOf owner, m ∈ s.memories := fun m hm =>
    (mem_memoriesOf.mp (List.mem_filter.mp hm).1).1
  have htype : Tallies (fun v m => m.type.name = v) (s.activeOf owner) (s.stats owner).byType :=
    tallies_tally (count_map (·.type.name) _)
  have htop := isTop_topTags (fun m hm => hnodup m (hkept m hm)) fun a ha b hb hne => by
    obtain ⟨m, hm, ha⟩ := List.mem_flatMap.mp ha
    obtain ⟨k, hk, hb⟩ := List.mem_flatMap.mp hb
    exact hnames.same_eq_false (hspelled m (hkept m hm) a ha) (hspelled k (hkept k hk) b hb) hne
  exact
    { sum := (length_active_add_archived _).symm
      counted := (count_eq s owner).symm
      active := rfl
      listed := fun now _ hlimit => length_list_unlimited howner now hlimit
      byType := htype
      ofType := fun t n => by
        have hname (m : Memory) : m.type.name = t.name ↔ m.type = t :=
          ⟨MemoryType.name_inj, congrArg _⟩
        simp only [htype.exact, hname]
      allTypes := total_tally (·.type.name) _
      byCategory := tallies_tally (count_map (·.category) _)
      allCategories := total_tally (·.category) _
      accesses := rfl
      logged := total_accessCount hs hl owner
      relationships := rfl
      topTags := htop
      topTagsByText := fun hplain => by
        have hcarried : ∀ a ∈ topTags (s.activeOf owner), Text.NoCase.Plain a.1 := by
          intro a ha
          obtain ⟨hpos, heq⟩ := htop.among a ha
          obtain ⟨m, hm, hcarries⟩ := List.countP_pos_iff.mp (heq ▸ hpos)
          exact hplain m hm a.1 (of_decide_eq_true hcarries)
        refine htop.ordered.imp_of_mem fun {a b} ha hb hab => hab.imp_right fun ⟨heq, hlt⟩ => ?_
        exact ⟨heq, Text.NoCase.lt_of_plain _ _ (hcarried a ha) (hcarried b hb) hlt⟩
      mostAccessed := isTop_mostAccessed (hs.nodup_ids_of owner) }

end Store

namespace World

/-- In every store that a run reaches, the figures about an owner agree with one another, with what
is listed and counted, and with the log, and each edge is told for one owner. -/
theorem figures_agree {p : Engine → Prop} {w : World} (hw : w.Reached p) :
    (∀ owner, Text.blank owner = false →
      ∃ f, Engine.stats owner w.store = .ok f ∧ f.Agrees w.store owner) ∧
    ∃ figures, List.Forall₂ (fun owner f => Engine.stats owner w.store = .ok f) w.store.owners
        figures ∧
      total (figures.map fun f => (f.totalRelationships : Int)) = w.store.relationships.length := by
  have hstats {owner : String} (howner : Text.blank owner = false) :
      Engine.stats owner w.store = .ok (w.store.stats owner) := by
    rw [Engine.stats, Invalid.raise_checkOwner howner]
    rfl
  refine ⟨fun owner howner => ⟨_, hstats howner, Store.stats_agrees hw.sound hw.logged hw.spelled
    hw.distinctNames hw.nodup_tags howner⟩, w.store.owners.map w.store.stats, ?_, ?_⟩
  · refine List.forall₂_map_right_iff.mpr (List.forall₂_same.mpr fun owner howner => hstats ?_)
    obtain ⟨e, he, rfl⟩ := List.mem_map.mp ((Ascending.mem_ofList ..).mp howner)
    exact (hw.sound.memories e.memory (List.mem_map_of_mem he)).owner.1
  · rw [List.map_map]
    exact Store.total_relationships hw.sound

theorem figures_agree_linkedTeas : ∃ f, Engine.stats "ann" linkedTeas.store = .ok f ∧
    f.Agrees linkedTeas.store "ann" ∧ f.totalAccesses = 2 ∧ f.totalRelationships = 1 ∧
    f.byType = [("preference", 2)] ∧ f.byCategory = [("personal", 2)] := by
  obtain ⟨f, hf, hagrees⟩ := (figures_agree reached_linkedTeas).1 "ann" (by decide)
  refine ⟨f, hf, hagrees, ?_⟩
  cases hf
  exact ⟨rfl, rfl, rfl, rfl⟩

end World

end LongTermMemory
