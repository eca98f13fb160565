import LongTermMemory.Proofs.Ranking
import LongTermMemory.Proofs.Store.Indexed
import LongTermMemory.Proofs.Store.Spelling
import LongTermMemory.Proofs.Text.Runs
import Mathlib.Data.List.Nodup

/-!
Searching is listing what meets the query. The index follows the contents and tags are kept in
normal form, so that whether a memory meets a query can be told from the memory alone; and the order
of importance, in which no two memories are level, is that of the list.
-/

namespace LongTermMemory

/-- Whether a word of the query occurs in the content of the memory or is one of its tags. -/
def Memory.meets (query : String) (m : Memory) : Bool :=
  (Store.queryWords query).any fun word =>
    Text.Index.matchesWord word m.content || m.tags.contains word

/-- What is left of a list stands in the order of the list. -/
theorem mergeSort_filter {α κ : Type} [LinearOrder κ] {key : α → κ} {before : α → α → Bool}
    (hkey : ∀ a b, before a b = true ↔ key b ≤ key a) {l : List α} (hdistinct : (l.map key).Nodup)
    (q : α → Bool) : (l.filter q).mergeSort before = (l.mergeSort before).filter q := by
  have hperm : ((l.filter q).mergeSort before).Perm ((l.mergeSort before).filter q) :=
    (List.mergeSort_perm _ _).trans ((List.mergeSort_perm l before).symm.filter q)
  refine hperm.eq_of_pairwise (fun a b _ _ hab hba => absurd (lt_trans hab hba) (lt_irrefl _))
    (descending_mergeSort hkey (hdistinct.sublist (List.filter_sublist.map key))) ?_
  exact (descending_mergeSort hkey hdistinct).filter q

namespace Store

variable {s : Store} {now : Instant} {owner query : String} {f : SearchFilters}

/-! ## One memory -/

/-- What the index says of an entry can be read off its memory. -/
theorem matchesWord_eq {e : Entry} (hindexed : Entry.ofMemory e.memory = e)
    (htags : ∀ t ∈ e.memory.tags, normalizeTag t = t) {word : String}
    (hword : word ∈ queryWords query) : matchesWord word e =
      (Text.Index.matchesWord word e.memory.content || e.memory.tags.contains word) := by
  have hsame : ∀ t ∈ e.memory.tags, Text.NoCase.same t word = true ↔ t = word := by
    intro t ht
    refine Text.NoCase.same_iff_eq (fun c hc => ?_) (plain_of_mem_queryWords hword)
    rw [← htags t ht] at hc
    exact Text.lowercase_not_capital _ c hc
  have hterms : e.terms = Text.Index.terms e.memory.content := by
    rw [← hindexed]
    rfl
  have hcarries : (e.memory.tags.any fun t => Text.NoCase.same t word) =
      e.memory.tags.contains word := by
    rw [Bool.eq_iff_iff, List.any_eq_true, List.contains_iff_mem]
    constructor
    · rintro ⟨t, ht, h⟩
      exact (hsame t ht).mp h ▸ ht
    · exact fun h => ⟨word, h, (hsame word h).mpr rfl⟩
  rw [matchesWord, hterms, hcarries]
  rfl

theorem any_matchesWord_eq (hi : s.Indexed)
    (ht : ∀ m ∈ s.memories, ∀ t ∈ m.tags, normalizeTag t = t) {e : Entry} (he : e ∈ s.entries) :
    ((queryWords query).any fun word => matchesWord word e) = e.memory.meets query := by
  have htags := ht e.memory (List.mem_map_of_mem he)
  rw [Memory.meets, Bool.eq_iff_iff, List.any_eq_true, List.any_eq_true]
  refine exists_congr fun word => and_congr_right fun hword => ?_
  rw [matchesWord_eq (hi e he) htags hword]

/-! ## Lists of memories -/

/-- What a selection takes its page from. -/
def found (s : Store) (now : Instant) (owner : String) (c : Selection) (p : Entry → Bool) :
    List Memory :=
  (c.sorted (((s.entriesOf owner).filter fun e => p e && c.admits e.memory).map (·.memory))).map
    (·.readAt now)

theorem length_found_le (s : Store) (now : Instant) (owner : String) (c : Selection)
    (p : Entry → Bool) : (s.found now owner c p).length ≤ s.count owner := by
  rw [found, List.length_map, Selection.sorted, List.length_mergeSort, List.length_map]
  exact List.length_filter_le _ _

theorem select_eq_take {c : Selection} (hoffset : c.offset = none)
    (hlimit : 0 ≤ c.limit.getD Selection.defaultLimit) (p : Entry → Bool) :
    s.select now owner c p =
      (s.found now owner c p).take (c.limit.getD Selection.defaultLimit).toNat := by
  simp only [select, found, Selection.page, hoffset, Option.getD_none, Int.toNat_zero,
    List.drop_zero]
  rw [if_neg (Int.not_lt.mpr hlimit), List.map_take]

theorem search_eq_select (h : queryWords query ≠ []) (s : Store) (now : Instant) (owner : String)
    (f : SearchFilters) : s.search now owner query f =
      s.select now owner f.selection fun e => (queryWords query).any (matchesWord · e) := by
  unfold search
  split
  · next hnone => exact absurd hnone h
  · rfl

/-- A store as engines leave it: its index is up to date, and its tags are in normal form. -/
structure Searchable (s : Store) : Prop where
  sound : s.Sound
  indexed : s.Indexed
  normal : ∀ m ∈ s.memories, ∀ t ∈ m.tags, normalizeTag t = t

/-- What is found for a query is what is found for none and meets it. -/
theorem found_meets (h : s.Searchable) :
    s.found now owner f.selection (fun e => (queryWords query).any (matchesWord · e)) =
      (s.found now owner f.selection fun _ => true).filter (·.meets query) := by
  have hfilter : ((s.entriesOf owner).filter fun e =>
      (queryWords query).any (matchesWord · e) && f.selection.admits e.memory).map (·.memory) =
        (((s.entriesOf owner).filter fun e => true && f.selection.admits e.memory).map
          (·.memory)).filter (·.meets query) := by
    rw [List.filter_map, List.filter_filter]
    refine congrArg _ (List.filter_congr fun e he => ?_)
    rw [any_matchesWord_eq h.indexed h.normal (List.mem_filter.mp he).1, Bool.true_and]
    rfl
  have hids : ((((s.entriesOf owner).filter fun e => true && f.selection.admits e.memory).map
      (·.memory)).map (·.id)).Nodup :=
    h.sound.nodup_ids.sublist (((List.filter_sublist.trans List.filter_sublist).map _).map _)
  rw [found, hfilter, found]
  generalize ((s.entriesOf owner).filter fun e => true && f.selection.admits e.memory).map
    (·.memory) = all at hids
  have hdistinct : (all.map poolKey).Nodup := by
    refine List.Nodup.of_map (fun key => (ofLex key).2) ?_
    rw [List.map_map]
    exact hids
  rw [List.filter_map]
  exact congrArg (List.map (·.readAt now)) (mergeSort_filter atOrBefore_importance hdistinct _)

/-- With a limit that is not negative a query with words finds the first of what meets it. -/
theorem search_eq_take (h : s.Searchable) (hwords : queryWords query ≠ [])
    (hlimit : 0 ≤ f.limit.getD Selection.defaultLimit) : s.search now owner query f =
      ((s.found now owner f.selection fun _ => true).filter (·.meets query)).take
        (f.limit.getD Selection.defaultLimit).toNat := by
  rw [search_eq_select hwords, select_eq_take rfl hlimit, found_meets h]
  rfl

theorem list_eq_found (hlimit : (s.count owner : Int) ≤ f.limit.getD Selection.defaultLimit) :
    s.list now owner f.selection = s.found now owner f.selection fun _ => true := by
  have hpos : 0 ≤ f.limit.getD Selection.defaultLimit := by omega
  have hlength := length_found_le s now owner f.selection fun _ => true
  rw [list, select_eq_take rfl hpos]
  refine List.take_of_length_le (hlength.trans ?_)
  change s.count owner ≤ (f.limit.getD Selection.defaultLimit).toNat
  omega

theorem search_eq_filter (h : s.Searchable) (hwords : queryWords query ≠ [])
    (hlimit : (s.count owner : Int) ≤ f.limit.getD Selection.defaultLimit) :
    s.search now owner query f = (s.list now owner f.selection).filter (·.meets query) := by
  rw [search_eq_take h hwords (by omega), list_eq_found hlimit]
  have hlength := (List.length_filter_le (·.meets query) _).trans
    (length_found_le s now owner f.selection fun _ => true)
  refine List.take_of_length_le (hlength.trans ?_)
  omega

theorem search_congr {query' : String} (h : queryWords query = queryWords query') :
    s.search now owner query f = s.search now owner query' f := by
  unfold search
  rw [h]

end Store

/-! ## Queries -/

/-- Queries with the same words are met by the same memories, and answered alike. -/
theorem Store.queryWords_congr {query query' : String}
    (h : ∀ word, word ∈ queryWords query ↔ word ∈ queryWords query') :
    queryWords query = queryWords query' :=
  Ascending.eq_of_mem_iff (Ascending.pairwise_ofList _) (Ascending.pairwise_ofList _) h

theorem Memory.meets_append (a b : String) (m : Memory) :
    m.meets (a ++ " " ++ b) = (m.meets a || m.meets b) := by
  rw [Bool.eq_iff_iff, Bool.or_eq_true]
  simp only [meets, List.any_eq_true, Store.mem_queryWords_append, or_and_right, exists_or]

namespace Engine

variable {s : Store} {now : Instant} {owner query : String} {f : SearchFilters}

/-- A search and a list are refused for the same reasons. -/
theorem search_eq_map_list {g : List Memory → List Memory}
    (h : s.search now owner query f = g (s.list now owner f.selection)) :
    search now owner query f s = g <$> list now owner f.selection s := by
  have hlimit : f.selection.limit = f.limit := rfl
  rw [search, list, h, hlimit]
  cases Invalid.raise (Invalid.checkOwner owner) with
  | error err => rfl
  | ok _ => cases Invalid.raise (Invalid.ifPresent Invalid.checkLimit f.limit) <;> rfl

theorem raise_checkLimit {limit : Option Int} (h : 0 ≤ limit.getD Selection.defaultLimit) :
    Invalid.raise (Invalid.ifPresent Invalid.checkLimit limit) = .ok () :=
  Invalid.raise_eq_ok.mpr <| Invalid.ifPresent_eq_ok.mpr fun l hl =>
    Invalid.checkLimit_eq_ok.mpr (by simpa [hl] using h)

/-- A search whose limit is not negative is refused for its owner only. -/
theorem search_eq_map (hlimit : 0 ≤ f.limit.getD Selection.defaultLimit) :
    search now owner query f s =
      (fun _ => s.search now owner query f) <$> Invalid.raise (Invalid.checkOwner owner) := by
  rw [search, raise_checkLimit hlimit]
  cases Invalid.raise (Invalid.checkOwner owner) <;> rfl

/-- A query with words finds what is listed and meets it. -/
theorem search_eq_filter_list (h : s.Searchable) (hwords : Store.queryWords query ≠ [])
    (hlimit : (s.count owner : Int) ≤ f.limit.getD Selection.defaultLimit) :
    search now owner query f s =
      (·.filter (·.meets query)) <$> list now owner f.selection s :=
  search_eq_map_list (Store.search_eq_filter h hwords hlimit)

/-- A smaller limit leaves the first memories found. -/
theorem search_limited (h : s.Searchable) (hwords : Store.queryWords query ≠ [])
    (hlimit : (s.count owner : Int) ≤ f.limit.getD Selection.defaultLimit) {limit : Option Int}
    (hpos : 0 ≤ limit.getD Selection.defaultLimit) :
    search now owner query { f with limit } s =
      (·.take (limit.getD Selection.defaultLimit).toNat) <$> search now owner query f s := by
  have hfirst : s.search now owner query { f with limit } =
      (s.search now owner query f).take (limit.getD Selection.defaultLimit).toNat := by
    rw [Store.search_eq_take (f := { f with limit }) h hwords hpos,
      Store.search_eq_filter h hwords hlimit, Store.list_eq_found hlimit]
    rfl
  rw [search_eq_map (f := { f with limit }) hpos, search_eq_map (by omega), hfirst]
  cases Invalid.raise (Invalid.checkOwner owner) <;> rfl

/-- Two queries joined find what either of them finds. -/
theorem search_append (h : s.Searchable)
    (hlimit : (s.count owner : Int) ≤ f.limit.getD Selection.defaultLimit) {a b : String}
    (hwordsa : Store.queryWords a ≠ []) (hwordsb : Store.queryWords b ≠ []) {ma mb : List Memory}
    (hma : search now owner a f s = .ok ma) (hmb : search now owner b f s = .ok mb) :
    ∃ ms, search now owner (a ++ " " ++ b) f s = .ok ms ∧ ∀ m, m ∈ ms ↔ m ∈ ma ∨ m ∈ mb := by
  have hwords : Store.queryWords (a ++ " " ++ b) ≠ [] := by
    obtain ⟨word, hword⟩ := List.exists_mem_of_ne_nil _ hwordsa
    exact List.ne_nil_of_mem (Store.mem_queryWords_append.mpr (Or.inl hword))
  rw [search_eq_filter_list h hwordsa hlimit] at hma
  rw [search_eq_filter_list h hwordsb hlimit] at hmb
  rw [search_eq_filter_list h hwords hlimit]
  cases hlist : list now owner f.selection s with
  | error err =>
    rw [hlist] at hma
    cases hma
  | ok listed =>
    rw [hlist] at hma hmb
    cases hma
    cases hmb
    refine ⟨_, rfl, fun m => ?_⟩
    simp only [List.mem_filter, Memory.meets_append, Bool.or_eq_true, and_or_left]

/-- Neither the order of the words of a query nor their number matters. -/
theorem search_intercalate_congr {as bs : List String} (hsame : ∀ a, a ∈ as ↔ a ∈ bs) :
    search now owner (" ".intercalate as) f s = search now owner (" ".intercalate bs) f s := by
  have hwords : Store.queryWords (" ".intercalate as) = Store.queryWords (" ".intercalate bs) :=
    Store.queryWords_congr fun word => by
      simp only [Store.mem_queryWords_intercalate, hsame]
  unfold search
  rw [Store.search_congr hwords]

/-- A query without words lists. -/
theorem search_of_no_words (hnone : Store.queryWords query = []) :
    search now owner query f s = list now owner f.selection s := by
  refine (search_eq_map_list (g := id) ?_).trans (id_map _)
  unfold Store.search
  rw [hnone]
  rfl

end Engine

namespace World

/-- Searching is listing, in the order of importance, what meets the query: a word of it occurs in
the content as it is now, or is a tag. A smaller limit leaves the first of these. Two queries joined
find what either finds; nothing depends on the order of the words of a query, nor on how often they
stand in it, and a query without words lists. -/
theorem search_is_filtered_list {p : Engine → Prop}
    (hp : ∀ e, p e → ∃ c, Engine.ofConfig c = .ok e) {w : World} (hw : w.Reached p)
    (now : Instant) (owner : String) (f : SearchFilters) :
    ((w.store.count owner : Int) ≤ f.limit.getD Selection.defaultLimit →
      (∀ query, Store.queryWords query ≠ [] →
        Engine.search now owner query f w.store =
          (·.filter (·.meets query)) <$> Engine.list now owner f.selection w.store ∧
        ∀ limit : Option Int, 0 ≤ limit.getD Selection.defaultLimit →
          Engine.search now owner query { f with limit } w.store =
            (·.take (limit.getD Selection.defaultLimit).toNat) <$>
              Engine.search now owner query f w.store) ∧
      ∀ a b ma mb, Store.queryWords a ≠ [] → Store.queryWords b ≠ [] →
        Engine.search now owner a f w.store = .ok ma →
        Engine.search now owner b f w.store = .ok mb →
        ∃ ms, Engine.search now owner (a ++ " " ++ b) f w.store = .ok ms ∧
          ∀ m, m ∈ ms ↔ m ∈ ma ∨ m ∈ mb) ∧
    (∀ as bs : List String, (∀ a, a ∈ as ↔ a ∈ bs) →
      Engine.search now owner (" ".intercalate as) f w.store =
        Engine.search now owner (" ".intercalate bs) f w.store) ∧
    ∀ query, Store.queryWords query = [] →
      Engine.search now owner query f w.store = Engine.list now owner f.selection w.store := by
  have h : w.store.Searchable :=
    ⟨hw.sound, hw.indexed, fun m hm t htm => (hw.normal_tags hp m hm t htm).2⟩
  refine ⟨fun hlimit => ⟨fun query hwords => ⟨?_, fun limit hpos => ?_⟩,
    fun a b ma mb hwordsa hwordsb hma hmb => ?_⟩, fun as bs hsame => ?_, fun query hnone => ?_⟩
  · exact Engine.search_eq_filter_list h hwords hlimit
  · exact Engine.search_limited h hwords hlimit hpos
  · exact Engine.search_append h hlimit hwordsa hwordsb hma hmb
  · exact Engine.search_intercalate_congr hsame
  · exact Engine.search_of_no_words hnone

/-- A memory of which the content was changed. -/
def withCoffee : World :=
  Engine.oneTag.perform (.update 1 { content := some "green coffee" }) (withTea ⟨0⟩ 5)

/-- It is found by the words of its content as it is now, and by its tag. -/
theorem search_is_filtered_list_coffee :
    Engine.search ⟨0⟩ "ann" "coffee food" {} withCoffee.store =
      (·.filter (·.meets "coffee food")) <$>
        Engine.list ⟨0⟩ "ann" ({} : SearchFilters).selection withCoffee.store ∧
    withCoffee.store.memories.map (·.meets "coffee") = [true] ∧
    withCoffee.store.memories.map (·.meets "food") = [true] ∧
    withCoffee.store.memories.map (·.meets "tea") = [false] := by
  have hreached : withCoffee.Reached (· = .oneTag) := by
    obtain ⟨clock, hrun⟩ := reached_withTea ⟨0⟩ 5
    exact ⟨clock, hrun.tail ⟨.oneTag, _, rfl, rfl⟩⟩
  have hchecked : ∀ e, e = Engine.oneTag → ∃ c, Engine.ofConfig c = .ok e := by
    rintro e rfl
    exact ⟨_, Engine.ofConfig_oneTag⟩
  obtain ⟨hlisted, -⟩ := search_is_filtered_list hchecked hreached ⟨0⟩ "ann" {}
  exact ⟨((hlisted (by decide)).1 "coffee food" (by decide)).1,
    by decide +kernel, by decide +kernel, by decide +kernel⟩

end World

end LongTermMemory
