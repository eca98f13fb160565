import LongTermMemory.Proofs.Creation
import LongTermMemory.Proofs.Reading
import LongTermMemory.Proofs.Sorting
import LongTermMemory.Proofs.Stamp
import LongTermMemory.Proofs.Stamped
import LongTermMemory.Proofs.Store.Prepared
import LongTermMemory.Proofs.Store.Spelling
import LongTermMemory.Proofs.Text.Runs
import Mathlib.Data.Int.ConditionallyCompleteOrder
import Mathlib.Data.Prod.Lex
import Mathlib.Order.WithBot

/-!
Listing: what a selection lists are the memories that satisfy its filters, strictly in the order of
its field and of their ids, and its pages are pieces of that one list. Times are kept as texts,
which are in the order of time as long as the clock can be read back.
-/

namespace LongTermMemory

/-! ## Filters -/

/-- What a selection wants of a memory. -/
structure Selection.Wants (c : Selection) (m : Memory) : Prop where
  active : c.includeArchived = true ∨ m.archived = false
  tagged : ∀ tags, c.tags = some tags → tags = [] ∨ ∃ tag ∈ tags, normalizeTag tag ∈ m.tags
  type : ∀ t, c.type = some t → m.type = t
  category : ∀ name, c.category = some name → m.category = name
  importance : ∀ i, c.minImportance = some i → i ≤ m.importance
  after : ∀ id, c.afterId = some id → id < m.id

/-- No tag of a selection has a NUL. -/
def Selection.PlainTags (c : Selection) : Prop :=
  ∀ tags, c.tags = some tags → ∀ t ∈ tags, ∀ ch ∈ (normalizeTag t).toList, ch.toNat ≠ 0

namespace Selection

variable {c : Selection} {m : Memory}

/-- Where a tag has no NUL, carrying its name is carrying the tag. -/
theorem matchesTags_iff (hc : c.PlainTags) (hm : ∀ t ∈ m.tags, normalizeTag t = t) :
    c.matchesTags m = true ↔
      ∀ tags, c.tags = some tags → tags = [] ∨ ∃ tag ∈ tags, normalizeTag tag ∈ m.tags := by
  have hsame {t : String} (ht : t ∈ m.tags) {tags : List String} (htags : c.tags = some tags)
      {tag : String} (htag : tag ∈ tags) :
      Text.NoCase.same t (normalizeTag tag) = true ↔ t = normalizeTag tag := by
    refine Text.NoCase.same_iff_eq ?_ fun ch hch =>
      ⟨hc tags htags tag htag ch hch, Text.lowercase_not_capital _ ch hch⟩
    rw [← hm t ht]
    exact Text.lowercase_not_capital _
  unfold matchesTags
  cases htags : c.tags with
  | none => simp
  | some tags =>
    cases tags with
    | nil => simp
    | cons first rest =>
      simp only [carries, List.any_eq_true, List.mem_map]
      constructor
      · rintro ⟨t, ht, _, ⟨tag, htag, rfl⟩, h⟩ tags heq
        cases heq
        exact Or.inr ⟨tag, htag, (hsame ht htags htag).mp h ▸ ht⟩
      · intro h
        obtain hnil | ⟨tag, htag, ht⟩ := h _ rfl
        · cases hnil
        · exact ⟨_, ht, _, ⟨tag, htag, rfl⟩, (hsame ht htags htag).mpr rfl⟩

theorem admits_iff (hc : c.PlainTags) (hm : ∀ t ∈ m.tags, normalizeTag t = t) :
    c.admits m = true ↔ c.Wants m := by
  have hall {α : Type} (o : Option α) (q : α → Bool) :
      o.all q = true ↔ ∀ a, o = some a → q a = true := by
    cases o <;> simp
  simp only [admits, Bool.and_eq_true, Bool.or_eq_true, Bool.not_eq_true', hall,
    decide_eq_true_eq, matchesTags_iff hc hm]
  constructor
  · rintro ⟨⟨⟨⟨⟨hactive, htags⟩, htype⟩, hcategory⟩, himportance⟩, hafter⟩
    exact ⟨hactive, htags, fun t ht => (htype t ht).symm, fun n hn => (hcategory n hn).symm,
      himportance, hafter⟩
  · intro h
    exact ⟨⟨⟨⟨⟨h.active, h.tagged⟩, fun t ht => (h.type t ht).symm⟩,
      fun n hn => (h.category n hn).symm⟩, h.importance⟩, h.after⟩

end Selection

/-! ## Order -/

namespace SortField

/-- The value by which a memory is listed: times in milliseconds, and no time before all of them. -/
def value (f : SortField) (m : Memory) : WithBot Int :=
  match f with
  | .id => m.id
  | .createdAt => m.createdAt.millis
  | .lastModified => m.lastModified.millis
  | .lastAccessed => m.lastAccessed.elim ⊥ fun t => (t.millis : WithBot Int)
  | .importance => m.importance
  | .accessCount => m.accessCount

def key (f : SortField) (m : Memory) : WithBot Int ×ₗ MemoryId := toLex (f.value m, m.id)

/-- `a` is listed before `b`. -/
def Before (f : SortField) : SortOrder → Memory → Memory → Prop
  | .ascending, a, b => f.key a < f.key b
  | .descending, a, b => f.key b < f.key a

variable {f : SortField} {a b : Memory}

theorem less_iff (ha : a.Stamped (·.readable = true)) (hb : b.Stamped (·.readable = true)) :
    f.less a b = true ↔ f.value a < f.value b := by
  cases f with
  | id | importance | accessCount => simp [less, value]
  | createdAt =>
    simp only [less, value, decide_eq_true_eq, WithBot.coe_lt_coe]
    exact Instant.stamp_lt_iff ha.created hb.created
  | lastModified =>
    simp only [less, value, decide_eq_true_eq, WithBot.coe_lt_coe]
    exact Instant.stamp_lt_iff ha.modified hb.modified
  | lastAccessed =>
    cases ht : a.lastAccessed with
    | none => cases hu : b.lastAccessed <;> simp [less, value, stampBefore, ht, hu]
    | some t =>
      cases hu : b.lastAccessed with
      | none => simp [less, value, stampBefore, ht, hu]
      | some u =>
        simp only [less, value, stampBefore, ht, hu, Option.map_some, Option.elim_some,
          decide_eq_true_eq, WithBot.coe_lt_coe]
        exact Instant.stamp_lt_iff (ha.accessed t ht) (hb.accessed u hu)

/-- Memories alike in the field go by their ids. -/
theorem atOrBefore_ascending_iff (ha : a.Stamped (·.readable = true))
    (hb : b.Stamped (·.readable = true)) :
    f.atOrBefore .ascending a b = true ↔ f.key a ≤ f.key b := by
  simp only [atOrBefore, Bool.or_eq_true, Bool.and_eq_true, Bool.not_eq_true',
    ← Bool.not_eq_true, less_iff ha hb, less_iff hb ha, decide_eq_true_eq, key,
    Prod.Lex.toLex_le_toLex, not_lt]
  constructor
  · rintro (hless | ⟨hle, hid⟩)
    · exact Or.inl hless
    · exact hle.lt_or_eq.imp_right fun heq => ⟨heq, hid⟩
  · rintro (hless | ⟨heq, hid⟩)
    · exact Or.inl hless
    · exact Or.inr ⟨heq.le, hid⟩

theorem atOrBefore_descending (f : SortField) (a b : Memory) :
    f.atOrBefore .descending a b = f.atOrBefore .ascending b a := rfl

/-- Memories with distinct ids are listed strictly in the order of the field and of their ids. -/
theorem before_mergeSort (f : SortField) (o : SortOrder) {ms : List Memory}
    (hms : ∀ m ∈ ms, m.Stamped (·.readable = true)) (hids : (ms.map (·.id)).Nodup) :
    (ms.mergeSort (f.atOrBefore o)).Pairwise (f.Before o) := by
  have hdistinct : (ms.map f.key).Nodup := by
    refine List.Nodup.of_map (fun k => (ofLex k).2) ?_
    rwa [List.map_map]
  cases o with
  | ascending =>
    have hsort : ms.mergeSort (f.atOrBefore .ascending) =
        ms.mergeSort fun a b => decide (f.key a ≤ f.key b) :=
      mergeSort_congr fun a ha b hb => by
        rw [Bool.eq_iff_iff, atOrBefore_ascending_iff (hms a ha) (hms b hb), decide_eq_true_eq]
    rw [hsort]
    exact ascending_mergeSort f.key hdistinct
  | descending =>
    have hsort : ms.mergeSort (f.atOrBefore .descending) =
        ms.mergeSort fun a b => decide (f.key b ≤ f.key a) :=
      mergeSort_congr fun a ha b hb => by
        rw [atOrBefore_descending, Bool.eq_iff_iff, atOrBefore_ascending_iff (hms b hb) (hms a ha),
          decide_eq_true_eq]
    rw [hsort]
    exact descending_mergeSort (fun _ _ => decide_eq_true_iff) hdistinct

end SortField

/-- `a` is listed before `b`. -/
def Selection.Before (c : Selection) : Memory → Memory → Prop :=
  (c.sortBy.getD .default).Before (c.sortOrder.getD .default)

/-! ## Lists -/

namespace Store

/-- All that a selection lists of an owner's memories, whatever its limit and its offset. -/
def listing (s : Store) (owner : String) (c : Selection) : List Memory :=
  c.sorted ((s.memoriesOf owner).filter c.admits)

variable {s : Store} {owner : String} {c : Selection}

theorem mem_of_mem_page {m : Memory} {ms : List Memory} (h : m ∈ c.page ms) : m ∈ ms := by
  unfold Selection.page at h
  dsimp only at h
  split at h
  · exact List.mem_of_mem_drop h
  · exact List.mem_of_mem_drop (List.mem_of_mem_take h)

theorem list_eq (s : Store) (now : Instant) (owner : String) (c : Selection) :
    s.list now owner c = (c.page (s.listing owner c)).map (·.readAt now) := by
  have hfound : ((s.entriesOf owner).filter fun e => true && c.admits e.memory).map (·.memory) =
      (s.memoriesOf owner).filter c.admits := by
    rw [memoriesOf, List.filter_map]
    rfl
  rw [list, select, hfound, listing]

theorem mem_listing {m : Memory} :
    m ∈ s.listing owner c ↔ m ∈ s.memories ∧ m.owner = owner ∧ c.admits m = true := by
  rw [listing, Selection.sorted, List.mem_mergeSort, List.mem_filter, mem_memoriesOf, and_assoc]

theorem listing_ordered (hs : s.Sound) (hstamped : s.Stamped (·.readable = true)) :
    (s.listing owner c).Pairwise c.Before := by
  refine SortField.before_mergeSort _ _ (fun m hm => ?_) ?_
  · exact hstamped m (mem_memoriesOf.mp (List.mem_filter.mp hm).1).1
  · exact (hs.nodup_ids_of owner).sublist (List.filter_sublist.map _)

/-- Where all stamps can be read back, a list is a piece of the listing as it is. -/
theorem list_of_stamped (hstamped : s.Stamped (·.readable = true)) (now : Instant) :
    s.list now owner c = c.page (s.listing owner c) := by
  have hpage : ∀ m ∈ c.page (s.listing owner c), m.readAt now = m := fun m hm =>
    (hstamped m (mem_listing.mp (mem_of_mem_page hm)).1).readAt now
  rw [list_eq, List.map_congr_left hpage, List.map_id']

end Store

/-! ## Pages -/

/-- Consecutive pieces of `k` members are the front of a list. -/
theorem flatMap_pieces {α : Type} (l : List α) (k n : Nat) :
    (List.range n).flatMap (fun i => (l.drop (i * k)).take k) = l.take (n * k) := by
  induction n with
  | zero => simp
  | succ n ih => rw [List.range_succ, List.flatMap_append, ih, Nat.succ_mul, List.take_add]; simp

namespace Selection

/-- The same selection of other memories: at most `limit` from the place `offset` on. -/
def cut (c : Selection) (limit offset : Option Int) : Selection :=
  { c with limit := limit, offset := offset }

/-- The same selection after an id. -/
def startingAfter (c : Selection) (id : Option MemoryId) : Selection := { c with afterId := id }

theorem page_cut (c : Selection) {limit : Option Int} (hlimit : ∀ l, limit = some l → 0 ≤ l)
    (offset : Option Int) (ms : List Memory) : (c.cut limit offset).page ms =
      (ms.drop (offset.getD 0).toNat).take (limit.getD defaultLimit).toNat := by
  have hnonneg : ¬limit.getD defaultLimit < 0 := by
    cases limit with
    | none => decide
    | some l => exact Int.not_lt.mpr (hlimit l rfl)
  exact if_neg hnonneg

theorem admits_startingAfter (c : Selection) (after : Option MemoryId) (m : Memory) :
    (c.startingAfter after).admits m =
      ((c.startingAfter none).admits m && after.all (· < m.id)) := by
  have htags : (c.startingAfter after).matchesTags m = (c.startingAfter none).matchesTags m := rfl
  rw [admits, admits, htags]
  simp [startingAfter]

end Selection

/-- In the order of ids, what is listed after an id is the rest of what is listed at all. -/
theorem Store.listing_startingAfter {s : Store} (hs : s.Sound) (owner : String) {c : Selection}
    (hfield : c.sortBy.getD .default = .id) (horder : c.sortOrder.getD .default = .ascending)
    (after : Option MemoryId) :
    s.listing owner (c.startingAfter after) = past after (s.listing owner (c.startingAfter none)) ∧
      ById (s.listing owner (c.startingAfter none)) := by
  have hascending (after : Option MemoryId) :
      ById ((s.memoriesOf owner).filter (c.startingAfter after).admits) := by
    rw [memoriesOf_eq]
    exact hs.ascending.sublist ((List.filter_sublist.trans List.filter_sublist).map _)
  have hsorted (after : Option MemoryId) : s.listing owner (c.startingAfter after) =
      (s.memoriesOf owner).filter (c.startingAfter after).admits := by
    have hsort := (hascending after).mergeSort_eq
    rw [← hfield, ← horder] at hsort
    exact hsort
  rw [hsorted, hsorted]
  refine ⟨?_, hascending none⟩
  rw [past, List.filter_filter]
  exact List.filter_congr fun m _ => by rw [Selection.admits_startingAfter, Bool.and_comm]

/-- The memories that are listed page after page, each page after the last id of the one before,
until one has fewer than `k`. -/
inductive Followed (page : Option MemoryId → Except Error (List Memory)) (k : Nat) :
    Option MemoryId → List Memory → Prop
  | last {after : Option MemoryId} {ms : List Memory} (hpage : page after = .ok ms)
      (hshort : ms.length < k) : Followed page k after ms
  | next {after : Option MemoryId} {ms rest : List Memory} {m : Memory}
      (hpage : page after = .ok ms) (hfull : k ≤ ms.length) (hlast : ms.getLast? = some m)
      (hrest : Followed page k (some m.id) rest) : Followed page k after (ms ++ rest)

/-- Past the last of a page are the others. -/
theorem past_page {all page rest : List Memory} (hall : ById all) {after : Option MemoryId}
    (h : past after all = page ++ rest) {m : Memory} (hm : page.getLast? = some m) :
    past (some m.id) all = rest := by
  have hlater : after.all (· < m.id) = true := by
    have hmem : m ∈ past after all := h ▸ List.mem_append_left _ (List.mem_of_getLast? hm)
    exact (List.mem_filter.mp hmem).2
  have htwice : past (some m.id) all = past (some m.id) (past after all) := by
    simp only [past, List.filter_filter]
    refine List.filter_congr fun k _ => ?_
    cases after with
    | none => simp
    | some id =>
      have hid : id < m.id := of_decide_eq_true hlater
      show decide (m.id < k.id) = (decide (m.id < k.id) && decide (id < k.id))
      rw [← Bool.decide_and]
      exact decide_eq_decide.mpr ⟨fun hlt => ⟨hlt, Int.lt_trans hid hlt⟩, And.left⟩
  have hrest : ById (page ++ rest) := h ▸ hall.sublist (List.filter_sublist.map _)
  have hpast := past_last hrest
  rw [hm] at hpast
  rw [htwice, h]
  exact hpast

/-- Whatever the size of the pages, following them lists all there is, and nothing else. -/
theorem Followed.iff {all : List Memory} (hall : ById all)
    {page : Option MemoryId → Except Error (List Memory)} {k : Nat} (hk : 0 < k)
    (hpage : ∀ after, page after = .ok ((past after all).take k)) {after : Option MemoryId}
    {listed : List Memory} : Followed page k after listed ↔ listed = past after all := by
  induction hn : (past after all).length using Nat.strong_induction_on
    generalizing after listed with
  | _ n ih =>
    have hrest {m : Memory} (hm : ((past after all).take k).getLast? = some m) :
        past (some m.id) all = (past after all).drop k :=
      past_page hall (List.take_append_drop k _).symm hm
    constructor
    · intro h
      cases h with
      | last hok hshort =>
        cases (hpage after).symm.trans hok
        rw [List.length_take] at hshort
        exact List.take_of_length_le (by omega)
      | @next _ ms rest m hok hfull hlast hfollowed =>
        cases (hpage after).symm.trans hok
        rw [List.length_take] at hfull
        have hless : (past (some m.id) all).length < n := by
          rw [hrest hlast, List.length_drop]
          omega
        rw [(ih _ hless rfl).mp hfollowed, hrest hlast, List.take_append_drop]
    · rintro rfl
      rcases Nat.lt_or_ge (past after all).length k with hshort | hfull
      · have hwhole : (past after all).take k = past after all :=
          List.take_of_length_le (Nat.le_of_lt hshort)
        exact .last (by rw [hpage, hwhole]) hshort
      · have hlength : ((past after all).take k).length = k := by
          rw [List.length_take]
          omega
        have hnonempty : (past after all).take k ≠ [] := by
          intro hnil
          rw [hnil, List.length_nil] at hlength
          omega
        have hlast := List.getLast?_eq_some_getLast hnonempty
        generalize ((past after all).take k).getLast hnonempty = m at hlast
        have hless : (past (some m.id) all).length < n := by
          rw [hrest hlast, List.length_drop]
          omega
        have hfollowed : Followed page k (some m.id) (past (some m.id) all) :=
          (ih _ hless rfl).mpr rfl
        have hnext := Followed.next (hpage after) (by omega) hlast hfollowed
        rwa [hrest hlast, List.take_append_drop] at hnext

/-! ## Lists of an engine -/

namespace Engine

variable {now : Instant} {owner : String} {c : Selection} {s : Store}

theorem list_of_blank (howner : Text.blank owner = true) :
    list now owner c s = .error (.validation .blankOwner) := by
  simp [list, Invalid.checkOwner, howner, Invalid.ensure, Invalid.raise, Bind.bind, Except.bind]

theorem list_of_owner (howner : Text.blank owner = false) :
    list now owner c s = (do
      Invalid.raise (Invalid.ifPresent Invalid.checkLimit c.limit)
      .ok (s.list now owner c)) := by
  rw [list, Invalid.raise_checkOwner howner]
  rfl

theorem list_of_negative (howner : Text.blank owner = false) {limit : Int}
    (hlimit : c.limit = some limit) (h : limit < 0) :
    list now owner c s = .error (.validation (.negativeLimit limit)) := by
  have hcheck : Invalid.checkLimit limit = .error (.negativeLimit limit) := by
    simp [Invalid.checkLimit, Invalid.ensure, h]
  rw [list_of_owner howner, hlimit]
  simp [Invalid.ifPresent, hcheck, Invalid.raise, Bind.bind, Except.bind]

theorem list_of_accepted (howner : Text.blank owner = false)
    (hlimit : ∀ limit, c.limit = some limit → 0 ≤ limit) :
    list now owner c s = .ok (s.list now owner c) := by
  have hcheck : Invalid.ifPresent Invalid.checkLimit c.limit = .ok () :=
    Invalid.ifPresent_eq_ok.mpr fun limit hsome => Invalid.checkLimit_eq_ok.mpr (hlimit limit hsome)
  rw [list_of_owner howner, hcheck]
  rfl

end Engine

/-- `all` is what a selection lists of the memories of an owner, whatever its limit and offset, and
every list of that selection is cut from it. -/
structure Store.Lists (s : Store) (now : Instant) (owner : String) (c : Selection)
    (all : List Memory) : Prop where
  members : ∀ m, m ∈ all ↔ s.get now m.id = .ok m ∧ m.owner = owner ∧ c.Wants m
  ordered : all.Pairwise c.Before
  /-- The query of a list, its values taken by their places, gives the same. -/
  cut : ∀ limit offset, (∀ l, limit = some l → 0 ≤ l) →
    ∃ rows, rows = (all.drop (offset.getD 0).toNat).take
        (limit.getD Selection.defaultLimit).toNat ∧
      Engine.list now owner (c.cut limit offset) s = .ok rows ∧
      (Prepared.Query.ofSelection owner none (c.cut limit offset)).rows? now s = some rows

namespace Store.Lists

variable {s : Store} {now : Instant} {owner : String} {c : Selection} {all : List Memory}

theorem whole (h : s.Lists now owner c all) {limit : Nat} (hlimit : all.length ≤ limit) :
    Engine.list now owner (c.cut (some limit) none) s = .ok all := by
  obtain ⟨rows, hrows, hlist, -⟩ := h.cut (some limit) none fun _ hl => by cases hl; omega
  rw [hlist, hrows]
  exact congrArg Except.ok (List.take_of_length_le hlimit)

theorem piece (h : s.Lists now owner c all) (k i : Nat) :
    Engine.list now owner (c.cut (some k) (some (i * k))) s =
      .ok ((all.drop (i * k)).take k) := by
  obtain ⟨rows, hrows, hlist, -⟩ := h.cut (some k) (some (i * k)) fun _ hl => by cases hl; omega
  rw [hlist, hrows]
  rfl

end Store.Lists

namespace World

variable {p : Engine → Prop} {w : World}

theorem ReachedAt.get_eq_ok (hw : w.ReachedAt p (·.readable = true)) {now : Instant} {m : Memory} :
    w.store.get now m.id = .ok m ↔ m ∈ w.store.memories := by
  rw [Store.get_eq_ok]
  constructor
  · rintro ⟨k, hk, hread⟩
    obtain ⟨hmem, -⟩ := Store.mem_of_kept? hk
    rw [hw.readAt_eq hmem] at hread
    exact hread ▸ hmem
  · intro hm
    exact ⟨m, hw.reached.sound.kept?_of_mem hm, hw.readAt_eq hm now⟩

theorem ReachedAt.lists (hp : ∀ e, p e → ∃ c, Engine.ofConfig c = .ok e)
    (hw : w.ReachedAt p (·.readable = true)) (now : Instant) {owner : String}
    (howner : Text.blank owner = false) {c : Selection} (hc : c.PlainTags) :
    w.store.Lists now owner c (w.store.listing owner c) := by
  refine
    { members := fun m => ?_
      ordered := Store.listing_ordered hw.reached.sound hw.stamped
      cut := fun limit offset hlimit => ⟨_, rfl, ?_, ?_⟩ }
  · rw [Store.mem_listing, hw.get_eq_ok]
    refine and_congr_right fun hm => and_congr_right fun _ => ?_
    exact Selection.admits_iff hc fun t ht => (hw.reached.normal_tags hp m hm t ht).2
  · rw [Engine.list_of_accepted howner hlimit, Store.list_of_stamped hw.stamped]
    exact congrArg Except.ok (c.page_cut hlimit offset _)
  · rw [Prepared.Query.rows?_ofSelection]
    have hlist : w.store.list now owner (c.cut limit offset) = _ :=
      Store.list_of_stamped hw.stamped now
    exact congrArg some (hlist.trans (c.page_cut hlimit offset _))

/-- In the order of ids, pages that each follow the last id of the one before make up the list. -/
theorem ReachedAt.followed_iff (hp : ∀ e, p e → ∃ c, Engine.ofConfig c = .ok e)
    (hw : w.ReachedAt p (·.readable = true)) (now : Instant) {owner : String}
    (howner : Text.blank owner = false) {c : Selection} (hc : c.PlainTags)
    (hfield : c.sortBy.getD .default = .id) (horder : c.sortOrder.getD .default = .ascending)
    {k : Nat} (hk : 0 < k) {listed : List Memory} :
    Followed (fun after =>
      Engine.list now owner ((c.cut (some k) none).startingAfter after) w.store)
      k c.afterId listed ↔ listed = w.store.listing owner c := by
  have hpast (after : Option MemoryId) := Store.listing_startingAfter hw.reached.sound owner hfield
    horder after
  have hpage (after : Option MemoryId) :
      Engine.list now owner ((c.cut (some k) none).startingAfter after) w.store =
        .ok ((past after (w.store.listing owner (c.startingAfter none))).take k) := by
    have hlists := hw.lists hp now howner (show (c.startingAfter after).PlainTags from hc)
    obtain ⟨rows, hrows, hlist, -⟩ := hlists.cut (some k) none fun _ hl => by cases hl; omega
    rw [(hpast after).1] at hrows
    exact hlist.trans (congrArg Except.ok hrows)
  rw [Followed.iff (hpast none).2 hk hpage, ← (hpast c.afterId).1]
  rfl

/-- A list is refused for a blank owner and then for a negative limit. Otherwise it is cut from the
one list of all memories that the selection wants, strictly in its order. Pages at the offsets of
their places make up that list, and so do pages that each follow the last id of the one before, if
they are in the order of ids. -/
theorem lists_are_cut_from_one {p : Engine → Prop} (hp : ∀ e, p e → ∃ c, Engine.ofConfig c = .ok e)
    {w : World} (hw : w.ReachedAt p (·.readable = true)) (now : Instant) (owner : String)
    (c : Selection) (hc : c.PlainTags) :
    (Text.blank owner = true → Engine.list now owner c w.store = .error (.validation .blankOwner)) ∧
    (Text.blank owner = false →
      (∀ limit, c.limit = some limit → limit < 0 →
        Engine.list now owner c w.store = .error (.validation (.negativeLimit limit))) ∧
      ∃ all, w.store.Lists now owner c all ∧
        (∀ limit : Nat, all.length ≤ limit →
          Engine.list now owner (c.cut (some limit) none) w.store = .ok all) ∧
        (∀ k : Nat, 0 < k → ∃ pages : Nat → List Memory,
          (∀ i : Nat,
            Engine.list now owner (c.cut (some k) (some (i * k))) w.store = .ok (pages i)) ∧
          ∀ n, all.length ≤ n * k → (List.range n).flatMap pages = all) ∧
        (c.sortBy.getD .default = .id → c.sortOrder.getD .default = .ascending →
          ∀ k : Nat, 0 < k → ∀ listed,
            Followed (fun after =>
              Engine.list now owner ((c.cut (some k) none).startingAfter after) w.store) k
              c.afterId listed ↔ listed = all)) := by
  refine ⟨Engine.list_of_blank, fun howner => ⟨fun limit => Engine.list_of_negative howner, ?_⟩⟩
  have hlists := hw.lists hp now howner hc
  refine ⟨_, hlists, fun limit => hlists.whole, fun k hk => ⟨_, hlists.piece k, fun n hn => ?_⟩,
    fun hfield horder k hk listed => hw.followed_iff hp now howner hc hfield horder hk⟩
  rw [flatMap_pieces, List.take_of_length_le hn]

def greenTea : NewMemory := { tea 7 with content := "green tea" }

/-- A world with two memories of one owner. -/
def bothTeas : World := Engine.oneTag.perform (.create greenTea) (withTea ⟨0⟩ 5)

theorem reachedAt_bothTeas : bothTeas.ReachedAt (· = .oneTag) (·.readable = true) := by
  have hread : ∀ t ∈ [Instant.mk 0], t.readable = true := by decide
  have hstart : (start ⟨0⟩).ReachedAt (· = .oneTag) (·.readable = true) := .start ⟨0⟩
  have htea := hstart.perform .oneTag rfl (.create (tea 5)) hread
  exact htea.perform .oneTag rfl (.create greenTea) hread

/-- A selection by a tag that is not in normal form. -/
def foodById : Selection :=
  { tags := some [" Food "], sortBy := some .id, sortOrder := some .ascending }

theorem lists_are_cut_from_one_bothTeas : ∃ a b all, bothTeas.store.get ⟨0⟩ 1 = .ok a ∧
    bothTeas.store.get ⟨0⟩ 2 = .ok b ∧ bothTeas.store.Lists ⟨0⟩ "ann" foodById all ∧
    a ∈ all ∧ b ∈ all ∧
    Followed (fun after =>
      Engine.list ⟨0⟩ "ann" ((foodById.cut (some 1) none).startingAfter after) bothTeas.store) 1
      none all := by
  have hfood : normalizeTag " Food " = "food" := by decide
  have hplain : foodById.PlainTags := by
    intro tags htags t ht
    cases htags
    rw [List.mem_singleton.mp ht, hfood]
    simp
  obtain ⟨-, haccepted⟩ := lists_are_cut_from_one (p := (· = .oneTag))
    (fun e he => ⟨.oneTag, he ▸ Engine.ofConfig_oneTag⟩) reachedAt_bothTeas ⟨0⟩ "ann" foodById
    hplain
  obtain ⟨-, all, hlists, -, -, hfollowed⟩ := haccepted (by decide)
  have hwants {m : Memory} (htags : m.tags = ["food"]) (hactive : m.archived = false) :
      foodById.Wants m := by
    refine ⟨Or.inr hactive, fun tags h => ?_, nofun, nofun, nofun, nofun⟩
    cases h
    refine Or.inr ⟨_, List.mem_singleton_self _, ?_⟩
    rw [hfood, htags]
    exact List.mem_singleton_self _
  refine ⟨_, _, all, rfl, rfl, hlists, ?_, ?_, ?_⟩
  · exact (hlists.members _).mpr ⟨rfl, rfl, hwants (List.mergeSort_singleton _) rfl⟩
  · exact (hlists.members _).mpr ⟨rfl, rfl, hwants (List.mergeSort_singleton _) rfl⟩
  · exact (hfollowed rfl rfl 1 Nat.one_pos all).mpr rfl

/-- A memory is listed for a tag that it does not carry. -/
theorem list_matches_other_tag : ∃ (e : Engine) (m : Memory), Engine.ofConfig oneName = .ok e ∧
    withFirstTag.ReachedAt (· = e) (·.readable = true) ∧ withFirstTag.store.get ⟨0⟩ 1 = .ok m ∧
    m.tags = ["a\x00bb"] ∧ normalizeTag "a\x00zz" = "a\x00zz" ∧
    Engine.list ⟨0⟩ "u1" { tags := some ["a\x00zz"] } withFirstTag.store = .ok [m] := by
  have hread : ∀ t ∈ [Instant.mk 0], t.readable = true := by decide
  have hstart : (start ⟨0⟩).ReachedAt (· = .ofUnchecked oneName) (·.readable = true) := .start ⟨0⟩
  obtain ⟨m, hmemories, hget, htags, hadmits, hsame⟩ : ∃ m : Memory,
      withFirstTag.store.memoriesOf "u1" = [m] ∧ withFirstTag.store.get ⟨0⟩ 1 = .ok m ∧
      m.tags = ["a\x00bb"] ∧ Selection.admits { tags := some ["a\x00zz"] } m = true ∧
      m.readAt ⟨0⟩ = m :=
    ⟨_, rfl, rfl, List.mergeSort_singleton _, by decide +kernel, rfl⟩
  refine ⟨_, m, rfl, hstart.perform _ rfl (.create firstTag) hread, hget, htags,
    by decide, ?_⟩
  have hlisting : withFirstTag.store.listing "u1" { tags := some ["a\x00zz"] } = [m] := by
    rw [Store.listing, hmemories, List.filter_cons_of_pos hadmits, List.filter_nil]
    exact List.mergeSort_singleton _
  have haccepted : Engine.list ⟨0⟩ "u1" { tags := some ["a\x00zz"] } withFirstTag.store =
      .ok (withFirstTag.store.list ⟨0⟩ "u1" { tags := some ["a\x00zz"] }) :=
    Engine.list_of_accepted (by decide) fun _ hlimit => nomatch hlimit
  rw [haccepted, Store.list_eq, hlisting]
  exact congrArg (fun k => Except.ok [k]) hsame

end World

end LongTermMemory
