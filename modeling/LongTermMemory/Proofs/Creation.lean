import LongTermMemory.Proofs.Integrity
import LongTermMemory.Proofs.Merging
import LongTermMemory.Proofs.Store.Spelling
import LongTermMemory.Proofs.Text.Runs

/-!
Creation: what becomes of a request that is accepted. The memory kept is the request in its normal
form, which is the normal form of itself. Tags alone need more: they are kept under names of a
collation that reads a text up to its first NUL, so that a tag with a NUL may come back as another
one, or not at all.
-/

namespace LongTermMemory

/-! ## Names without NUL -/

namespace Text.NoCase

/-- Plain names stand in the order of texts. -/
theorem le_of_plain {a b : String} (ha : Plain a) (hb : Plain b) (h : a < b) : le a b = true := by
  by_contra hnot
  have hba : le b a = true := by
    have htotal := le_total a b
    simpa [hnot] using htotal
  rw [le_eq_isLE] at hba
  cases hc : compareNames b a with
  | lt => exact absurd (lt_of_plain b a hb ha hc) (String.lt_asymm h)
  | eq =>
    have hsame : same b a = true := by simp [same, hc]
    have heq : b = a := (same_iff_eq (fun c hc => (hb c hc).2) ha).mp hsame
    exact absurd (heq ▸ h) (String.lt_irrefl a)
  | gt => simp [hc] at hba

end Text.NoCase

namespace Store

variable {names tags : List String}

/-- Among names without capitals a plain tag is kept as it is. -/
theorem spell_of_plain (hnames : ∀ n ∈ names, ∀ c ∈ n.toList, ¬('A' ≤ c ∧ c ≤ 'Z')) {tag : String}
    (htag : Text.NoCase.Plain tag) : (spell names tag).1 = tag ∧
      ∀ n ∈ (spell names tag).2, ∀ c ∈ n.toList, ¬('A' ≤ c ∧ c ≤ 'Z') := by
  unfold spell
  split
  · next n hfind =>
    have hsame : Text.NoCase.same n tag = true := by
      rw [Text.NoCase.same_comm]
      exact List.find?_some hfind
    exact ⟨(Text.NoCase.same_iff_eq (hnames n (List.mem_of_find?_eq_some hfind)) htag).mp hsame,
      hnames⟩
  · refine ⟨rfl, fun n hn => ?_⟩
    rcases List.mem_append.mp hn with hn | hn
    · exact hnames n hn
    · rw [List.mem_singleton.mp hn]
      exact fun c hc => (htag c hc).2

theorem spellAll_of_plain (hnames : ∀ n ∈ names, ∀ c ∈ n.toList, ¬('A' ≤ c ∧ c ≤ 'Z'))
    (htags : ∀ t ∈ tags, Text.NoCase.Plain t) (hnodup : tags.Nodup) :
    (spellAll names tags).1 = tags := by
  induction tags generalizing names with
  | nil => rfl
  | cons tag rest ih =>
    obtain ⟨hnew, hnodup⟩ := List.nodup_cons.mp hnodup
    obtain ⟨hspell, hnames⟩ := spell_of_plain hnames (htags tag (by simp))
    simp only [spellAll, ih hnames (fun t ht => htags t (by simp [ht])) hnodup, hspell]
    rw [if_neg (by simpa using hnew)]

/-- Plain tags in the order of texts are kept as they are. -/
theorem keepTags_of_plain (hnames : ∀ n ∈ names, ∀ c ∈ n.toList, ¬('A' ≤ c ∧ c ≤ 'Z'))
    (htags : ∀ t ∈ tags, Text.NoCase.Plain t) (hascending : tags.Pairwise (· < ·)) :
    (keepTags names tags).1 = tags := by
  have hnodup : tags.Nodup := hascending.imp String.ne_of_lt
  show (spellAll names tags).1.mergeSort Text.NoCase.le = tags
  rw [spellAll_of_plain hnames htags hnodup]
  exact List.mergeSort_of_pairwise (hascending.imp_of_mem fun {a b} ha hb hlt =>
    Text.NoCase.le_of_plain (htags a ha) (htags b hb) hlt)

/-- Every tag kept stands for one of the tags given. -/
theorem exists_tag_of_mem_keepTags {name : String} (h : name ∈ (keepTags names tags).1) :
    ∃ t ∈ tags, Text.NoCase.same t name = true := by
  have hall : ∀ (names tags : List String), name ∈ (spellAll names tags).1 →
      ∃ t ∈ tags, Text.NoCase.same t name = true := by
    intro names tags
    induction tags generalizing names with
    | nil => intro h; cases h
    | cons tag rest ih =>
      intro h
      have hcases : name = (spell names tag).1 ∨
          name ∈ (spellAll (spell names tag).2 rest).1 := by
        simp only [spellAll] at h
        split at h
        · exact Or.inr h
        · exact List.mem_cons.mp h
      rcases hcases with rfl | hrest
      · exact ⟨tag, by simp, same_spell names tag⟩
      · obtain ⟨t, ht, hsame⟩ := ih _ hrest
        exact ⟨t, List.mem_cons_of_mem tag ht, hsame⟩
  exact hall names tags (List.mem_mergeSort.mp h)

/-! ## Contexts -/

/-- The contexts of a new memory are those of its request, in their order. -/
theorem contextsOf_withNewcomer {s : Store} (hs : s.Sound) (href : s.Referential) (now : Instant)
    (r : NewMemory) : (s.withNewcomer now r).contextsOf (s.lastMemoryId + 1) =
      r.contexts.mapIdx fun i c =>
        keptContext (s.lastContextId + 1 + i) (s.lastMemoryId + 1) c := by
  have hnone : s.contexts.filter (fun c => c.memoryId = s.lastMemoryId + 1) = [] := by
    refine List.filter_eq_nil_iff.mpr fun c hc hid => ?_
    obtain ⟨m, hm, hmid⟩ := exists?_iff.mp (href.contexts c hc)
    exact hs.id_ne_next hm (hmid.trans (of_decide_eq_true hid))
  rw [contextsOf, withNewcomer, addContexts_eq, List.filter_append, hnone, List.nil_append]
  refine List.filter_eq_self.mpr fun c hc => ?_
  obtain ⟨i, hi, rfl⟩ := List.mem_mapIdx.mp hc
  exact decide_eq_true rfl

theorem contextsOf_withNewcomer_of_ne (s : Store) (now : Instant) (r : NewMemory) {id : MemoryId}
    (h : id ≠ s.lastMemoryId + 1) : (s.withNewcomer now r).contextsOf id = s.contextsOf id := by
  obtain ⟨kept, last, heq, hkept⟩ := withNewcomer_eq s now r
  have hnone : kept.filter (fun c => c.memoryId = id) = [] := by
    refine List.filter_eq_nil_iff.mpr fun c hc hid => h ?_
    rw [← of_decide_eq_true hid, (hkept c hc).1]
  rw [heq, contextsOf, List.filter_append, hnone, List.append_nil]
  rfl

end Store

/-! ## The memory of a request -/

/-- A memory as a request in normal form makes it, its id and its tags aside. -/
structure Memory.MadeFrom (m : Memory) (now : Instant) (r : NewMemory) : Prop where
  owner : m.owner = r.owner
  content : m.content = r.content
  type : r.type = some m.type
  category : r.category = some m.category
  importance : m.importance = r.importance ∧ m.dynamicImportance = Single.ofInt r.importance
  /-- As numbers; the sign of a zero is not kept. -/
  confidence : m.confidence.place = r.confidence.place
  source : m.sourceType = r.sourceType ∧ m.sourceId = r.sourceId
  createdBy : m.createdBy = r.createdBy.getD systemActor
  related : m.related.Pairwise (· < ·) ∧ ∀ id, id ∈ m.related ↔ id ∈ r.related
  parent : m.parent = r.parent
  metadata : m.metadata = r.metadata
  stamps : m.createdAt = now ∧ m.lastModified = now ∧ m.lastAccessed = none ∧ m.lastAgedAt = none
  untouched : m.version = 1 ∧ m.accessCount = 0 ∧ m.archived = false ∧ m.archiveReason = none

/-- Tags as they are kept of those of a request: as names, each once and in the order of names. -/
structure Memory.Spells (m : Memory) (tags : List String) : Prop where
  ascending : m.tags.Pairwise fun a b => Text.NoCase.compareNames a b = .lt
  given : ∀ t ∈ tags, ∃ name ∈ m.tags, Text.NoCase.same t name = true
  kept : ∀ name ∈ m.tags, ∃ t ∈ tags, Text.NoCase.same t name = true
  /-- Tags without NUL are kept as they are, in the order of bytes. -/
  plain : (∀ t ∈ tags, ∀ c ∈ t.toList, c.toNat ≠ 0) → m.tags = tags ∧ m.tags.Pairwise (· < ·)

namespace Store

theorem madeFrom_newcomer (s : Store) (now : Instant) {r : NewMemory} {v : Vocabulary}
    (hr : r.Normal v) (htype : r.type.isSome = true) :
    ((s.newcomer now r).readAt now).MadeFrom now r := by
  obtain ⟨type, htype⟩ := Option.isSome_iff_exists.mp htype
  obtain ⟨category, hcategory, -⟩ := hr.category
  refine
    { owner := rfl
      content := rfl
      type := by rw [htype]; simp [newcomer, newMemory, Memory.readAt, htype]
      category := by rw [hcategory]; simp [newcomer, newMemory, Memory.readAt, hcategory]
      importance := ⟨rfl, rfl⟩
      confidence := Single.place_stored r.confidence
      source := ⟨rfl, rfl⟩
      createdBy := rfl
      related := ⟨Ascending.pairwise_ofList _, fun id => Ascending.mem_ofList id _⟩
      parent := rfl
      metadata := rfl
      stamps := ⟨ite_self now, ite_self now, rfl, rfl⟩
      untouched := ⟨rfl, rfl, rfl, rfl⟩ }

/-- Tags of a vocabulary, strictly ascending, are kept as names. -/
theorem spells_of_keepTags {names : List String} (hdistinct : DistinctNames names)
    (hnormal : ∀ n ∈ names, n ≠ "" ∧ normalizeTag n = n) {l tags : List String}
    (htags : (Vocabulary.ofList l).Accepts tags) {m : Memory}
    (hm : m.tags = (keepTags names tags).1) : m.Spells tags := by
  obtain ⟨-, hascending, hknown⟩ := htags
  refine
    { ascending := hm ▸ ascending_keepTags hdistinct tags
      given := fun t ht => hm ▸ exists_mem_keepTags names ht
      kept := fun name hname => exists_tag_of_mem_keepTags (hm ▸ hname)
      plain := fun hnul => ?_ }
  have hcapital : ∀ n ∈ names, ∀ c ∈ n.toList, ¬('A' ≤ c ∧ c ≤ 'Z') := by
    intro n hn
    rw [← (hnormal n hn).2]
    exact Text.lowercase_not_capital _
  have hkept : m.tags = tags :=
    hm.trans (keepTags_of_plain hcapital
      (fun t ht => Vocabulary.plain_of_mem_ofList (hknown t ht) (hnul t ht)) hascending)
  exact ⟨hkept, hkept ▸ hascending⟩

end Store

namespace World

/-- An accepted request is its own normal form once it is prepared, so that it makes the same memory
either way. If its parent is kept it is carried out: what is returned is what is read back, made
from the prepared request, and beside it and its contexts nothing has changed. -/
theorem create_round_trips {p : Engine → Prop} (hp : ∀ e, p e → ∃ c, Engine.ofConfig c = .ok e)
    {w : World} (hw : w.Reached p) {c : Config} {e : Engine} (he : Engine.ofConfig c = .ok e)
    (now : Instant) {r r' : NewMemory} (hr : e.prepare r = .ok r') :
    e.prepare r' = .ok r' ∧ e.create now r' w.store = e.create now r w.store ∧
    ((∀ id, r.parent = some id → w.store.exists? id = true) →
      ∃ m s', e.create now r w.store = .ok (m, s') ∧ w.store.kept? m.id = none ∧
        s'.get now m.id = .ok m ∧
        (now.readable = true → ∀ later, s'.get later m.id = .ok m) ∧
        m.MadeFrom now r' ∧ m.Spells r'.tags ∧
        s'.contextsOf m.id = r.contexts.mapIdx (fun i k =>
          Store.keptContext (w.store.lastContextId + 1 + i) m.id k) ∧
        ∀ id, id ≠ m.id → s'.kept? id = w.store.kept? id ∧
          s'.contextsOf id = w.store.contextsOf id) := by
  obtain ⟨-, rfl⟩ := Engine.ofConfig_eq_ok.mp he
  have hs := hw.sound
  have hnormal := Engine.normal_of_prepare hr
  have hagain := Engine.prepare_prepare hr
  have hsame : r'.type.isSome = true ∧ r'.contexts = r.contexts := by
    obtain ⟨tags, -, rfl⟩ := Engine.prepare_eq_ok hr
    exact ⟨rfl, rfl⟩
  refine ⟨hagain, by rw [Engine.create, Engine.create, hagain, hr], fun hparent => ?_⟩
  have hcreate := Engine.create_of_prepare hr now hparent
  have hkept := hs.kept?_withNewcomer now r'
  refine ⟨_, _, bind_eq_ok.mpr ⟨r', hr, hcreate⟩, hs.kept?_next,
    Store.get_eq_ok.mpr ⟨_, hkept, rfl⟩, fun hnow later => ?_,
    Store.madeFrom_newcomer w.store now hnormal hsame.1,
    Store.spells_of_keepTags hw.distinctNames (hw.normal_names hp) hnormal.tags rfl,
    hsame.2 ▸ Store.contextsOf_withNewcomer hs hw.referential now r', fun id hid =>
      ⟨Store.kept?_withNewcomer_of_ne w.store now r' hid,
        Store.contextsOf_withNewcomer_of_ne w.store now r' hid⟩⟩
  refine Store.get_eq_ok.mpr ⟨_, hkept, ?_⟩
  simp [Store.newcomer, Store.newMemory, Memory.readAt, hnow]

/-- A request that is not in normal form, for a memory under the first one. -/
def lateTea : NewMemory :=
  { tea 5 with owner := " bob ", tags := ["Food"], related := [2, 1, 1], parent := some 1 }

theorem create_round_trips_lateTea : ∃ r' m s', Engine.oneTag.prepare lateTea = .ok r' ∧
    Engine.oneTag.prepare r' = .ok r' ∧
    Engine.oneTag.create ⟨0⟩ lateTea (withTea ⟨0⟩ 5).store = .ok (m, s') ∧
    s'.get ⟨0⟩ m.id = .ok m ∧ m.owner = "bob" ∧ m.tags = ["food"] ∧ m.parent = some 1 := by
  have hprepare : ∃ r', Engine.oneTag.prepare lateTea = .ok r' ∧ r'.owner = "bob" ∧
      r'.tags = ["food"] ∧ r'.parent = some 1 := by
    have heval : ((Engine.oneTag.prepare lateTea).toOption.map fun r =>
        (r.owner, r.tags, r.parent)) = some ("bob", ["food"], some 1) := by decide
    cases hr : Engine.oneTag.prepare lateTea with
    | error cause =>
      rw [hr] at heval
      cases heval
    | ok r' =>
      rw [hr] at heval
      obtain ⟨howner, htags, hparent⟩ := by simpa [Except.toOption] using heval
      exact ⟨r', rfl, howner, htags, hparent⟩
  obtain ⟨r', hr, howner, htags, hparent⟩ := hprepare
  obtain ⟨hagain, -, hcreate⟩ := create_round_trips (p := (· = .oneTag))
    (fun e he => ⟨.oneTag, he ▸ Engine.ofConfig_oneTag⟩) (reached_withTea ⟨0⟩ 5)
    Engine.ofConfig_oneTag ⟨0⟩ hr
  obtain ⟨m, s', hcreated, -, hget, -, hmade, hspells, -⟩ := hcreate fun id hid => by
    cases hid
    rfl
  have hplain := hspells.plain (by simp [htags])
  exact ⟨r', m, s', hr, hagain, hcreated, hget, hmade.owner.trans howner, hplain.1.trans htags,
    hmade.parent.trans hparent⟩

/-- Two tags alike up to their NULs and of one length. -/
def oneName : Config := { vocabulary := ["a\x00bb", "a\x00zz"] }

def bothTags : NewMemory :=
  { owner := "u1"
    content := "x"
    tags := ["a\x00bb", "a\x00zz"]
    type := some .insight
    category := some "general"
    importance := 5 }

/-- Of two tags that are one name only the first is kept. -/
theorem create_drops_tag : ∃ (e : Engine) (r' : NewMemory) (m : Memory) (s' : Store),
    Engine.ofConfig oneName = .ok e ∧ e.prepare bothTags = .ok r' ∧ bothTags.parent = none ∧
    e.create ⟨0⟩ bothTags (start ⟨0⟩).store = .ok (m, s') ∧ s'.get ⟨0⟩ m.id = .ok m ∧
    r'.tags = ["a\x00bb", "a\x00zz"] ∧ m.tags = ["a\x00bb"] := by
  have hnormal : Vocabulary.normalForms bothTags.tags = ["a\x00bb", "a\x00zz"] := by decide
  refine ⟨_, _, _, _, rfl, rfl, rfl, rfl, rfl, hnormal, ?_⟩
  exact List.mergeSort_singleton _

/-- A memory with the first of two tags that are one name. -/
def firstTag : NewMemory := { bothTags with tags := ["a\x00bb"] }

def withFirstTag : World := (Engine.ofUnchecked oneName).perform (.create firstTag) (start ⟨0⟩)

end World

end LongTermMemory
