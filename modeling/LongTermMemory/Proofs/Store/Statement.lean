import LongTermMemory.Engine.Serve
import LongTermMemory.Proofs.Store.Sound
import LongTermMemory.Proofs.Store.Tags

/-!
What statements leave behind. Each operation, run statement by statement with none of them taken
back, gives what the store gives at once, and a failing one fails before it has written anything.
-/

namespace LongTermMemory

namespace Store

variable {α : Type} {s : Store}

@[simp] theorem settled_ok (s s' : Store) (a : α) : s.settled (.ok (a, s')) = (.ok a, s') := rfl

@[simp] theorem settled_error (s : Store) (cause : Error) :
    s.settled (.error cause : Except Error (α × Store)) = (.error cause, s) := rfl

theorem settled_fst_eq_error {x : Except Error (α × Store)} {cause : Error} :
    (s.settled x).1 = .error cause ↔ x = .error cause := by
  cases x with
  | ok a =>
    obtain ⟨a, s'⟩ := a
    simp
  | error err => simp

end Store

namespace Statements

variable {α β : Type} {body : Statements α} {s s' : Store}

/-! ## Running statements -/

@[simp] theorem outcome_pure (a : α) (s : Store) :
    (pure a : Statements α).outcome s = (.ok a, s) := rfl

@[simp] theorem outcome_throw (cause : Error) (s : Store) :
    (throw cause : Statements α).outcome s = (.error cause, s) := rfl

@[simp] theorem outcome_select (f : Store → Except Error α) (s : Store) :
    (select f).outcome s = (f s, s) := rfl

@[simp] theorem outcome_write (f : Store → Except Error (α × Store)) (s : Store) :
    (write f).outcome s = s.settled (f s) := rfl

theorem outcome_bind_ok {f : α → Statements β} {a : α} (h : body.outcome s = (.ok a, s')) :
    (body >>= f).outcome s = (f a).outcome s' := by
  show (ExceptT.bindCont f (body.outcome s).1) (body.outcome s).2 = _
  rw [h]
  rfl

theorem outcome_bind_error {f : α → Statements β} {cause : Error}
    (h : body.outcome s = (.error cause, s')) : (body >>= f).outcome s = (.error cause, s') := by
  show (ExceptT.bindCont f (body.outcome s).1) (body.outcome s).2 = _
  rw [h]
  rfl

theorem outcome_map {f : α → β} {x : Except Error (α × Store)} (h : body.outcome s = s.settled x) :
    (f <$> body).outcome s = s.settled (x.map fun (a, s') => (f a, s')) := by
  rw [map_eq_pure_bind]
  cases x with
  | ok a => exact outcome_bind_ok h
  | error cause => exact outcome_bind_error h

/-- Statements that leave no trace when they fail need no transaction. -/
theorem transaction_eq {x : Except Error (α × Store)} (h : body.outcome s = s.settled x) :
    body.transaction s = s.settled x := by
  unfold transaction
  rw [h]
  cases x <;> rfl

theorem outcome_writeIf {p : Store → Bool} {f : Store → Store} (h : p s = true) :
    (writeIf p f).outcome s = (.ok true, f s) := by
  simp [writeIf, h]

theorem outcome_writeIf_not {p : Store → Bool} {f : Store → Store} (h : p s = false) :
    (writeIf p f).outcome s = (.ok false, s) := by
  simp [writeIf, h]

variable {now : Instant} {id : MemoryId}

theorem outcome_memoryRow {m : Memory} (hk : s.kept? id = some m) :
    (memoryRow now id).outcome s = (.ok (m.readAt now), s) := by
  simp [memoryRow, Store.get, hk]

theorem outcome_memoryRow_of_gone (hk : s.kept? id = none) :
    (memoryRow now id).outcome s = (.error (.notFound id), s) := by
  simp [memoryRow, Store.get, hk]

/-! ## Setting tags -/

/-- A store in which a memory has some tags, with the tag names after them. -/
def tagged (s : Store) (id : MemoryId) (tags names : List String) : Store :=
  { s.modifyMemory id ({ · with tags }) with tagNames := names }

/-- The tags of a memory, and all tag names, after more tags. -/
def linkAll (names tags : List String) : List String → List String × List String
  | [] => (tags, names)
  | tag :: rest =>
    linkAll (Store.spell names tag).2 (withTag (Store.spell names tag).1 tags) rest

theorem names_spell (names : List String) (tag : String) :
    (if names.any (Text.NoCase.same tag) then names else names ++ [tag]) =
      (Store.spell names tag).2 := by
  unfold Store.spell
  cases hfind : names.find? (Text.NoCase.same tag) with
  | some name =>
    have hany := List.any_eq_true.mpr ⟨name, List.mem_of_find?_eq_some hfind, List.find?_some hfind⟩
    rw [if_pos hany]
  | none =>
    have hnot : names.any (Text.NoCase.same tag) = false := by
      simpa using List.find?_eq_none.mp hfind
    rw [hnot]
    rfl

/-- The name kept of a tag is found by the tag. -/
theorem find?_spell (names : List String) (tag : String) :
    (Store.spell names tag).2.find? (Text.NoCase.same tag) = some (Store.spell names tag).1 := by
  unfold Store.spell
  cases hfind : names.find? (Text.NoCase.same tag) with
  | some name => exact hfind
  | none => simp [hfind]

theorem modifyMemory_tagged (s : Store) (id : MemoryId) (tags names : List String)
    (f : List String → List String) :
    (tagged s id tags names).modifyMemory id (fun m => { m with tags := f m.tags }) =
      tagged s id (f tags) names := by
  simp only [tagged, Store.modifyMemory, Store.modify, List.map_map]
  congr 1
  refine List.map_congr_left fun e _ => ?_
  simp only [Function.comp_apply]
  by_cases hid : e.memory.id = id
  · simp [hid]
  · simp [hid]

theorem exists?_tagged (s : Store) (id : MemoryId) (tags names : List String) (k : MemoryId) :
    (tagged s id tags names).exists? k = s.exists? k :=
  Store.exists?_modifyMemory (f := ({ · with tags })) (fun _ => rfl) s id k

/-- A tag is linked under the spelling kept of its name. -/
theorem outcome_addTag (hid : s.exists? id = true) (tags names : List String) (tag : String) :
    (addTag id tag).outcome (tagged s id tags names) =
      (.ok (), tagged s id (withTag (Store.spell names tag).1 tags) (Store.spell names tag).2) := by
  have hinsert : (insertTag tag).outcome (tagged s id tags names) =
      (.ok (), tagged s id tags (Store.spell names tag).2) := by
    rw [← names_spell]
    rfl
  have hrow : (tagRow tag).outcome (tagged s id tags (Store.spell names tag).2) =
      (.ok (Store.spell names tag).1, tagged s id tags (Store.spell names tag).2) := by
    unfold tagRow
    rw [outcome_select, show (tagged s id tags (Store.spell names tag).2).tagNames =
      (Store.spell names tag).2 from rfl, find?_spell]
    rfl
  unfold addTag
  rw [outcome_bind_ok hinsert, outcome_bind_ok hrow]
  unfold linkTag
  rw [outcome_write, exists?_tagged, hid, modifyMemory_tagged]
  rfl

theorem outcome_addTags (hid : s.exists? id = true) (more tags names : List String) :
    (more.forM (addTag id)).outcome (tagged s id tags names) =
      (.ok (), tagged s id (linkAll names tags more).1 (linkAll names tags more).2) := by
  induction more generalizing tags names with
  | nil => rfl
  | cons tag rest ih => exact (outcome_bind_ok (outcome_addTag hid tags names tag)).trans (ih ..)

theorem mem_withTag {name t : String} {tags : List String} :
    t ∈ withTag name tags ↔ t = name ∨ t ∈ tags := by
  unfold withTag
  split
  · next hin =>
    constructor
    · exact Or.inr
    · rintro (rfl | ht)
      · simpa using hin
      · exact ht
  · rw [List.mem_mergeSort, List.mem_cons]

theorem nodup_withTag {name : String} {tags : List String} (h : tags.Nodup) :
    (withTag name tags).Nodup := by
  unfold withTag
  split
  · exact h
  · next hnot =>
    exact (List.mergeSort_perm _ _).nodup_iff.mpr (List.nodup_cons.mpr ⟨by simpa using hnot, h⟩)

theorem pairwise_withTag {name : String} {tags : List String}
    (h : tags.Pairwise fun a b => Text.NoCase.le a b = true) :
    (withTag name tags).Pairwise fun a b => Text.NoCase.le a b = true := by
  unfold withTag
  split
  · exact h
  · exact List.pairwise_mergeSort Text.NoCase.le_trans Text.NoCase.le_total _

/-- Tags that are linked one after another stand each once and in the order of names. -/
theorem linkAll_spec (names tags more : List String) (hnodup : tags.Nodup)
    (hsorted : tags.Pairwise fun a b => Text.NoCase.le a b = true) :
    (linkAll names tags more).2 = (Store.spellAll names more).2 ∧
      (linkAll names tags more).1.Nodup ∧
      ((linkAll names tags more).1.Pairwise fun a b => Text.NoCase.le a b = true) ∧
      ∀ t, t ∈ (linkAll names tags more).1 ↔ t ∈ tags ∨ t ∈ (Store.spellAll names more).1 := by
  induction more generalizing names tags with
  | nil => exact ⟨rfl, hnodup, hsorted, fun t => by simp [linkAll, Store.spellAll]⟩
  | cons tag rest ih =>
    obtain ⟨hnames, hn, hs, hmem⟩ :=
      ih (Store.spell names tag).2 (withTag (Store.spell names tag).1 tags)
        (nodup_withTag hnodup) (pairwise_withTag hsorted)
    refine ⟨hnames, hn, hs, fun t => ?_⟩
    rw [linkAll, hmem, mem_withTag]
    simp only [Store.spellAll]
    split
    · next hin =>
      constructor
      · rintro ((rfl | ht) | ht)
        · exact Or.inr (by simpa using hin)
        · exact Or.inl ht
        · exact Or.inr ht
      · rintro (ht | ht)
        · exact Or.inl (Or.inr ht)
        · exact Or.inr ht
    · rw [List.mem_cons, or_comm (a := t = _), or_assoc]

/-- Linking tags one after another comes to keeping them all at once: both are sorted, and of names
of different tags there is one sorted list. -/
theorem linkAll_eq {names : List String} (h : Store.DistinctNames names) (tags : List String) :
    linkAll names [] tags = Store.keepTags names tags := by
  obtain ⟨hnames, hnodup, hsorted, hmem⟩ :=
    linkAll_spec names [] tags List.nodup_nil List.Pairwise.nil
  have hperm : (linkAll names [] tags).1.Perm (Store.keepTags names tags).1 := by
    refine (List.perm_ext_iff_of_nodup hnodup (Store.nodup_keepTags names tags)).mpr fun t => ?_
    rw [hmem, Store.keepTags, List.mem_mergeSort]
    simp
  refine Prod.ext ?_ hnames
  refine hperm.eq_of_pairwise (fun a b ha hb hab hba => ?_) hsorted
    (Store.pairwise_keepTags names tags)
  by_contra hne
  have hdiffer := (Store.distinct_keepTags h tags).same_eq_false
    (Store.mem_names_of_mem_keepTags (hperm.mem_iff.mp ha)) (Store.mem_names_of_mem_keepTags hb) hne
  rw [Text.NoCase.same_of_le_of_le hab hba] at hdiffer
  cases hdiffer

theorem outcome_setTags (hid : s.exists? id = true) (hnames : Store.DistinctNames s.tagNames)
    (tags : List String) :
    (setTags id tags).outcome s = (.ok (),
      tagged s id (Store.keepTags s.tagNames tags).1 (Store.keepTags s.tagNames tags).2) := by
  have hclear : (clearTags id).outcome s = (.ok (), tagged s id [] s.tagNames) := rfl
  unfold setTags
  rw [outcome_bind_ok hclear, outcome_addTags hid, linkAll_eq hnames]

/-! ## Creating -/

theorem outcome_insertContext (hid : s.exists? id = true) (c : NewContext) :
    (insertContext id c).outcome s = (.ok (s.addContext id c).1, (s.addContext id c).2) := by
  unfold insertContext
  rw [outcome_write, hid]
  rfl

theorem outcome_insertContexts (hid : s.exists? id = true) (cs : List NewContext) :
    (cs.forM fun c => discard (insertContext id c)).outcome s = (.ok (), s.addContexts id cs) := by
  induction cs generalizing s with
  | nil => rfl
  | cons c cs ih =>
    have hinsert : (discard (insertContext id c)).outcome s = (.ok (), (s.addContext id c).2) :=
      outcome_bind_ok (outcome_insertContext hid c)
    exact (outcome_bind_ok hinsert).trans (ih hid)

/-- The memory of a request before its tags are set. -/
def inserted (s : Store) (now : Instant) (r : NewMemory) : Store :=
  let m := Store.newMemory now (s.lastMemoryId + 1) [] r
  { s with entries := s.entries ++ [Entry.ofMemory m], lastMemoryId := s.lastMemoryId + 1 }

/-- The insertion fails just where the creation fails. -/
theorem outcome_insertMemory (s : Store) (now : Instant) (r : NewMemory) :
    (insertMemory now r).outcome s =
      s.settled ((s.create now r).map fun _ => (s.lastMemoryId + 1, inserted s now r)) := by
  unfold insertMemory Store.create
  rw [outcome_write]
  cases Store.importanceInRange r.importance with
  | false => rfl
  | true =>
    cases r.confidence.inUnit with
    | false => rfl
    | true =>
      dsimp only
      cases r.parent.all fun p => p = s.lastMemoryId + 1 || s.exists? p <;> rfl

/-- No memory kept has the id of the new one. -/
theorem tagged_inserted (hs : s.Sound) (now : Instant) (r : NewMemory) (tags names : List String) :
    tagged (inserted s now r) (s.lastMemoryId + 1) tags names =
      { s with
        entries := s.entries ++ [Entry.ofMemory (Store.newMemory now (s.lastMemoryId + 1) tags r)]
        tagNames := names
        lastMemoryId := s.lastMemoryId + 1 } := by
  have hsame : (s.entries.map fun e => if e.memory.id = s.lastMemoryId + 1 then
      { e with memory := { e.memory with tags } } else e) = s.entries := by
    conv_rhs => rw [← List.map_id s.entries]
    refine List.map_congr_left fun e he => ?_
    rw [if_neg (hs.id_ne_next (List.mem_map_of_mem he))]
    rfl
  simp only [tagged, inserted, Store.modifyMemory, Store.modify, List.map_append, hsame]
  simp [Entry.ofMemory, Store.newMemory]

/-- Creating fails with the insertion or not at all. -/
theorem outcome_create (hs : s.Sound) (hnames : Store.DistinctNames s.tagNames) (now : Instant)
    (r : NewMemory) : (create now r).outcome s = s.settled (s.create now r) := by
  have hinsert := outcome_insertMemory s now r
  cases hcreate : s.create now r with
  | error cause =>
    rw [hcreate] at hinsert
    exact outcome_bind_error hinsert
  | ok a =>
    rw [hcreate] at hinsert
    obtain ⟨-, -, -, rfl⟩ := Store.create_eq_ok.mp hcreate
    have hid : (inserted s now r).exists? (s.lastMemoryId + 1) = true := by
      simp [inserted, Store.exists?, Entry.ofMemory, Store.newMemory]
    have htags := outcome_setTags hid hnames r.tags
    rw [tagged_inserted hs] at htags
    unfold create
    rw [outcome_bind_ok hinsert, outcome_bind_ok htags,
      outcome_bind_ok (outcome_insertContexts ?_ r.contexts)]
    · exact outcome_memoryRow (hs.kept?_withNewcomer now r)
    · simp [Store.exists?, Entry.ofMemory, Store.newMemory]

/-! ## Updating -/

theorem outcome_requireVersion {stored : Int} {expected : Option Int}
    (h : ∀ v, expected = some v → v = stored) :
    (requireVersion id stored expected).outcome s = (.ok (), s) := by
  cases expected with
  | none => rfl
  | some v => rw [requireVersion, if_pos (h v rfl), outcome_pure]

theorem outcome_requireVersion_stale {stored v : Int} (h : v ≠ stored) :
    (requireVersion id stored (some v)).outcome s =
      (.error (.conflict (.version id stored v)), s) := by
  rw [requireVersion, if_neg h, outcome_throw]

/-- The row is found at the version just read, so that the update fails by a constraint or not at
all. -/
theorem outcome_updateMemory {m : Memory} (hk : s.kept? id = some m) (now : Instant)
    (c : Changes) :
    (updateMemory now id m.version c).outcome s = s.settled (do
      Store.requireConstraint (c.importance.all Store.importanceInRange) .importanceRange
      Store.requireConstraint (c.confidence.all Single.inUnit) .confidenceRange
      .ok (true, s.modify id (Store.changedEntry now c none))) := by
  unfold updateMemory
  rw [outcome_write, hk]
  dsimp only
  rw [if_pos rfl]

theorem exists?_modify_changed (s : Store) (now : Instant) (id : MemoryId) (c : Changes)
    (tags : Option (List String)) (k : MemoryId) :
    (s.modify id (Store.changedEntry now c tags)).exists? k = s.exists? k :=
  Store.exists?_edit (Store.memories_modify (g := Store.edited now c tags) fun _ => rfl)
    (fun _ => rfl) k

theorem tagged_changed (s : Store) (now : Instant) (id : MemoryId) (c : Changes)
    (tags names : List String) :
    tagged (s.modify id (Store.changedEntry now c none)) id tags names =
      { s.modify id (Store.changedEntry now c (some tags)) with tagNames := names } := by
  simp only [tagged, Store.modifyMemory, Store.modify, List.map_map]
  congr 1
  refine List.map_congr_left fun e _ => ?_
  simp only [Function.comp_apply]
  by_cases hid : e.memory.id = id
  · simp [hid, Store.changedEntry, Store.changed]
  · simp [hid]

theorem outcome_resetTags (hid : s.exists? id = true) (hnames : Store.DistinctNames s.tagNames)
    (c : Changes) :
    (resetTags id c.tags).outcome (s.modify id (Store.changedEntry now c none)) =
      (.ok (), s.withChanges now id c) := by
  unfold Store.withChanges Store.changedTags
  cases c.tags with
  | none => rfl
  | some tags =>
    have hstill : (s.modify id (Store.changedEntry now c none)).exists? id = true := by
      rw [exists?_modify_changed, hid]
    have hset := outcome_setTags hstill hnames tags
    rw [tagged_changed] at hset
    exact hset

theorem outcome_update (hnames : Store.DistinctNames s.tagNames) (now : Instant) (id : MemoryId)
    (c : Changes) : (update now id c).outcome s = s.settled (s.update now id c) := by
  unfold update
  cases hk : s.kept? id with
  | none =>
    rw [Store.update_of_gone hk]
    exact outcome_bind_error (outcome_memoryRow_of_gone hk)
  | some old =>
    rw [outcome_bind_ok (outcome_memoryRow hk), Memory.readAt_version]
    by_cases hv : ∀ v, c.expectedVersion = some v → v = old.version
    · have hupdate := outcome_updateMemory hk now c
      have hkept : (s.withChanges now id c).kept? id = some (old.editAt id
          (Store.edited now c (s.changedTags c).1)) := by
        rw [Store.kept?_edit (Store.memories_withChanges s now id c) (fun _ => rfl), hk]
        rfl
      have hid : s.exists? id = true := Store.exists?_iff.mpr ⟨old, Store.mem_of_kept? hk⟩
      rw [outcome_bind_ok (outcome_requireVersion hv), Store.update_eq hk hv,
        Store.get_eq_ok.mpr ⟨_, hkept, rfl⟩]
      cases hi : c.importance.all Store.importanceInRange with
      | false =>
        rw [hi] at hupdate
        exact outcome_bind_error hupdate
      | true =>
        cases hc : c.confidence.all Single.inUnit with
        | false =>
          rw [hi, hc] at hupdate
          exact outcome_bind_error hupdate
        | true =>
          rw [hi, hc] at hupdate
          refine (outcome_bind_ok hupdate).trans ?_
          exact (outcome_bind_ok (outcome_resetTags hid hnames c)).trans (outcome_memoryRow hkept)
    · simp only [not_forall] at hv
      obtain ⟨v, hexp, hne⟩ := hv
      rw [Store.update_of_stale hk hexp hne, hexp]
      exact outcome_bind_error (outcome_requireVersion_stale hne)

/-! ## Deleting -/

theorem outcome_delete (s : Store) (id : MemoryId) :
    (delete id).outcome s = s.settled ((s.delete id).map ((), ·)) := by
  unfold delete Store.delete
  cases hid : s.exists? id with
  | false => exact outcome_bind_ok (outcome_writeIf_not hid)
  | true => exact outcome_bind_ok (outcome_writeIf hid)

theorem outcome_deleteOwned {owner : String} (howner : Text.blank owner = false) (now : Instant)
    (s : Store) (id : MemoryId) :
    (deleteOwned now owner id).outcome s =
      s.settled ((Engine.deleteOwned owner id s).map ((), ·)) := by
  unfold deleteOwned Engine.deleteOwned
  rw [Invalid.raise_checkOwner howner]
  cases hk : s.kept? id with
  | none => exact outcome_bind_error (outcome_memoryRow_of_gone hk)
  | some m =>
    rw [outcome_bind_ok (outcome_memoryRow hk)]
    show Statements.outcome (if m.owner = owner then delete id else throw (.notFound id)) s =
      s.settled (Except.map ((), ·)
        (if m.owner = owner then s.delete id else .error (.notFound id)))
    by_cases hm : m.owner = owner
    · rw [if_pos hm, if_pos hm, outcome_delete]
    · rw [if_neg hm, if_neg hm]
      rfl

/-! ## Rows about memories -/

/-- The memory of an access that was counted is there when the access is logged. -/
theorem outcome_recordAccess (s : Store) (now : Instant) (id : MemoryId) (n : AccessNote) :
    (recordAccess now id n).outcome s = s.settled ((s.recordAccess now id n).map ((), ·)) := by
  unfold recordAccess Store.recordAccess
  cases hid : s.exists? id with
  | false => exact outcome_bind_ok (outcome_writeIf_not hid)
  | true =>
    refine (outcome_bind_ok (outcome_writeIf hid)).trans ?_
    show (insertAccess now id n).outcome (s.modifyMemory id (Store.accessed now)) = _
    unfold insertAccess
    rw [outcome_write, Store.exists?_modifyMemory (f := Store.accessed now) (fun _ => rfl), hid]
    rfl

theorem outcome_addContext (s : Store) (now : Instant) (id : MemoryId) (c : NewContext) :
    (addContext now id c).outcome s =
      s.settled (if s.exists? id then .ok (s.addContext id c) else .error (.notFound id)) := by
  have hid := s.exists?_eq_isSome id
  unfold addContext
  cases hk : s.kept? id with
  | none =>
    rw [hk, Option.isSome_none] at hid
    rw [outcome_bind_error (outcome_memoryRow_of_gone hk), hid]
    rfl
  | some m =>
    rw [hk, Option.isSome_some] at hid
    rw [outcome_bind_ok (outcome_memoryRow hk), outcome_insertContext hid, hid]
    rfl

theorem outcome_upsertEdge {r : NewRelationship}
    (hends : (s.exists? r.source && s.exists? r.target) = true) :
    (upsertEdge now r).outcome s = (.ok (), s.withEdge now r) := by
  unfold upsertEdge Store.withEdge
  rw [outcome_write, hends]
  cases s.relationships.find? (Store.sameEdge r) <;> rfl

/-- The edge of a request is found again when it was written. -/
theorem find?_withEdge (s : Store) (now : Instant) (r : NewRelationship) :
    (s.withEdge now r).relationships.find? (Store.sameEdge r) =
      some ((s.relationships.find? (Store.sameEdge r)).elim (s.newEdge now r) fun e =>
        { e with strength := r.strength.stored, description := r.description }) := by
  unfold Store.withEdge
  cases hfind : s.relationships.find? (Store.sameEdge r) with
  | none => simp [hfind, Store.newEdge, Store.sameEdge]
  | some e =>
    have hsame : Store.sameEdge r e = true := List.find?_some hfind
    have hkey : ∀ q, Store.sameEdge r (if Store.sameEdge r q then
        { e with strength := r.strength.stored, description := r.description } else q) =
          Store.sameEdge r q := by
      intro q
      split
      · next hq => rw [hq, ← hsame]; rfl
      · rfl
    dsimp only
    rw [List.find?_map]
    simp only [Function.comp_def, hkey, hfind, Option.map_some, hsame, if_true, Option.elim]

theorem outcome_relate (s : Store) (now : Instant) (r : NewRelationship) :
    (relate now r).outcome s = s.settled (s.relate now r) := by
  unfold relate Store.relate
  cases hs : s.kept? r.source with
  | none =>
    rw [outcome_bind_error (outcome_memoryRow_of_gone hs)]
    simp [Store.get, hs, Bind.bind, Except.bind]
  | some source =>
    rw [outcome_bind_ok (outcome_memoryRow hs)]
    cases ht : s.kept? r.target with
    | none =>
      rw [outcome_bind_error (outcome_memoryRow_of_gone ht)]
      simp [Store.get, hs, ht, Bind.bind, Except.bind]
    | some target =>
      have hends : (s.exists? r.source && s.exists? r.target) = true := by
        rw [Store.exists?_iff.mpr ⟨source, Store.mem_of_kept? hs⟩,
          Store.exists?_iff.mpr ⟨target, Store.mem_of_kept? ht⟩]
        rfl
      rw [outcome_bind_ok (outcome_memoryRow ht), outcome_bind_ok (outcome_upsertEdge hends)]
      unfold edgeRow
      rw [outcome_select, find?_withEdge]
      unfold Store.withEdge
      cases s.relationships.find? (Store.sameEdge r) <;>
        simp [Store.get, hs, ht, Bind.bind, Except.bind, Store.newEdge]

end Statements

end LongTermMemory
