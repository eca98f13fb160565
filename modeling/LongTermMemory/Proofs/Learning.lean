import LongTermMemory.Proofs.Store.Indexed

/-!
Learning the same turn again. A draft that was stored is found when it comes again, as long as the
owner of the turn is written without blanks at its ends: requests are looked up by the owner as it
is given and stored under the trimmed one.
-/

namespace LongTermMemory

namespace Engine

variable {e : Engine} {now : Instant} {i : Interaction} {d : Draft} {s : Store}

/-- The request that a draft of a turn becomes. -/
def requestOf (e : Engine) (i : Interaction) (d : Draft) : NewMemory :=
  d.toRequest i.owner i.tags e.vocabulary

/-- Whether a draft of a turn passes the checks of requests. -/
def acceptable (e : Engine) (i : Interaction) (d : Draft) : Bool :=
  (e.prepare (e.requestOf i d)).isOk

/-- A draft of a turn that adds nothing to the store: it is known or not acceptable. -/
def Settled (e : Engine) (i : Interaction) (s : Store) (d : Draft) : Prop :=
  known (e.requestOf i d) s = true ∨ e.acceptable i d = false

/-! ## Known requests -/

theorem known_iff {r : NewMemory} : known r s = true ↔ ∃ entry ∈ s.entries,
    entry.memory.owner = r.owner ∧ entry.memory.type = r.type.getD .default ∧
      entry.memory.category = r.category.getD "" ∧
        entry.digest = Digest.ofContent r.content ∧ entry.memory.archived = false := by
  simp [known, Store.findDuplicate?, and_assoc]

theorem known_mono {r : NewMemory} {s' : Store} (h : s.entries ⊆ s'.entries)
    (hknown : known r s = true) : known r s' = true := by
  obtain ⟨entry, hentry, hsame⟩ := known_iff.mp hknown
  exact known_iff.mpr ⟨entry, h hentry, hsame⟩

/-- An acceptable draft is stored, under the trimmed owner. -/
theorem create_of_acceptable (h : e.acceptable i d = true) (now : Instant) (s : Store) :
    ∃ m s', e.create now (e.requestOf i d) s = .ok (m, s') ∧ m.content = d.content ∧
      s.entries ⊆ s'.entries ∧
      known { e.requestOf i d with owner := Text.trim i.owner } s' = true := by
  unfold acceptable at h
  cases hprepare : e.prepare (e.requestOf i d) with
  | error err =>
    rw [hprepare] at h
    cases h
  | ok r =>
    have hcreate := create_of_prepare hprepare now (s := s) fun _ h => nomatch h
    obtain ⟨kept, last, heq, -⟩ := Store.withNewcomer_eq s now r
    refine ⟨_, _, bind_eq_ok.mpr ⟨r, hprepare, hcreate⟩, ?_, ?_, ?_⟩
    · obtain ⟨tags, -, rfl⟩ := prepare_eq_ok hprepare
      rfl
    · rw [heq]
      exact List.subset_append_left _ _
    · rw [heq]
      refine known_iff.mpr ⟨_, List.mem_append_right _ (List.mem_singleton_self _), ?_⟩
      obtain ⟨tags, -, rfl⟩ := prepare_eq_ok hprepare
      have hcategory : Text.trim (Classifier.classifyCategory d.content) =
          Classifier.classifyCategory d.content := (Classifier.neat_classifyCategory _).2
      exact ⟨rfl, rfl, hcategory, rfl, rfl⟩

theorem create_of_not_acceptable (h : e.acceptable i d = false) (now : Instant) (s : Store) :
    ∃ err, e.create now (e.requestOf i d) s = .error err := by
  unfold acceptable at h
  cases hprepare : e.prepare (e.requestOf i d) with
  | ok r =>
    rw [hprepare] at h
    cases h
  | error err => exact ⟨err, by rw [create, hprepare]; rfl⟩

/-! ## One pass over the drafts -/

/-- A pass leaves out a draft that is settled. -/
theorem learnDrafts_of_settled (h : e.Settled i s d) (now : Instant) (ds : List Draft) :
    e.learnDrafts now i (d :: ds) s = e.learnDrafts now i ds s := by
  rw [learnDrafts]
  rcases h with hknown | hrefused
  · exact if_pos hknown
  · obtain ⟨err, herr⟩ := create_of_not_acceptable hrefused now s
    dsimp only
    split
    · rfl
    · unfold requestOf at herr
      rw [herr]

/-- A pass goes on from the store that a draft was added to. -/
theorem learnDrafts_of_create {m : Memory} {s' : Store}
    (hknown : known (e.requestOf i d) s = false)
    (hcreate : e.create now (e.requestOf i d) s = .ok (m, s')) (ds : List Draft) :
    e.learnDrafts now i (d :: ds) s =
      (m :: (e.learnDrafts now i ds s').1, (e.learnDrafts now i ds s').2) := by
  unfold requestOf at hcreate hknown
  rw [learnDrafts]
  dsimp only
  rw [if_neg (by simp [hknown]), hcreate]

/-- A pass stores a draft that is not settled, and goes on with the next. -/
theorem learnDrafts_of_not_settled (h : ¬ e.Settled i s d) (now : Instant) (ds : List Draft) :
    ∃ m s', Writes e.vocabulary s s' ∧ m.content = d.content ∧ s.entries ⊆ s'.entries ∧
      known { e.requestOf i d with owner := Text.trim i.owner } s' = true ∧
      e.learnDrafts now i (d :: ds) s =
        (m :: (e.learnDrafts now i ds s').1, (e.learnDrafts now i ds s').2) := by
  obtain ⟨hknown, hacceptable⟩ := not_or.mp h
  obtain ⟨m, s', hcreate, hcontent, hsub, hstored⟩ :=
    create_of_acceptable (by simpa using hacceptable) now s
  exact ⟨m, s', writes_create hcreate, hcontent, hsub, hstored,
    learnDrafts_of_create (by simpa using hknown) hcreate ds⟩

theorem entries_learnDrafts (now : Instant) (ds : List Draft) (s : Store) :
    s.entries ⊆ (e.learnDrafts now i ds s).2.entries := by
  induction ds generalizing s with
  | nil => exact List.Subset.refl _
  | cons d ds ih =>
    by_cases hd : e.Settled i s d
    · rw [learnDrafts_of_settled hd]
      exact ih s
    · obtain ⟨m, s', -, -, hsub, -, heq⟩ := learnDrafts_of_not_settled hd now ds
      rw [heq]
      exact List.Subset.trans hsub (ih s')

/-- Settled drafts stay settled when a store grows. -/
theorem Settled.mono {s' : Store} (hsub : s.entries ⊆ s'.entries) (h : e.Settled i s d) :
    e.Settled i s' d :=
  h.imp_left (known_mono hsub)

/-- The drafts of an owner without blanks at its ends are settled after a pass over them. -/
theorem settled_learnDrafts (howner : Text.trim i.owner = i.owner) (now : Instant)
    (ds : List Draft) (s : Store) :
    ∀ d ∈ ds, e.Settled i (e.learnDrafts now i ds s).2 d := by
  induction ds generalizing s with
  | nil => simp
  | cons d ds ih =>
    by_cases hd : e.Settled i s d
    · rw [learnDrafts_of_settled hd]
      exact List.forall_mem_cons.mpr ⟨hd.mono (entries_learnDrafts now ds s), ih s⟩
    · obtain ⟨m, s', -, -, -, hstored, heq⟩ := learnDrafts_of_not_settled hd now ds
      rw [heq]
      rw [howner] at hstored
      have hsettled : e.Settled i s' d := Or.inl hstored
      exact List.forall_mem_cons.mpr ⟨hsettled.mono (entries_learnDrafts now ds s'), ih s'⟩

/-- A pass over two lists of drafts is a pass over one and then over the other. -/
theorem learnDrafts_append (now : Instant) (ds ds' : List Draft) (s : Store) :
    e.learnDrafts now i (ds ++ ds') s =
      ((e.learnDrafts now i ds s).1 ++ (e.learnDrafts now i ds' (e.learnDrafts now i ds s).2).1,
        (e.learnDrafts now i ds' (e.learnDrafts now i ds s).2).2) := by
  induction ds generalizing s with
  | nil => rfl
  | cons d ds ih =>
    by_cases hd : e.Settled i s d
    · rw [List.cons_append, learnDrafts_of_settled hd, learnDrafts_of_settled hd, ih]
    · obtain ⟨hknown, hacceptable⟩ := not_or.mp hd
      obtain ⟨m, s', hcreate, -⟩ := create_of_acceptable (by simpa using hacceptable) now s
      have hadded := learnDrafts_of_create (by simpa using hknown) hcreate
      rw [List.cons_append, hadded, hadded, ih]
      rfl

/-- A pass over settled drafts does nothing. -/
theorem learnDrafts_of_all_settled {ds : List Draft} (h : ∀ d ∈ ds, e.Settled i s d)
    (now : Instant) : e.learnDrafts now i ds s = ([], s) := by
  induction ds with
  | nil => rfl
  | cons d ds ih =>
    rw [learnDrafts_of_settled (h d (by simp))]
    exact ih fun k hk => h k (by simp [hk])

/-- For an owner with blanks at its ends nothing is known, and every acceptable draft is stored. -/
theorem learnDrafts_of_untrimmed (hs : s.Sound) (howner : Text.trim i.owner ≠ i.owner)
    (now : Instant) (ds : List Draft) :
    (e.learnDrafts now i ds s).1.map (·.content) =
      (ds.filter (e.acceptable i)).map (·.content) := by
  have hknown {s : Store} (hs : s.Sound) (d : Draft) : known (e.requestOf i d) s = false := by
    refine Bool.eq_false_iff.mpr fun hknown => ?_
    obtain ⟨entry, hentry, hsame, -⟩ := known_iff.mp hknown
    have hneat := (hs.memories entry.memory (List.mem_map_of_mem hentry)).owner.2
    rw [hsame] at hneat
    exact howner hneat
  induction ds generalizing s with
  | nil => rfl
  | cons d ds ih =>
    by_cases hd : e.Settled i s d
    · have hrefused : e.acceptable i d = false := hd.resolve_left (by simp [hknown hs d])
      rw [learnDrafts_of_settled hd, ih hs, List.filter_cons_of_neg (by simp [hrefused])]
    · have hacceptable : e.acceptable i d = true := by simpa using (not_or.mp hd).2
      obtain ⟨m, s', hwrites, hcontent, -, -, heq⟩ := learnDrafts_of_not_settled hd now ds
      rw [heq, List.filter_cons_of_pos hacceptable, List.map_cons, List.map_cons, hcontent,
        ih (hs.writes hwrites)]

end Engine

namespace World

/-- After a turn was learned, the same turn adds nothing to a store that was reached: each of its
drafts is refused again or is found in an active memory. That holds for owners without blanks at
their ends. For other owners a turn is stored anew each time that it is learned. -/
theorem turn_learned_once {p : Engine → Prop} {w : World} (hw : w.Reached p) (e : Engine)
    (now now' : Instant) (i : Interaction) {s' : Store} (hs' : (e.learn now i w.store).2 = s') :
    (Text.trim i.owner = i.owner ∨ Text.blank i.owner = true → e.learn now' i s' = ([], s')) ∧
    (Text.trim i.owner = i.owner → Text.blank i.owner = false → ∀ d ∈ e.drafts i,
      (∃ err, e.create now' (e.requestOf i d) s' = .error err) ∨
        ∃ m ∈ s'.memories, m.owner = i.owner ∧ m.type = d.type ∧
          m.category = Classifier.classifyCategory d.content ∧
          Digest.ofContent m.content = Digest.ofContent d.content ∧ m.archived = false) ∧
    (Text.trim i.owner ≠ i.owner → Text.blank i.owner = false →
      (e.learn now i w.store).1.map (·.content) =
        ((e.drafts i).filter (e.acceptable i)).map (·.content) ∧
      (e.learn now' i s').1.map (·.content) =
        ((e.drafts i).filter (e.acceptable i)).map (·.content)) := by
  have hwrites : Writes e.vocabulary w.store s' := hs' ▸ e.writes_learn i w.store
  have hsound : s'.Sound := hw.sound.writes hwrites
  have hindexed : s'.Indexed :=
    hw.sound.holds_writes (fun _ h hwrite => h.write hwrite) hw.indexed hwrites
  cases hblank : Text.blank i.owner with
  | true => exact ⟨fun _ => by simp [Engine.learn, hblank], by simp, by simp⟩
  | false =>
    have hlearn (now : Instant) (s : Store) :
        e.learn now i s = e.learnDrafts now i (e.drafts i) s := by
      simp [Engine.learn, hblank]
    rw [hlearn] at hs'
    have hsettled (howner : Text.trim i.owner = i.owner) : ∀ d ∈ e.drafts i, e.Settled i s' d :=
      hs' ▸ Engine.settled_learnDrafts howner now (e.drafts i) w.store
    refine ⟨fun howner => ?_, fun howner _ d hd => ?_, fun howner _ => ⟨?_, ?_⟩⟩
    · have htrimmed : Text.trim i.owner = i.owner := howner.resolve_right (by simp)
      rw [hlearn]
      exact Engine.learnDrafts_of_all_settled (hsettled htrimmed) now'
    · rcases hsettled howner d hd with hknown | hrefused
      · obtain ⟨entry, hentry, hsame, htype, hcategory, hdigest, hactive⟩ :=
          Engine.known_iff.mp hknown
        rw [← hindexed entry hentry] at hdigest
        exact Or.inr ⟨entry.memory, List.mem_map_of_mem hentry, hsame, htype, hcategory, hdigest,
          hactive⟩
      · exact Or.inl (Engine.create_of_not_acceptable hrefused now' s')
    · rw [hlearn]
      exact Engine.learnDrafts_of_untrimmed hw.sound howner now _
    · rw [hlearn]
      exact Engine.learnDrafts_of_untrimmed hsound howner now' _

/-- A turn in which an owner asks for a memory. -/
def request (owner : String) : Interaction :=
  { owner, userInput := "Save this: tea", agentResponse := "", tags := ["food"] }

theorem turn_learned_once_ann : ∃ s',
    (Engine.oneTag.learn ⟨0⟩ (request "ann") (withTea ⟨0⟩ 5).store).2 = s' ∧
    s'.memories.map (·.content) = ["tea", "Save this: tea"] ∧
    Engine.oneTag.learn ⟨1⟩ (request "ann") s' = ([], s') := by
  have hlearned := turn_learned_once (reached_withTea ⟨0⟩ 5) .oneTag ⟨0⟩ ⟨1⟩ (request "ann") rfl
  exact ⟨_, rfl, by decide, hlearned.1 (Or.inl (by decide))⟩

/-- A turn of an owner with blanks at the ends is stored twice. -/
theorem turn_learned_twice : ∃ (e : Engine) (w : World), Engine.ofConfig .oneTag = .ok e ∧
    w.Reached (· = e) ∧ ∃ s', (e.learn ⟨0⟩ (request " ann ") w.store).2 = s' ∧
      (e.learn ⟨0⟩ (request " ann ") s').1.map (·.content) = ["Save this: tea"] ∧
      (e.learn ⟨0⟩ (request " ann ") s').2.memories.map (fun m => (m.owner, m.content)) =
        [("ann", "Save this: tea"), ("ann", "Save this: tea")] :=
  ⟨.oneTag, start ⟨0⟩, rfl, ⟨⟨0⟩, .refl⟩, _, rfl, by decide, by decide⟩

end World

end LongTermMemory
