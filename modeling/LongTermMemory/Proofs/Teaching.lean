import Mathlib.Data.List.Forall2
import LongTermMemory.Proofs.Creation
import LongTermMemory.Proofs.Drafts

/-!
What one turn may teach. Learning adds memories to the store and nothing else: one at most for each
detector that runs, in the order of the detectors, made of the drafts that nobody has said before
and that the store does not refuse.
-/

namespace LongTermMemory

/-! ## What is added -/

/-- A memory is made of a draft of a turn at the instant `now`. -/
def Engine.MadeOf (e : Engine) (now : Instant) (i : Interaction) (d : Draft) (m : Memory) : Prop :=
  ∃ r, e.prepare (e.requestOf i d) = .ok r ∧ m.MadeFrom now r

/-- A memory is made of the draft that a detector makes of a turn, and names the detector. -/
structure Detector.Teaches (detector : Detector) (e : Engine) (now : Instant) (i : Interaction)
    (m : Memory) : Prop where
  made : ∃ d, detector.detect? e.config.learning e.classifier i = some d ∧ e.MadeOf now i d m
  named : Document.lookup "detector" m.metadata = some (.text detector.name)

/-- No active memory of a list says of an owner what another memory says. -/
def Memory.Unsaid (m : Memory) (owner : String) (ms : List Memory) : Prop :=
  ∀ k ∈ ms, k.archived = false → k.owner = owner → k.type = m.type → k.category = m.category →
    k.content ≠ m.content

/-- A store to which only memories were added, each saying of an owner what no active memory said
by then. -/
structure Store.Extended (owner : String) (s : Store) (ms : List Memory) (s' : Store) : Prop where
  memories : s'.memories = s.memories ++ ms
  contexts : s'.contexts = s.contexts
  relationships : s'.relationships = s.relationships
  accesses : s'.accesses = s.accesses
  unsaid : ∀ front m later, ms = front ++ m :: later → m.Unsaid owner (s.memories ++ front)

/-- What learning a turn at the instant `now` does to a store, the memories `ms` being returned. -/
structure Store.Taught (e : Engine) (now : Instant) (i : Interaction) (s : Store)
    (ms : List Memory) (s' : Store) : Prop extends Store.Extended i.owner s ms s' where
  /-- One memory at most comes of each detector that runs. -/
  detectors : ∃ detectors : List Detector,
    detectors.Sublist [.explicitRequest, .preference, .pattern, .insight] ∧
    (∀ detector ∈ detectors, detector ∈ Detector.enabled e.config.learning.detectors) ∧
    ¬(.explicitRequest ∈ detectors ∧ .preference ∈ detectors) ∧
    List.Forall₂ (fun detector m => detector.Teaches e now i m) detectors ms
  unlike : (ms.map (·.content)).Nodup
  contents : ∀ m ∈ ms, Text.blank m.content = false ∧
    m.content.length ≤ e.config.learning.maxContentChars
  read : ∀ m ∈ ms, ∀ later, later = now ∨ now.readable = true → s'.get later m.id = .ok m

/-- What becomes of one draft of a turn, between those that come before it and after it, learning
the turn having the outcome given. -/
inductive Engine.Meets (e : Engine) (now : Instant) (i : Interaction) (s : Store)
    (outcome : List Memory × Store) (front : List Draft) (d : Draft) (later : List Draft) : Prop
  /-- An active memory says the same, or the store refuses it: the others are learned without it. -/
  | dropped
      (h : known (e.requestOf i d) (e.learnDrafts now i front s).2 = true ∨
        ∃ err, e.create now (e.requestOf i d) (e.learnDrafts now i front s).2 = .error err)
      (hwithout : outcome = e.learnDrafts now i (front ++ later) s)
  | stored {m : Memory} {s' : Store}
      (h : e.create now (e.requestOf i d) (e.learnDrafts now i front s).2 = .ok (m, s'))
      (hm : m ∈ outcome.1)

/-! ## One memory -/

theorem Document.lookup_put (name : String) (value : Document) (fields : List (String × Document)) :
    lookup name (put name value fields) = some value := by
  induction fields with
  | nil => simp [put, lookup]
  | cons field rest ih =>
    obtain ⟨n, v⟩ := field
    by_cases hn : n = name
    · simp [put, lookup, hn]
    · simp [put, lookup, hn, ih]

/-- A memory that was made at an instant is read as it is at that instant, and later where the
instant can be read back. -/
theorem Memory.MadeFrom.readAt {m : Memory} {now later : Instant} {r : NewMemory}
    (h : m.MadeFrom now r) (hlater : later = now ∨ now.readable = true) : m.readAt later = m := by
  obtain ⟨hcreated, hmodified, haccessed, haged⟩ := h.stamps
  have hstamp : (if now.readable then now else later) = now := by
    rcases hlater with rfl | hnow
    · exact ite_self _
    · exact if_pos hnow
  unfold Memory.readAt
  rw [hcreated, hmodified, haccessed, haged, hstamp]
  cases m
  cases hcreated
  cases hmodified
  cases haccessed
  cases haged
  rfl

namespace Store.Extended

variable {owner : String} {s s' s'' : Store} {ms ms' : List Memory}

theorem refl (owner : String) (s : Store) : s.Extended owner [] s where
  memories := (List.append_nil _).symm
  contexts := rfl
  relationships := rfl
  accesses := rfl
  unsaid := by simp

/-- One memory is added that says something new. -/
theorem add {m : Memory} (hmemories : s'.memories = s.memories ++ [m])
    (hcontexts : s'.contexts = s.contexts) (hrelationships : s'.relationships = s.relationships)
    (haccesses : s'.accesses = s.accesses) (hunsaid : m.Unsaid owner s.memories) :
    s.Extended owner [m] s' := by
  refine ⟨hmemories, hcontexts, hrelationships, haccesses, fun front k later heq => ?_⟩
  cases front with
  | nil =>
    obtain ⟨rfl, -⟩ := List.cons_eq_cons.mp heq
    rwa [List.append_nil]
  | cons a front => simp at heq

theorem trans (h : s.Extended owner ms s') (h' : s'.Extended owner ms' s'') :
    s.Extended owner (ms ++ ms') s'' := by
  refine ⟨?_, h'.contexts.trans h.contexts, h'.relationships.trans h.relationships,
    h'.accesses.trans h.accesses, fun front m later heq => ?_⟩
  · rw [h'.memories, h.memories, List.append_assoc]
  -- a memory of the first part was new when it came; one of the second was so after the first part
  · rcases List.append_eq_append_iff.mp heq with ⟨front', rfl, hms'⟩ | ⟨later', hms, hlater⟩
    · have hunsaid := h'.unsaid front' m later hms'
      rwa [h.memories, List.append_assoc] at hunsaid
    · cases later' with
      | nil =>
        obtain rfl : ms = front := by simpa using hms
        have hunsaid := h'.unsaid [] m later (by simpa using hlater.symm)
        rwa [h.memories, List.append_nil] at hunsaid
      | cons k later' =>
        obtain ⟨rfl, -⟩ := List.cons_eq_cons.mp hlater
        exact h.unsaid front m later' hms

end Store.Extended

/-- A turn of nobody teaches nothing. -/
theorem Store.Taught.none {e : Engine} {now : Instant} {i : Interaction} {s : Store} :
    s.Taught e now i [] s :=
  { Store.Extended.refl i.owner s with
    detectors := ⟨[], List.nil_sublist _, by simp, by simp, .nil⟩
    unlike := List.nodup_nil
    contents := by simp
    read := by simp }

namespace Engine

variable {e : Engine} {now : Instant} {i : Interaction} {d : Draft} {s s' : Store} {m : Memory}

/-- A memory says what its draft says, and names the detector of the draft. -/
theorem MadeOf.tells (h : e.MadeOf now i d m) : m.content = d.content ∧ m.type = d.type ∧
    m.category = Classifier.classifyCategory d.content ∧
    Document.lookup "detector" m.metadata = some (.text d.detector.name) := by
  obtain ⟨r, hr, hmade⟩ := h
  obtain ⟨tags, -, rfl⟩ := prepare_eq_ok hr
  refine ⟨hmade.content, (Option.some.inj hmade.type).symm, ?_, ?_⟩
  · exact (Option.some.inj hmade.category).symm.trans (Classifier.neat_classifyCategory _).2
  · rw [hmade.metadata]
    exact Document.lookup_put ..

/-- What nobody is found to have said, nobody has said. -/
theorem MadeOf.unsaid (h : e.MadeOf now i d m) (hs : s.Indexed)
    (hunknown : known (e.requestOf i d) s = false) : m.Unsaid i.owner s.memories := by
  obtain ⟨hmcontent, hmtype, hmcategory, -⟩ := h.tells
  intro k hk hactive howner htype hcategory hcontent
  obtain ⟨entry, hentry, rfl⟩ := List.mem_map.mp hk
  refine Bool.eq_false_iff.mp hunknown (known_iff.mpr ⟨entry, hentry, howner,
    htype.trans hmtype, hcategory.trans hmcategory, ?_, hactive⟩)
  rw [← hs entry hentry]
  exact congrArg Digest.ofContent (hcontent.trans hmcontent)

/-- What storing a draft that nobody has said does to a store. -/
theorem extended_create (hs : s.Indexed) (hunknown : known (e.requestOf i d) s = false)
    (h : e.create now (e.requestOf i d) s = .ok (m, s')) :
    e.MadeOf now i d m ∧ s.Extended i.owner [m] s' := by
  obtain ⟨r, hr, hcreate⟩ := bind_eq_ok.mp h
  obtain ⟨-, -, -, heq⟩ := Store.create_eq_ok.mp hcreate
  obtain ⟨rfl, rfl⟩ := Prod.mk.inj heq
  have hnormal := normal_of_prepare hr
  obtain ⟨tags, -, rfl⟩ := prepare_eq_ok hr
  have hmade : e.MadeOf now i d _ := ⟨_, hr, Store.madeFrom_newcomer s now hnormal rfl⟩
  -- the request of a draft has no contexts, so that none are added
  refine ⟨hmade, .add ?_ rfl rfl rfl (hmade.unsaid hs hunknown)⟩
  rw [Store.memories_withNewcomer, Store.readAt_newcomer]

/-- A pass over drafts adds memories that are made of some of them, in their order. -/
theorem extended_learnDrafts (hs : s.Indexed) (now : Instant) (i : Interaction) (ds : List Draft) :
    ∃ kept : List Draft, kept.Sublist ds ∧
      List.Forall₂ (fun d m => e.MadeOf now i d m) kept (e.learnDrafts now i ds s).1 ∧
      s.Extended i.owner (e.learnDrafts now i ds s).1 (e.learnDrafts now i ds s).2 := by
  induction ds generalizing s with
  | nil => exact ⟨[], .refl [], .nil, .refl i.owner s⟩
  | cons d ds ih =>
    by_cases hd : e.Settled i s d
    · obtain ⟨kept, hsub, hmade, hextended⟩ := ih hs
      rw [learnDrafts_of_settled hd]
      exact ⟨kept, hsub.cons d, hmade, hextended⟩
    · obtain ⟨hunknown, hacceptable⟩ := not_or.mp hd
      have hunknown : known (e.requestOf i d) s = false := by simpa using hunknown
      obtain ⟨m, s', hcreate, -⟩ := create_of_acceptable (by simpa using hacceptable) now s
      obtain ⟨hm, hadded⟩ := extended_create hs hunknown hcreate
      obtain ⟨kept, hsub, hmade, hextended⟩ := ih (hs.writes (writes_create hcreate))
      rw [learnDrafts_of_create hunknown hcreate]
      exact ⟨d :: kept, hsub.cons_cons d, .cons hm hmade, hadded.trans hextended⟩

/-- A draft is stored in its turn, or the others are learned as if it were not there. -/
theorem meets_learnDrafts (now : Instant) (i : Interaction) (s : Store) (front : List Draft)
    (d : Draft) (later : List Draft) :
    e.Meets now i s (e.learnDrafts now i (front ++ d :: later) s) front d later := by
  by_cases hd : e.Settled i (e.learnDrafts now i front s).2 d
  · refine .dropped (hd.imp_right fun h => create_of_not_acceptable h now _) ?_
    rw [learnDrafts_append, learnDrafts_of_settled hd, ← learnDrafts_append]
  · obtain ⟨hunknown, hacceptable⟩ := not_or.mp hd
    obtain ⟨m, s', hcreate, hm⟩ := (learned_or_known (by simpa using hacceptable) now s front
      later).resolve_left hunknown
    exact .stored hcreate hm

theorem exists_draft_of_mem {ds : List Draft} {ms : List Memory}
    (h : List.Forall₂ (fun d m => e.MadeOf now i d m) ds ms) (hm : m ∈ ms) :
    ∃ d ∈ ds, e.MadeOf now i d m := by
  induction h with
  | nil => cases hm
  | cons hmade _ ih =>
    rcases List.mem_cons.mp hm with rfl | hm
    · exact ⟨_, List.mem_cons_self, hmade⟩
    · obtain ⟨d, hd, hmade⟩ := ih hm
      exact ⟨d, List.mem_cons_of_mem _ hd, hmade⟩

/-- Collecting the drafts of a turn and then storing them, each in its turn. -/
theorem taught_learnDrafts (hs : s.Indexed) (now : Instant) (i : Interaction)
    (hsound : (e.learnDrafts now i (e.drafts i) s).2.Sound) :
    s.Taught e now i (e.learnDrafts now i (e.drafts i) s).1
      (e.learnDrafts now i (e.drafts i) s).2 := by
  obtain ⟨kept, hsub, hforall, hextended⟩ := extended_learnDrafts hs now i (e.drafts i)
  generalize (e.learnDrafts now i (e.drafts i) s).1 = ms at hforall hextended ⊢
  generalize (e.learnDrafts now i (e.drafts i) s).2 = s' at hextended hsound ⊢
  have hkept := (collected_draftsOf e.config.learning e.classifier i).sublist hsub
  have hdetectors := Detector.enabled_sublist e.config.learning.detectors
  have hteaches : List.Forall₂ (fun d m => d.detector.Teaches e now i m) kept ms := by
    have hmade := (List.forall₂_and_left _ _).mpr ⟨hkept.made, hforall⟩
    refine hmade.imp ?_
    rintro d m ⟨⟨-, hdetect⟩, hm⟩
    exact ⟨⟨d, hdetect, hm⟩, hm.tells.2.2.2⟩
  have hcontents : kept.map (·.content) = ms.map (·.content) := by
    rw [← List.forall₂_eq_eq_eq, List.forall₂_map_left_iff, List.forall₂_map_right_iff]
    exact hforall.imp fun d m hm => hm.tells.1.symm
  refine { hextended with
    detectors := ⟨kept.map (·.detector), hkept.ordered.trans hdetectors,
      fun _ h => hkept.ordered.subset h, hkept.not_both hdetectors,
      List.forall₂_map_left_iff.mpr hteaches⟩
    unlike := hcontents ▸ hkept.unlike List.nodup_nil
    contents := fun m hm => ?_
    read := fun m hm later hlater => ?_ }
  · obtain ⟨d, hd, hm⟩ := exists_draft_of_mem hforall hm
    obtain ⟨hne, hdetect⟩ := hkept.made d hd
    obtain ⟨-, hcontent⟩ := Detector.detect_spec hdetect
    rw [hm.tells.1]
    rw [hcontent] at hne ⊢
    exact ⟨(Text.shorten_cases _ _).resolve_left hne, (Text.shortForm_shorten _ _).bounded⟩
  · obtain ⟨d, -, r, -, hmade⟩ := exists_draft_of_mem hforall hm
    refine Store.get_eq_ok.mpr ⟨m, hsound.kept?_of_mem ?_, hmade.readAt hlater⟩
    rw [hextended.memories]
    exact List.mem_append_right _ hm

end Engine

namespace World

/-- Learning a turn in a state that was reached only adds: one memory at most for each detector that
runs, each new when it is stored and read back as it is returned. A draft that is known or refused
leaves the others as they would be without it. -/
theorem turn_teaches {p : Engine → Prop} {w : World} (hw : w.Reached p) (e : Engine) (now : Instant)
    (i : Interaction) :
    w.store.Taught e now i (e.learn now i w.store).1 (e.learn now i w.store).2 ∧
    (Text.blank i.owner = false → ∀ front d later, e.drafts i = front ++ d :: later →
      e.Meets now i w.store (e.learn now i w.store) front d later) := by
  have hsound : (e.learn now i w.store).2.Sound := hw.sound.writes (e.writes_learn i w.store)
  cases hblank : Text.blank i.owner with
  | true =>
    have hlearn : e.learn now i w.store = ([], w.store) := by simp [Engine.learn, hblank]
    rw [hlearn]
    exact ⟨.none, by simp⟩
  | false =>
    have hlearn : e.learn now i w.store = e.learnDrafts now i (e.drafts i) w.store := by
      simp [Engine.learn, hblank]
    rw [hlearn] at hsound ⊢
    refine ⟨Engine.taught_learnDrafts hw.indexed now i hsound, fun _ front d later h => ?_⟩
    rw [h]
    exact Engine.meets_learnDrafts now i w.store front d later

/-- A turn whose request has no tag of the vocabulary, but whose response has one. -/
def lesson : Interaction :=
  { owner := "ann"
    userInput := "Save this: standup moved to 10"
    agentResponse := "I learned which food you like" }

/-- The request is refused, and the response is learned as if nothing had been asked. -/
theorem turn_teaches_lesson : ∃ d later m s', Engine.oneTag.drafts lesson = d :: later ∧
    d.content = "Save this: standup moved to 10" ∧
    Engine.oneTag.learn ⟨0⟩ lesson (withTea ⟨0⟩ 5).store = ([m], s') ∧
    Engine.oneTag.learnDrafts ⟨0⟩ lesson later (withTea ⟨0⟩ 5).store = ([m], s') ∧
    m.content = "I learned which food you like" ∧
    s'.memories = (withTea ⟨0⟩ 5).store.memories ++ [m] ∧ s'.get ⟨1⟩ m.id = .ok m := by
  obtain ⟨htaught, hmeets⟩ := turn_teaches (reached_withTea ⟨0⟩ 5) .oneTag ⟨0⟩ lesson
  have hdrafts : (Engine.oneTag.drafts lesson).map
      (fun d => (d.content, Engine.oneTag.acceptable lesson d)) =
        [("Save this: standup moved to 10", false), ("I learned which food you like", true)] := by
    decide
  have hcontents : (Engine.oneTag.learn ⟨0⟩ lesson (withTea ⟨0⟩ 5).store).1.map (·.content) =
      ["I learned which food you like"] := by
    decide
  obtain ⟨d, later, hfirst, hd, -⟩ := List.map_eq_cons_iff.mp hdrafts
  obtain ⟨hcontent, hrefused⟩ := Prod.mk.inj hd
  generalize hlearn : Engine.oneTag.learn ⟨0⟩ lesson (withTea ⟨0⟩ 5).store = outcome
    at htaught hmeets hcontents
  obtain ⟨ms, s'⟩ := outcome
  obtain ⟨m, rest, hms, hm, hrest⟩ := List.map_eq_cons_iff.mp hcontents
  obtain rfl : rest = [] := List.map_eq_nil_iff.mp hrest
  cases hms
  have hwithout : ([m], s') =
      Engine.oneTag.learnDrafts ⟨0⟩ lesson later (withTea ⟨0⟩ 5).store := by
    cases hmeets (by decide) [] d later hfirst with
    | dropped _ hwithout => exact hwithout
    | stored h _ =>
      obtain ⟨err, herr⟩ := Engine.create_of_not_acceptable hrefused ⟨0⟩ (withTea ⟨0⟩ 5).store
      cases herr.symm.trans h
  exact ⟨d, later, m, s', hfirst, hcontent, rfl, hwithout.symm, hm, htaught.memories,
    htaught.read m (List.mem_singleton_self m) ⟨1⟩ (Or.inr (by decide))⟩

end World

end LongTermMemory
