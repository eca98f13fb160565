import LongTermMemory.Proofs.Commutation

/-!
Maintenance: it says of each owner what the two passes for this owner alone say, but for the ids of
the memories that they create. What it did for the owners before has changed nothing that these
passes read.
-/

namespace LongTermMemory

variable {now : Instant} {owner : String} {s s₀ : Store}

/-- What a run leaves of its owner's view is told from this view. -/
theorem Lifecycle.viewOf_tidied_congr {c : LifecycleConfig}
    (h : s.viewOf owner = s₀.viewOf owner) :
    (tidied c now owner s).viewOf owner = (tidied c now owner s₀).viewOf owner := by
  have hview : ∀ s : Store, (tidied c now owner s).viewOf owner =
      ((s.viewOf owner).map (settle c now owner)).filter
        (·.id ∉ removedOf c now owner (s.viewOf owner)) := by
    intro s
    rw [tidied, Store.viewOf_removeAll, Store.viewOf_mapMemories keepsPlace_settle owner_settle]
  rw [hview, hview, h]

/-- Some owners have what they had in `s₀`; since then `given` ids have been given out. -/
structure KeptFor (owners : List String) (given : Nat) (s₀ s : Store) : Prop where
  sound : s.Sound
  views : ∀ owner ∈ owners, s.viewOf owner = s₀.viewOf owner
  last : s.lastMemoryId = s₀.lastMemoryId + given

namespace Engine

variable {e : Engine}

/-- What maintenance of an owner leaves. -/
def maintained (e : Engine) (now : Instant) (owner : String) (s : Store) : Store :=
  let s := Lifecycle.tidied e.config.lifecycle now owner s
  s.replacing now (e.replacementsIn owner (s.viewOf owner))

/-- The report says of an owner what its passes alone say, with their ids moved on. -/
def SaysOf (e : Engine) (now : Instant) (s : Store) (owner : String)
    (report : MaintenanceReport) : Prop :=
  ∃ lifecycle consolidation s', ∃ given : Nat,
    inTurn (e.lifecycle now owner) (e.consolidate now owner) s =
      .ok ((lifecycle, consolidation), s') ∧
    report = { owner, lifecycle, consolidation := consolidation.renumbered given }

section

variable (hc : e.config.Checked) (hsize : e.config.Sized) (hs₀ : s₀.Sound)
include hc hsize hs₀

/-- Maintenance of one owner, after that of others, says what its passes alone say. -/
theorem maintainOwner_eq {given : Nat} (hs : s.Sound)
    (hview : s.viewOf owner = s₀.viewOf owner)
    (hlast : s.lastMemoryId = s₀.lastMemoryId + given) {lifecycle : LifecycleReport}
    {consolidation : ConsolidationReport} {s₁ : Store}
    (halone : inTurn (e.lifecycle now owner) (e.consolidate now owner) s₀ =
      .ok ((lifecycle, consolidation), s₁)) :
    e.maintainOwner now owner s =
      (some { owner, lifecycle, consolidation := consolidation.renumbered given },
        e.maintained now owner s) := by
  have hlifecycle := amountsTo_lifecycle hc hsize now owner
  have hconsolidate := amountsTo_consolidate hc hsize now owner
  obtain ⟨hp, hq, hreport, hmerged, -⟩ := (hlifecycle.inTurn_eq_ok hconsolidate hs₀).mp halone
  have hs' := hlifecycle.leaves_sound hs hp
  have hfirst := (hlifecycle.eq_ok s hs _ _).mpr ⟨hp, rfl, rfl⟩
  have hsecond := (hconsolidate.eq_ok _ hs' _ _).mpr ⟨hq, rfl, rfl⟩
  have hlast' : (Lifecycle.tidied e.config.lifecycle now owner s).lastMemoryId =
      (Lifecycle.tidied e.config.lifecycle now owner s₀).lastMemoryId + given := hlast
  rw [hview, ← hreport] at hfirst
  rw [hlast', Lifecycle.viewOf_tidied_congr hview, mergeReportOf_add, ← hmerged,
    ← Lifecycle.viewOf_tidied_congr hview] at hsecond
  unfold maintainOwner
  rw [hfirst]
  dsimp only
  rw [hsecond]
  rfl

/-- Maintenance of one owner leaves the owners after it what they had. -/
theorem keptFor_maintained {rest : List String} {given : Nat} (hnew : owner ∉ rest)
    (h : KeptFor (owner :: rest) given s₀ s)
    (halone : ∃ r, inTurn (e.lifecycle now owner) (e.consolidate now owner) s₀ = .ok r)
    (hleaves : (e.maintained now owner s).Sound) :
    ∃ given', KeptFor rest given' s₀ (e.maintained now owner s) := by
  obtain ⟨⟨⟨_, _⟩, _⟩, halone⟩ := halone
  have hlifecycle := amountsTo_lifecycle hc hsize now owner
  obtain ⟨hp, -⟩ :=
    (hlifecycle.inTurn_eq_ok (amountsTo_consolidate hc hsize now owner) hs₀).mp halone
  have hs' := hlifecycle.leaves_sound h.sound hp
  refine ⟨given + (e.replacementsIn owner
    ((Lifecycle.tidied e.config.lifecycle now owner s).viewOf owner)).length, hleaves,
    fun other hother => ?_, ?_⟩
  · have hne : owner ≠ other := fun heq => hnew (heq ▸ hother)
    rw [maintained, viewOf_replacing_of_ne hs' hne, Lifecycle.viewOf_tidied_of_ne h.sound hne]
    exact h.views other (List.mem_cons_of_mem owner hother)
  · have hlast : (Lifecycle.tidied e.config.lifecycle now owner s).lastMemoryId =
        s₀.lastMemoryId + given := h.last
    rw [maintained, Store.lastMemoryId_replacing, hlast, Int.natCast_add, Int.add_assoc]

/-- Maintenance of some owners says of each what its passes alone say. -/
theorem maintainOwners_spec {owners : List String} {given : Nat} (hnodup : owners.Nodup)
    (h : KeptFor owners given s₀ s)
    (halone : ∀ owner ∈ owners, ∃ r,
      inTurn (e.lifecycle now owner) (e.consolidate now owner) s₀ = .ok r) :
    List.Forall₂ (e.SaysOf now s₀) owners (e.maintainOwners now owners s).1 := by
  induction owners generalizing s given with
  | nil => exact .nil
  | cons owner rest ih =>
    obtain ⟨hnew, hrest⟩ := List.nodup_cons.mp hnodup
    obtain ⟨⟨⟨lifecycle, consolidation⟩, s₁⟩, hpasses⟩ := halone owner List.mem_cons_self
    have hrun : e.maintainOwner now owner s = _ :=
      maintainOwner_eq hc hsize hs₀ h.sound (h.views owner List.mem_cons_self) h.last hpasses
    have hleaves : (e.maintainOwner now owner s).2.Sound :=
      h.sound.writes (writes_maintainOwner h.sound trivial trivial owner)
    rw [hrun] at hleaves
    obtain ⟨given', hkept⟩ :=
      keptFor_maintained hc hsize hs₀ hnew h (halone owner List.mem_cons_self) hleaves
    unfold maintainOwners
    rw [hrun]
    exact .cons ⟨lifecycle, consolidation, s₁, given, hpasses, rfl⟩
      (ih hrest hkept fun o ho => halone o (List.mem_cons_of_mem owner ho))

end

end Engine

namespace World

/-- Passes that no deadline stops commute if their owners differ, but that consolidations share the
ids they give out. So maintenance says of each stored owner, once and in ascending order, what the
passes of this owner alone say. -/
theorem passes_of_owners_commute {p : Engine → Prop} {w : World} (hw : w.Reached p) {c : Config}
    {e : Engine} (he : Engine.ofConfig c = .ok e) (hsize : c.Sized) (now : Instant) :
    (∀ owner, Text.blank owner = false → ∀ deadline,
      (∀ report s', e.lifecycleAt now now owner deadline w.store = .ok (report, s') →
        report.aborted = false → e.lifecycle now owner w.store = .ok (report, s')) ∧
      ∀ report s', e.consolidateBy now owner deadline w.store = .ok (report, s') →
        report.aborted = false → e.consolidate now owner w.store = .ok (report, s')) ∧
    (∀ owner other, owner ≠ other →
      CommuteAt w.store (e.lifecycle now owner) (e.lifecycle now other) ∧
      CommuteAt w.store (e.consolidate now owner) (e.lifecycle now other) ∧
      ∀ report s₁ report' s₂, e.consolidate now owner w.store = .ok (report, s₁) →
        e.consolidate now other w.store = .ok (report', s₂) →
        ∃ s₃, e.consolidate now other s₁ = .ok (report'.renumbered report.groupsMerged, s₃)) ∧
    ((∀ owner ∈ w.store.owners, ∃ r,
        inTurn (e.lifecycle now owner) (e.consolidate now owner) w.store = .ok r) →
      List.Forall₂ (e.SaysOf now w.store) w.store.owners (e.maintain now w.store).1) ∧
    w.store.owners.Pairwise (· < ·) ∧
    ∀ owner, owner ∈ w.store.owners ↔ ∃ m ∈ w.store.memories, m.owner = owner := by
  obtain ⟨hc, rfl⟩ := Engine.ofConfig_eq_ok.mp he
  have hs := hw.sound
  have hascending : w.store.owners.Pairwise (· < ·) := Ascending.pairwise_ofList _
  refine ⟨fun owner howner deadline => ⟨fun report s' h hgoes => ?_, fun report s' h hgoes => ?_⟩,
    fun owner other hne => ⟨?_, ?_, ?_⟩, fun halone => ?_, hascending, fun owner => ?_⟩
  · exact Engine.lifecycle_of_lifecycleAt (e := .ofUnchecked c) hs howner hc hsize.lifecyclePage h
      hgoes
  · exact Engine.consolidate_of_consolidateBy (e := .ofUnchecked c) hs howner
      hc.consolidationSizes.1 hsize.consolidationPage h hgoes
  · exact Engine.commuteAt_lifecycle (e := .ofUnchecked c) hc hsize hs hne
  · exact Engine.commuteAt_consolidate_lifecycle (e := .ofUnchecked c) hc hsize hs hne
  · intro report s₁ report' s₂ hfirst hother
    exact Engine.consolidate_after_consolidate (e := .ofUnchecked c) hc hsize hs hne hfirst hother
  · have hstart : KeptFor w.store.owners 0 w.store w.store :=
      ⟨hs, fun _ _ => rfl, (Int.add_zero _).symm⟩
    exact Engine.maintainOwners_spec (e := .ofUnchecked c) hc hsize hs (Ascending.nodup_ofList _)
      hstart halone
  · rw [Store.owners, Ascending.mem_ofList, List.mem_map, Store.memories]
    simp

/-- Two owners with the same memories: two that are equal, and one that is like them. Those of the
second owner have the first memory of the other as their parent. -/
def sixTeas : World :=
  [.create (tea 5), .create { tea 5 with content := "tea!" },
    .create { tea 5 with owner := "bob", parent := some 1 },
    .create { tea 5 with owner := "bob", parent := some 1 },
    .create { tea 5 with owner := "bob", parent := some 1, content := "tea!" }].foldl
      (fun w op => Engine.oneTag.perform op w) (withTea ⟨0⟩ 5)

theorem reached_sixTeas : sixTeas.Reached (· = .oneTag) := by
  obtain ⟨clock, hrun⟩ := reached_withTea ⟨0⟩ 5
  exact ⟨clock, hrun.trans (runs_foldl (p := (· = .oneTag)) rfl _ _)⟩

theorem passes_of_owners_commute_sixTeas :
    CommuteAt sixTeas.store (Engine.oneTag.lifecycle ⟨0⟩ "ann")
      (Engine.oneTag.lifecycle ⟨0⟩ "bob") ∧
    (∃ s₁ s₃, Engine.oneTag.consolidate ⟨0⟩ "ann" sixTeas.store = .ok
        ({ groupsFound := 1, groupsMerged := 1, memoriesArchived := 3, mergedIds := [7] }, s₁) ∧
      Engine.oneTag.consolidate ⟨0⟩ "bob" s₁ = .ok
        ({ groupsFound := 1, groupsMerged := 1, memoriesArchived := 3, mergedIds := [8] }, s₃)) ∧
    List.Forall₂ (Engine.oneTag.SaysOf ⟨0⟩ sixTeas.store) ["ann", "bob"]
      (Engine.oneTag.maintain ⟨0⟩ sixTeas.store).1 := by
  have hs := reached_sixTeas.sound
  have hc := (Engine.ofConfig_eq_ok.mp Engine.ofConfig_oneTag).1
  have hsize : Engine.oneTag.config.Sized := ⟨by decide, by decide, by decide⟩
  have howners : sixTeas.store.owners = ["ann", "bob"] := by decide
  have hnames : ∀ owner ∈ sixTeas.store.owners, Text.blank owner = false := by
    rw [howners]
    decide
  have halone : ∀ owner ∈ sixTeas.store.owners, ∃ r, inTurn (Engine.oneTag.lifecycle ⟨0⟩ owner)
      (Engine.oneTag.consolidate ⟨0⟩ owner) sixTeas.store = .ok r := fun owner howner =>
    ⟨_, ((Engine.amountsTo_lifecycle hc hsize ⟨0⟩ owner).inTurn_eq_ok
      (Engine.amountsTo_consolidate hc hsize ⟨0⟩ owner) hs).mpr
        ⟨⟨hnames owner howner, runnable_default⟩, ⟨hnames owner howner, by decide⟩, rfl, rfl, rfl⟩⟩
  have hmerges : ∀ owner ∈ ["ann", "bob"], ∃ s', Engine.oneTag.consolidate ⟨0⟩ owner sixTeas.store =
      .ok ({ groupsFound := 1, groupsMerged := 1, memoriesArchived := 3, mergedIds := [7] },
        s') := by
    intro owner howner
    have hreport : Engine.oneTag.mergeReportOf owner sixTeas.store.lastMemoryId
        (sixTeas.store.viewOf owner) =
          { groupsFound := 1, groupsMerged := 1, memoriesArchived := 3, mergedIds := [7] } := by
      revert owner
      decide +kernel
    exact ⟨_, (Engine.consolidate_eq_ok hc hsize hs).mpr
      ⟨⟨hnames owner (howners ▸ howner), by decide⟩, hreport.symm, rfl⟩⟩
  obtain ⟨-, hcommute, hmaintain, -⟩ :=
    passes_of_owners_commute reached_sixTeas Engine.ofConfig_oneTag hsize ⟨0⟩
  obtain ⟨hlifecycle, -, hconsolidate⟩ := hcommute "ann" "bob" (by decide)
  obtain ⟨s₁, hann⟩ := hmerges "ann" (by simp)
  obtain ⟨s₂, hbob⟩ := hmerges "bob" (by simp)
  obtain ⟨s₃, hafter⟩ := hconsolidate _ s₁ _ s₂ hann hbob
  exact ⟨hlifecycle, ⟨s₁, s₃, hann, hafter⟩, howners ▸ hmaintain halone⟩

end World

end LongTermMemory
