import LongTermMemory.Proofs.Components
import LongTermMemory.Proofs.Configuration
import LongTermMemory.Proofs.Supersession

/-!
Consolidation: the pass reads the first active memories of an owner as its limit allows, and merges
their connected components one after another. A group is merged just when the request for the
memory that takes its place is acceptable.
-/

namespace LongTermMemory

namespace Engine

variable {now : Instant} {owner : String} {s : Store}

/-! ## Reading -/

/-- What is read is the front of the active memories, as long as the limit of a pass allows. -/
theorem loadPages_eq (hs : s.Sound) (howner : Text.blank owner = false)
    {c : ConsolidationConfig} (hpos : 0 < c.pageSize) (hsize : c.pageSize < 2 ^ 64) {fuel : Nat}
    {deadline : Deadline} {done rest : List Memory}
    (hall : s.activeAt now owner = done ++ rest) (hdone : done.length ≤ c.maxMemoriesPerPass)
    (hfuel : rest.length < fuel) {p : Passed (List Memory)}
    (h : loadPages c now owner s fuel deadline (done.getLast?.map (·.id)) done = .ok p)
    (hgoes : p.aborted = false) :
    p.result = (s.activeAt now owner).take c.maxMemoriesPerPass := by
  induction fuel generalizing deadline done rest with
  | zero => omega
  | succ fuel ih =>
    unfold loadPages at h
    split at h
    · cases h
      cases hgoes
    · next deadline' _ =>
      dsimp only at h
      split at h
      · next hlimit =>
        cases h
        have hlength : done.length = c.maxMemoriesPerPass := Nat.le_antisymm hdone hlimit
        rw [hall, ← hlength, List.take_left]
      · next hlimit =>
        obtain ⟨page, hpage, h⟩ := bind_eq_ok.mp h
        have hless := size_of_activePage (Nat.lt_of_le_of_lt (Nat.min_le_left _ _) hsize) hpage
        have hpast : past (done.getLast?.map (·.id)) (done ++ rest) = rest :=
          past_last (hall ▸ ById.activeAt hs now owner)
        rw [activePage_eq hs howner hless, hall, hpast] at hpage
        cases hpage
        generalize hsizes : min c.pageSize (c.maxMemoriesPerPass - done.length) = size at *
        split at h
        · next hfull =>
          have hlast : (rest.take size).getLast?.map (·.id) =
              (done ++ rest.take size).getLast?.map (·.id) := by
            have hne : rest.take size ≠ [] := List.ne_nil_of_length_pos (by omega)
            rw [List.getLast?_append_of_ne_nil _ hne]
          have hsplit : s.activeAt now owner = done ++ rest.take size ++ rest.drop size := by
            rw [List.append_assoc, List.take_append_drop, hall]
          rw [hlast] at h
          refine ih hsplit ?_ ?_ h
          · rw [List.length_append, hfull]
            omega
          · rw [List.length_take] at hfull
            rw [List.length_drop]
            omega
        · next hshort =>
          cases h
          rw [List.length_take] at hshort
          have htake : rest.take size = rest := List.take_of_length_le (by omega)
          rw [htake, hall, List.take_of_length_le]
          rw [List.length_append]
          omega

theorem loadActive_eq {e : Engine} (hs : s.Sound) (howner : Text.blank owner = false)
    (hpos : 0 < e.config.consolidation.pageSize)
    (hsize : e.config.consolidation.pageSize < 2 ^ 64) {deadline : Deadline}
    {p : Passed (List Memory)} (h : e.loadActive now owner deadline s = .ok p)
    (hgoes : p.aborted = false) :
    p.result = (s.activeAt now owner).take e.config.consolidation.maxMemoriesPerPass := by
  have hlength : (s.activeAt now owner).length ≤ s.entries.length := Store.length_activeAt_le
  exact loadPages_eq hs howner hpos hsize (List.nil_append _).symm (Nat.zero_le _) (by omega) h
    hgoes

end Engine

/-! ## Merging -/

/-- The request for a new memory, and the ids of the memories whose place it takes. -/
structure Replacement where
  request : NewMemory
  ids : List MemoryId

namespace Store

/-- The store after some replacements, one after another. -/
def replacing (s : Store) (now : Instant) (rs : List Replacement) : Store :=
  rs.foldl (fun s r => s.merging now r.request r.ids) s

/-- The ids that are given out next. -/
def newIds : MemoryId → Nat → List MemoryId
  | _, 0 => []
  | last, n + 1 => (last + 1) :: newIds (last + 1) n

end Store

namespace Engine

variable {now : Instant} {owner : String} {s : Store}

/-- Whether the request for the memory of a group is acceptable. -/
def mergeable (e : Engine) (owner : String) (group : List Memory) : Bool :=
  (e.prepare (e.config.consolidation.mergedRequest owner group)).isOk

variable {e : Engine}

theorem exists_prepared {group : List Memory} (h : e.mergeable owner group = true) :
    ∃ r, e.prepare (e.config.consolidation.mergedRequest owner group) = .ok r := by
  unfold mergeable at h
  cases hprepare : e.prepare (e.config.consolidation.mergedRequest owner group) with
  | ok r => exact ⟨r, rfl⟩
  | error err =>
    rw [hprepare] at h
    cases h

theorem mergeWithRetry_of_merge {group : List Memory} {m : Memory} {s' : Store}
    (h : e.merge now owner group s = .ok (m, s')) :
    e.mergeWithRetry now owner group s = (some m, s') := by
  unfold mergeWithRetry
  rw [h]

theorem retryable_of_prepare {r : NewMemory} {err : Error} (h : e.prepare r = .error err) :
    err.retryable = false := by
  unfold prepare at h
  cases hcheck : r.check e.vocabulary with
  | ok tags =>
    rw [hcheck] at h
    cases h
  | error cause =>
    rw [hcheck] at h
    cases h
    rfl

theorem merge_of_not_mergeable {group : List Memory} (h : e.mergeable owner group = false)
    (now : Instant) (s : Store) :
    ∃ err, e.merge now owner group s = .error err ∧ err.retryable = false := by
  unfold mergeable at h
  cases hprepare : e.prepare (e.config.consolidation.mergedRequest owner group) with
  | ok r =>
    rw [hprepare] at h
    cases h
  | error err =>
    refine ⟨err, ?_, retryable_of_prepare hprepare⟩
    rw [merge, hprepare]
    rfl

/-- A request that is not acceptable is not made again. -/
theorem mergeWithRetry_of_not_mergeable {group : List Memory}
    (h : e.mergeable owner group = false) : e.mergeWithRetry now owner group s = (none, s) := by
  obtain ⟨err, hmerge, hretryable⟩ := merge_of_not_mergeable h now s
  unfold mergeWithRetry
  rw [hmerge]
  simp [hretryable]

/-- The replacements that groups come to, none for a group whose request is refused. -/
def replacements (e : Engine) (owner : String) (groups : List (List Memory)) :
    List Replacement :=
  groups.filterMap fun group =>
    match e.prepare (e.config.consolidation.mergedRequest owner group) with
    | .ok r => some ⟨r, group.map (·.id)⟩
    | .error _ => none

theorem replacements_cons_of_prepare {group : List Memory} {r : NewMemory}
    (hr : e.prepare (e.config.consolidation.mergedRequest owner group) = .ok r)
    (groups : List (List Memory)) : e.replacements owner (group :: groups) =
      ⟨r, group.map (·.id)⟩ :: e.replacements owner groups := by
  rw [replacements, List.filterMap_cons, hr]
  rfl

theorem replacements_cons_of_not_mergeable {group : List Memory}
    (h : e.mergeable owner group = false) (groups : List (List Memory)) :
    e.replacements owner (group :: groups) = e.replacements owner groups := by
  unfold mergeable at h
  rw [replacements, List.filterMap_cons]
  cases hprepare : e.prepare (e.config.consolidation.mergedRequest owner group) with
  | ok r =>
    rw [hprepare] at h
    cases h
  | error err => rfl

/-- Groups of active memories no two of which share a member. -/
structure Separate (now : Instant) (owner : String) (s : Store) (groups : List (List Memory)) :
    Prop where
  readable : ∀ group ∈ groups, Readable now owner s group
  nonempty : ∀ group ∈ groups, group ≠ []
  apart : groups.Pairwise fun g g' => ∀ m ∈ g, ∀ m' ∈ g', m.id ≠ m'.id

/-- What the mergers of a pass add to its report. -/
def reported (report : ConsolidationReport) (mergers : List Merger) (skipped : Nat) :
    ConsolidationReport :=
  { report with
    groupsMerged := report.groupsMerged + mergers.length
    memoriesArchived := report.memoriesArchived + (mergers.map (·.group.length)).sum
    mergedIds := report.mergedIds ++ mergers.map (·.result.id)
    skippedGroups := report.skippedGroups + skipped }

theorem Separate.of_cons {group : List Memory} {groups : List (List Memory)}
    (h : Separate now owner s (group :: groups)) : Separate now owner s groups :=
  { readable := fun g hg => h.readable g (List.mem_cons_of_mem group hg)
    nonempty := fun g hg => h.nonempty g (List.mem_cons_of_mem group hg)
    apart := h.apart.of_cons }

/-- After a group is merged the others can still be read as they were. -/
theorem Separate.of_merged {g : Merger} {groups : List (List Memory)} {s' : Store}
    (h : Separate now owner s (g.group :: groups)) (hmerged : Merged now owner [g] s s') :
    Separate now owner s' groups := by
  refine { h.of_cons with readable := fun group hgroup => ?_ }
  refine hmerged.readable (h.of_cons.readable group hgroup) fun m hm hin => ?_
  rw [List.flatMap_singleton] at hin
  obtain ⟨k, hk, hid⟩ := List.mem_map.mp hin
  exact (List.pairwise_cons.mp h.apart).1 group hgroup k hk m hm hid

/-- The mergers of a group and of the ones after it, one after another. -/
theorem Separate.merged_cons {g : Merger} {groups : List (List Memory)} {mergers : List Merger}
    {s₁ s' : Store} (hs : s.Sound) (h : Separate now owner s (g.group :: groups))
    (hmerged : Merged now owner [g] s s₁) (hrest : Merged now owner mergers s₁ s')
    (hmem : ∀ g' ∈ mergers, g'.group ∈ groups) : Merged now owner (g :: mergers) s s' := by
  refine hmerged.trans hrest (fun id hid => ?_) fun id hid hid' => ?_
  · obtain ⟨g', hg', hid⟩ := List.mem_flatMap.mp hid
    exact (h.of_cons.readable _ (hmem g' hg')).id_le hs hid
  · rw [List.flatMap_singleton] at hid
    obtain ⟨g', hg', hid'⟩ := List.mem_flatMap.mp hid'
    obtain ⟨m, hm, hmid⟩ := List.mem_map.mp hid
    obtain ⟨m', hm', hmid'⟩ := List.mem_map.mp hid'
    exact (List.pairwise_cons.mp h.apart).1 _ (hmem g' hg') m hm m' hm' (hmid.trans hmid'.symm)

/-- What a pass that was not stopped comes to: its report, the changes of the store, and the store
that it leaves. -/
theorem mergeAll_eq {groups : List (List Memory)} (hs : s.Sound)
    (hgroups : Separate now owner s groups) {deadline : Deadline}
    {report report' : ConsolidationReport} {s' : Store}
    (h : e.mergeAll now owner groups deadline (report, s) = (report', s'))
    (hgoes : report'.aborted = false) :
    ∃ mergers, mergers.map (·.group) = groups.filter (e.mergeable owner) ∧
      Merged now owner mergers s s' ∧
      report' = reported report mergers (groups.countP fun group => !e.mergeable owner group) ∧
      s' = s.replacing now (e.replacements owner groups) ∧
      mergers.map (·.result.id) = Store.newIds s.lastMemoryId mergers.length := by
  induction groups generalizing deadline report s with
  | nil =>
    cases h
    exact ⟨[], rfl, .refl now owner _, by simp [reported], rfl, rfl⟩
  | cons group groups ih =>
    unfold mergeAll at h
    split at h
    · cases h
      cases hgoes
    · by_cases hmergeable : e.mergeable owner group = true
      · obtain ⟨r, hr⟩ := exists_prepared hmergeable
        have hreadable := hgroups.readable group (by simp)
        have hmerge : e.merge now owner group s = _ :=
          merge_eq_merging hs (hreadable.current hs) hreadable.ascending.nodup_ids hr
        have hmerged : Merged now owner [⟨group, s.newcomer now r⟩] s _ :=
          hreadable.merged_merging hs (hgroups.nonempty group (by simp)) hr
        rw [mergeWithRetry_of_merge hmerge] at h
        have hids : ∀ m ∈ group, m.id ≤ s.lastMemoryId := fun m hm =>
          hreadable.id_le hs (List.mem_map_of_mem hm)
        obtain ⟨mergers, hmergers, hrest, hreport, hstore, hnew⟩ := ih
          (hs.writes (writes_merge trivial hids hmerge)) (Separate.of_merged hgroups hmerged) h
        have hmem : ∀ g' ∈ mergers, g'.group ∈ groups := fun g' hg' =>
          (List.mem_filter.mp (hmergers ▸ List.mem_map_of_mem hg')).1
        refine ⟨⟨group, s.newcomer now r⟩ :: mergers, ?_,
          Separate.merged_cons hs hgroups hmerged hrest hmem, ?_, ?_, ?_⟩
        · rw [List.filter_cons, if_pos hmergeable, List.map_cons, hmergers]
        · have hrelated : ((s.newcomer now r).readAt now).related.length = group.length := by
            have hproper := hmerged.proper _ (List.mem_singleton_self _)
            exact (congrArg List.length hproper.related).trans (List.length_map _)
          rw [hreport, hrelated]
          simp [reported, hmergeable, Nat.add_assoc, Nat.add_comm 1]
        · rw [replacements_cons_of_prepare hr]
          exact hstore
        · rw [List.map_cons, hnew]
          rfl
      · have hmergeable : e.mergeable owner group = false := by simpa using hmergeable
        rw [mergeWithRetry_of_not_mergeable hmergeable] at h
        obtain ⟨mergers, hmergers, hmerged, hreport, hstore, hnew⟩ := ih hs hgroups.of_cons h
        refine ⟨mergers, ?_, hmerged, ?_, ?_, hnew⟩
        · rw [List.filter_cons, hmergeable]
          exact hmergers
        · rw [hreport]
          simp [reported, hmergeable, Nat.add_assoc, Nat.add_comm 1]
        · rw [replacements_cons_of_not_mergeable hmergeable]
          exact hstore

/-- A pass that was not stopped merges the groups that can be merged, and skips the others. -/
theorem mergeAll_spec {groups : List (List Memory)} (hs : s.Sound)
    (hgroups : Separate now owner s groups) {deadline : Deadline}
    {report report' : ConsolidationReport} {s' : Store}
    (h : e.mergeAll now owner groups deadline (report, s) = (report', s'))
    (hgoes : report'.aborted = false) :
    ∃ mergers, mergers.map (·.group) = groups.filter (e.mergeable owner) ∧
      Merged now owner mergers s s' ∧
      report' = reported report mergers
        (groups.countP fun group => !e.mergeable owner group) := by
  obtain ⟨mergers, hmergers, hmerged, hreport, -⟩ := mergeAll_eq hs hgroups h hgoes
  exact ⟨mergers, hmergers, hmerged, hreport⟩

/-- The groups found among active memories share no members. -/
theorem separate_components {c : ConsolidationConfig} {memories : List Memory}
    {groups : List (List Memory)} (hactive : ∀ m ∈ memories, m ∈ s.activeAt now owner)
    (hascending : ById memories) (hgroups : AreComponents c memories groups) :
    Separate now owner s groups := by
  refine ⟨fun group hgroup => ⟨fun m hm => ?_, ?_⟩, fun group => hgroups.nonempty, ?_⟩
  · exact hactive m ((hgroups.sublist group hgroup).subset hm)
  · exact hascending.sublist ((hgroups.sublist group hgroup).map _)
  · refine hgroups.disjoint.imp_of_mem fun {g g'} hg hg' hdisjoint m hm m' hm' hid => ?_
    have hsame : m = m' := hascending.inj ((hgroups.sublist g hg).subset hm)
      ((hgroups.sublist g' hg').subset hm') hid
    exact hdisjoint m hm (hsame ▸ hm')

/-- The groups found among the first active memories are their components, and can be merged one
after another. -/
theorem separate_findGroups (hs : s.Sound) {c : ConsolidationConfig} {memories : List Memory}
    (hread : memories.Sublist (s.activeAt now owner)) :
    AreComponents c memories (c.findGroups memories) ∧
      Separate now owner s (c.findGroups memories) := by
  have hascending : ById memories := (ById.activeAt hs now owner).sublist (hread.map _)
  have hcomponents := ConsolidationConfig.areComponents_findGroups (c := c) hascending
  exact ⟨hcomponents, separate_components (fun m hm => hread.subset hm) hascending hcomponents⟩

/-- A checked configuration reads pages of at least one memory. -/
theorem pageSize_pos_of_ofConfig {c : Config} (h : ofConfig c = .ok e) :
    e.config = c ∧ 0 < c.consolidation.pageSize := by
  obtain ⟨hchecked, rfl⟩ := ofConfig_eq_ok.mp h
  exact ⟨rfl, hchecked.consolidationSizes.1⟩

end Engine

namespace World

/-- The whole pass: a pass that was not stopped merges the connected components of the active
memories that it reads, but for those whose request is refused, and changes nothing else. -/
theorem consolidation_merges_components {p : Engine → Prop} {w : World} (hw : w.Reached p)
    {c : Config} {e : Engine} (he : Engine.ofConfig c = .ok e)
    (hsize : c.consolidation.pageSize < 2 ^ 64) {owner : String}
    (howner : Text.blank owner = false) {now : Instant} {deadline : Deadline}
    {report : ConsolidationReport} {s' : Store}
    (h : e.consolidateBy now owner deadline w.store = .ok (report, s'))
    (hgoes : report.aborted = false) :
    ∃ groups mergers,
      AreComponents c.consolidation
        ((w.store.activeAt now owner).take c.consolidation.maxMemoriesPerPass) groups ∧
      mergers.map (·.group) = groups.filter (e.mergeable owner) ∧
      Merged now owner mergers w.store s' ∧
      (∀ g ∈ mergers, (s'.relationships.filter fun q => q.source = g.result.id).map (·.ends) =
        g.ids.map (supersedes g.result.id)) ∧
      report.groupsFound = groups.length ∧ report.groupsMerged = mergers.length ∧
      report.groupsFound = report.groupsMerged + report.skippedGroups ∧
      report.memoriesArchived = (mergers.map (·.group.length)).sum ∧
      report.mergedIds = mergers.map (·.result.id) := by
  have hs := hw.sound
  obtain ⟨rfl, hpos⟩ := Engine.pageSize_pos_of_ofConfig he
  obtain ⟨read, hread, h⟩ := bind_eq_ok.mp h
  dsimp only at h
  split at h
  · cases h
    cases hgoes
  · next hread' =>
    have hmemories := Engine.loadActive_eq hs howner hpos hsize hread (by simpa using hread')
    rw [hmemories] at h
    generalize hL : (w.store.activeAt now owner).take
      e.config.consolidation.maxMemoriesPerPass = memories at h
    have hascending : ById memories := by
      rw [← hL]
      exact (ById.activeAt hs now owner).sublist ((List.take_sublist _ _).map _)
    have hcomponents := ConsolidationConfig.areComponents_findGroups
      (c := e.config.consolidation) hascending
    have hactive : ∀ m ∈ memories, m ∈ w.store.activeAt now owner := by
      rw [← hL]
      exact fun m hm => List.mem_of_mem_take hm
    obtain ⟨mergers, hmergers, hmerged, hreport⟩ := Engine.mergeAll_spec hs
      (Engine.separate_components hactive hascending hcomponents) (Except.ok.inj h) hgoes
    generalize e.config.consolidation.findGroups memories = groups at hcomponents hmergers hreport
    have hcount : groups.length =
        mergers.length + groups.countP fun group => !e.mergeable owner group := by
      have hlength := congrArg List.length hmergers
      rw [List.length_map, ← List.countP_eq_length_filter] at hlength
      rw [hlength, List.length_eq_countP_add_countP (e.mergeable owner)]
      simp
    refine ⟨groups, mergers, hcomponents, hmergers, hmerged,
      fun g hg => hmerged.edges_from hs hg, ?_⟩
    rw [hreport]
    simp [Engine.reported, hcount]

/-- A world with two memories that are alike. -/
def withTwoTeas : World := Engine.oneTag.perform (.create (tea 5)) (withTea ⟨0⟩ 5)

theorem reached_withTwoTeas : withTwoTeas.Reached (· = .oneTag) := by
  obtain ⟨clock, hrun⟩ := reached_withTea ⟨0⟩ 5
  exact ⟨clock, hrun.tail ⟨.oneTag, _, rfl, rfl⟩⟩

/-- Both memories are read in one page. -/
theorem loadActive_withTwoTeas : Engine.oneTag.loadActive ⟨0⟩ "ann" .never withTwoTeas.store =
    .ok ⟨withTwoTeas.store.activeAt ⟨0⟩ "ann", .never, false⟩ := by
  have hpage : Engine.activePage ⟨0⟩ "ann" 200 none withTwoTeas.store =
      .ok (withTwoTeas.store.activeAt ⟨0⟩ "ann") := by
    rw [Engine.activePage_eq reached_withTwoTeas.sound (by decide) (by decide) none,
      past_none]
    exact congrArg _ (List.take_of_length_le (by decide))
  have hpages : Engine.oneTag.loadActive ⟨0⟩ "ann" .never withTwoTeas.store = (do
      let page ← Engine.activePage ⟨0⟩ "ann" 200 none withTwoTeas.store
      if page.length = 200 then
        Engine.loadPages {} ⟨0⟩ "ann" withTwoTeas.store 3 .never (page.getLast?.map (·.id)) page
      else .ok ⟨page, .never, false⟩) := rfl
  have hshort : (withTwoTeas.store.activeAt ⟨0⟩ "ann").length ≠ 200 := by decide
  rw [hpages, hpage]
  simp only [Bind.bind, Except.bind]
  rw [if_neg hshort]

theorem consolidateBy_withTwoTeas : ∃ s',
    Engine.oneTag.consolidateBy ⟨0⟩ "ann" .never withTwoTeas.store = .ok
      ({ groupsFound := 1, groupsMerged := 1, memoriesArchived := 2, mergedIds := [3] }, s') := by
  obtain ⟨groups, hgroups⟩ : ∃ groups, Engine.oneTag.config.consolidation.findGroups
      (withTwoTeas.store.activeAt ⟨0⟩ "ann") = groups := ⟨_, rfl⟩
  have hfound : groups.length = 1 := by
    rw [← hgroups]
    decide +kernel
  have hreport : (Engine.oneTag.mergeAll ⟨0⟩ "ann" groups .never
      ({ groupsFound := 1 }, withTwoTeas.store)).1 =
        { groupsFound := 1, groupsMerged := 1, memoriesArchived := 2, mergedIds := [3] } := by
    rw [← hgroups]
    decide +kernel
  have hrun : Engine.oneTag.consolidateBy ⟨0⟩ "ann" .never withTwoTeas.store =
      .ok (Engine.oneTag.mergeAll ⟨0⟩ "ann" groups .never
        ({ groupsFound := groups.length }, withTwoTeas.store)) := by
    rw [Engine.consolidateBy, loadActive_withTwoTeas, ← hgroups]
    rfl
  rw [hfound] at hrun
  exact ⟨_, hrun.trans (congrArg Except.ok (Prod.ext hreport rfl))⟩

theorem consolidation_merges_components_teas : ∃ s' mergers,
    Engine.oneTag.consolidateBy ⟨0⟩ "ann" .never withTwoTeas.store = .ok
      ({ groupsFound := 1, groupsMerged := 1, memoriesArchived := 2, mergedIds := [3] }, s') ∧
    Merged ⟨0⟩ "ann" mergers withTwoTeas.store s' ∧ mergers.map (·.result.id) = [3] := by
  obtain ⟨s', hrun⟩ := consolidateBy_withTwoTeas
  obtain ⟨groups, mergers, -, -, hmerged, -, -, -, -, -, hids⟩ :=
    consolidation_merges_components reached_withTwoTeas Engine.ofConfig_oneTag (by decide)
      (by decide) hrun rfl
  exact ⟨s', mergers, hrun, hmerged, hids.symm⟩

end World

end LongTermMemory
