import LongTermMemory.Proofs.ContextBlock.Truncation
import LongTermMemory.Proofs.Retrieval

/-!
The whole block: which sections it has, in which order they stand, and what each of them shows, told
by the ranking of the memories and not by the pass that fills them.
-/

namespace LongTermMemory.ContextBlock

/-- Sections of memories by relevance, each a display group with the memories shown of it. -/
structure IsLayout (c : ContextConfig) (ranking : List (Memory × Score))
    (layout : List (DisplayGroup × List Memory)) : Prop where
  /-- No two sections have one heading. -/
  headings : (layout.map fun s => s.1.heading).Nodup
  /-- A section comes before another when some member of its group ranks before all of the other. -/
  ordered : layout.Pairwise fun s t => ∃ x ∈ ranking, DisplayGroup.ofMemory x.1 = s.1 ∧
    ∀ y ∈ ranking, DisplayGroup.ofMemory y.1 = t.1 → rankKey y < rankKey x
  groups : ∀ g, g ∈ layout.map (·.1) ↔
    0 < cap c g ∧ ∃ x ∈ ranking, DisplayGroup.ofMemory x.1 = g ∧ Text.blank x.1.content = false
  first : ∀ s ∈ layout, s.2 = ((ranking.map (·.1)).filter fun m =>
    DisplayGroup.ofMemory m = s.1 && !Text.blank m.content).take (cap c s.1)
  /-- No memory is shown twice, in one section or in two. -/
  distinct : ((layout.flatMap (·.2)).map (·.id)).Nodup

/-- The text of sections of memories: headings and joined contents, with blank lines between. -/
def layoutText (layout : List (DisplayGroup × List Memory)) : String :=
  "\n\n".intercalate <| layout.map fun s =>
    "**" ++ s.1.heading ++ ":** " ++ "; ".intercalate (s.2.map fun m => Text.trim m.content)

/-- The sections of the groups of which something is shown. -/
def layoutOf (c : ContextConfig) (ranked : List Memory) : List (DisplayGroup × List Memory) :=
  ((ranked.map DisplayGroup.ofMemory).eraseDups.filter fun g => !(shown c ranked g).isEmpty).map
    fun g => (g, shown c ranked g)

variable {c : ContextConfig} {ranked : List Memory} {g : DisplayGroup}

theorem heading_injective : Function.Injective DisplayGroup.heading := by
  have hall : ∀ g ∈ [DisplayGroup.toolPreference, .communicationStyle] ++ MemoryType.all.map .type,
      ∀ g' ∈ [DisplayGroup.toolPreference, .communicationStyle] ++ MemoryType.all.map .type,
        g.heading = g'.heading → g = g' := by decide
  have hmem (g : DisplayGroup) :
      g ∈ [DisplayGroup.toolPreference, .communicationStyle] ++ MemoryType.all.map .type := by
    cases g with
    | toolPreference => simp
    | communicationStyle => simp
    | type t => exact List.mem_append_right _ (List.mem_map_of_mem t.mem_all)
  exact fun g g' h => hall g (hmem g) g' (hmem g') h

theorem shown_ne_nil_iff : shown c ranked g ≠ [] ↔
    0 < cap c g ∧ ∃ m ∈ ranked, DisplayGroup.ofMemory m = g ∧ Text.blank m.content = false := by
  simp [shown, List.take_eq_nil_iff, List.filter_eq_nil_iff, Nat.pos_iff_ne_zero]

theorem groups_layoutOf (c : ContextConfig) (ranked : List Memory) : (layoutOf c ranked).map (·.1) =
    (ranked.map DisplayGroup.ofMemory).eraseDups.filter fun g => !(shown c ranked g).isEmpty := by
  rw [layoutOf, List.map_map]
  exact List.map_id _

theorem mem_groups_layoutOf : g ∈ (layoutOf c ranked).map (·.1) ↔ shown c ranked g ≠ [] := by
  rw [groups_layoutOf, List.mem_filter, List.mem_eraseDups]
  constructor
  · rintro ⟨-, hsome⟩
    simpa using hsome
  · intro hsome
    obtain ⟨-, m, hm, rfl, -⟩ := shown_ne_nil_iff.mp hsome
    exact ⟨List.mem_map_of_mem hm, by simpa using hsome⟩

theorem nodup_groups_layoutOf (c : ContextConfig) (ranked : List Memory) :
    ((layoutOf c ranked).map (·.1)).Nodup := by
  rw [groups_layoutOf]
  exact (nodup_eraseDups _).filter _

/-- The members shown in different sections are of different groups. -/
theorem nodup_shown_layoutOf (hids : (ranked.map (·.id)).Nodup) :
    (((layoutOf c ranked).flatMap (·.2)).map (·.id)).Nodup := by
  have hshown : ∀ s ∈ layoutOf c ranked, s.2 = shown c ranked s.1 := by
    intro s hs
    obtain ⟨g, -, rfl⟩ := List.mem_map.mp hs
    rfl
  have hnodup : ((layoutOf c ranked).flatMap (·.2)).Nodup := by
    refine List.nodup_flatMap.mpr ⟨fun s hs => ?_, ?_⟩
    · rw [hshown s hs]
      exact hids.of_map.sublist ((List.take_sublist _ _).trans List.filter_sublist)
    · refine (List.pairwise_map.mp (nodup_groups_layoutOf c ranked)).imp_of_mem
        fun {s t} hs ht hne => ?_
      intro m hms hmt
      have hms : m ∈ shown c ranked s.1 := hshown s hs ▸ hms
      have hmt : m ∈ shown c ranked t.1 := hshown t ht ▸ hmt
      exact hne ((mem_shown hms).2.1.symm.trans (mem_shown hmt).2.1)
  refine hnodup.map_on fun m hm k hk hid => ?_
  have hin {m : Memory} (hm : m ∈ (layoutOf c ranked).flatMap (·.2)) : m ∈ ranked := by
    obtain ⟨s, hs, hms⟩ := List.mem_flatMap.mp hm
    rw [hshown s hs] at hms
    exact (mem_shown hms).1
  exact List.inj_on_of_nodup_map hids (hin hm) (hin hk) hid

theorem isLayout_layoutOf {ranking : List (Memory × Score)}
    (hordered : ranking.Pairwise fun a b => rankKey b < rankKey a)
    (hids : ((ranking.map (·.1)).map (·.id)).Nodup) :
    IsLayout c ranking (layoutOf c (ranking.map (·.1))) := by
  refine
    { headings := ?_
      ordered := ?_
      groups := fun g => ?_
      first := fun s hs => ?_
      distinct := nodup_shown_layoutOf hids }
  · have hheadings := (nodup_groups_layoutOf c (ranking.map (·.1))).map heading_injective
    rwa [List.map_map] at hheadings
  · have hgroups := pairwise_eraseDups_map (f := fun x => DisplayGroup.ofMemory x.1) hordered
    rw [layoutOf, List.pairwise_map, List.map_map]
    exact hgroups.filter _
  · rw [mem_groups_layoutOf, shown_ne_nil_iff]
    simp
  · obtain ⟨g, -, rfl⟩ := List.mem_map.mp hs
    rfl

/-- The pass over the memories gives the text of the layout. -/
theorem render_sections (c : ContextConfig) (ranked : List Memory) :
    render (sections c ranked) = (layoutText (layoutOf c ranked)).toList := by
  rw [render, sections_eq, layoutText, layoutOf, String.toList_intercalate, List.map_map,
    List.map_map, List.map_map]
  congr 1
  refine List.map_congr_left fun g _ => ?_
  simp [Section.text, Section.lead, contents]

/-- With room for all of it the text is that of a layout of the memories by relevance: a section for
each group with a cap and something to say, in the order of their best-ranked members, and in it the
first members that have something to say, up to the cap. -/
theorem format_lays_out (r : RetrievalConfig) (c : ContextConfig) (now : Instant)
    (memories : List Memory) (query : String) (hids : (memories.map (·.id)).Nodup) :
    ∃ ranking layout, r.IsRanking now query memories ranking ∧ IsLayout c ranking layout ∧
      ∀ budget, (layoutText layout).length ≤ budget →
        format r c now memories query budget = layoutText layout := by
  have hranking : r.IsRanking now query memories (r.rank now query memories) :=
    RetrievalConfig.isRanking_rank hids
  have hranked : (((r.rank now query memories).map (·.1)).map (·.id)).Nodup :=
    (hranking.perm.map (·.id)).nodup_iff.mpr hids
  refine ⟨_, _, hranking, isLayout_layoutOf hranking.ordered hranked, fun budget hbudget => ?_⟩
  have hfits := (format_truncates r c now memories query budget).whole
  rw [render_sections] at hfits
  exact String.toList_inj.mp (hfits hbudget)

/-- Two memories of different groups, of which the second is the more important. -/
def twoGroups : List Memory :=
  [Store.newMemory ⟨0⟩ 1 ["tool"]
      { owner := "ann", content := " Keeps a kettle ", type := some .preference, importance := 5 },
    Store.newMemory ⟨0⟩ 2 [] { owner := "ann", content := "Drinks tea", importance := 7 }]

theorem format_lays_out_twoGroups : (twoGroups.map (·.id)).Nodup ∧ ∃ ranking layout,
    ({} : RetrievalConfig).IsRanking ⟨0⟩ "" twoGroups ranking ∧ IsLayout {} ranking layout ∧
      layoutText layout = "**Insight:** Drinks tea\n\n**Tool Preferences:** Keeps a kettle" := by
  have hids : (twoGroups.map (·.id)).Nodup := by decide
  obtain ⟨ranking, layout, hranking, hlayout, htext⟩ := format_lays_out {} {} ⟨0⟩ twoGroups "" hids
  refine ⟨hids, ranking, layout, hranking, hlayout, ?_⟩
  have hrank : (({} : RetrievalConfig).rank ⟨0⟩ "" twoGroups).map (·.1) = twoGroups.reverse := by
    rw [RetrievalConfig.rank, twoGroups, List.map_cons, List.map_singleton, mergeSort_pair,
      if_neg (by decide)]
    rfl
  have hrender : (render (sections {} twoGroups.reverse)) =
      "**Insight:** Drinks tea\n\n**Tool Preferences:** Keeps a kettle".toList := by decide
  have hlong := htext (max 100 (layoutText layout).length) (Nat.le_max_right _ _)
  have hwhole := (format_truncates {} {} ⟨0⟩ twoGroups ""
    (max 100 (layoutText layout).length)).whole
  rw [hlong, hrank, hrender] at hwhole
  exact String.toList_inj.mp (hwhole (le_trans (by decide) (Nat.le_max_left _ _)))

end LongTermMemory.ContextBlock
