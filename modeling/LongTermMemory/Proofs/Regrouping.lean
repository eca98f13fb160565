import LongTermMemory.Proofs.Groups
import LongTermMemory.Proofs.StaleGroup

/-!
Whether a group that was read earlier is still one when it is merged. A merge asks only whether its
members are still active: it joins all of them, as they are now, and does not compare them again. So
what it joins is a component of similar memories wherever the members kept what they were compared
by and the chains between them, and need not be one elsewhere.
-/

namespace LongTermMemory

open Relation (ReflTransGen)

/-- Memories of one component: a chain of similar ones among them leads from each to each. -/
def Joined (c : ConsolidationConfig) (ms : List Memory) : Prop :=
  ∀ a ∈ ms, ∀ b ∈ ms, Linked c ms a b

section

variable {c : ConsolidationConfig} {ms ms' : List Memory} {a b : Memory}

/-- A chain stays in any list that has all that is linked to its beginning. -/
theorem Linked.within {group : List Memory} (hgroup : ∀ x, Linked c ms a x → x ∈ group)
    (h : Linked c ms a b) : Linked c group a b := by
  induction h with
  | refl => exact .refl
  | tail hchain hstep ih => exact ih.tail ⟨hgroup _ hchain, hgroup _ (hchain.tail hstep), hstep.2.2⟩

/-- Each chain is found again among memories with the same features. -/
theorem Linked.of_features (hfeatures : ms.map Memory.features = ms'.map Memory.features)
    (h : Linked c ms a b) {a' : Memory} (ha' : a' ∈ ms') (haa : a'.features = a.features) :
    ∃ b', (b ∈ ms → b' ∈ ms') ∧ b'.features = b.features ∧ Linked c ms' a' b' := by
  induction h with
  | refl => exact ⟨a', fun _ => ha', haa, .refl⟩
  | @tail x y _ hstep ih =>
    obtain ⟨hx, hy, hsimilar⟩ := hstep
    obtain ⟨x', hx', hxx, hchain⟩ := ih
    obtain ⟨y', hy', hyy⟩ := List.mem_map.mp (hfeatures ▸ List.mem_map_of_mem hy)
    refine ⟨y', fun _ => hy', hyy, hchain.tail ⟨hx' hx, hy', ?_⟩⟩
    unfold Memory.similar
    rw [hxx, hyy]
    exact hsimilar

theorem ids_of_features (h : ms.map Memory.features = ms'.map Memory.features) :
    ms.map (·.id) = ms'.map (·.id) := by
  have hids := congrArg (List.map Features.id) h
  rwa [List.map_map, List.map_map] at hids

namespace Joined

theorem of_features (hnodup : (ms'.map (·.id)).Nodup)
    (hfeatures : ms.map Memory.features = ms'.map Memory.features) (h : Joined c ms) :
    Joined c ms' := by
  intro a' ha' b' hb'
  obtain ⟨a, ha, haa⟩ := List.mem_map.mp (hfeatures.symm ▸ List.mem_map_of_mem ha')
  obtain ⟨b, hb, hbb⟩ := List.mem_map.mp (hfeatures.symm ▸ List.mem_map_of_mem hb')
  obtain ⟨d, hd, hdb, hchain⟩ := (h a ha b hb).of_features hfeatures ha' haa.symm
  have hid : d.id = b'.id := congrArg Features.id (hdb.trans hbb)
  rwa [List.inj_on_of_nodup_map hnodup (hd hb) hb' hid] at hchain

/-- Only the features of memories matter. -/
theorem congr_features (hnodup : (ms.map (·.id)).Nodup)
    (hfeatures : ms.map Memory.features = ms'.map Memory.features) :
    Joined c ms ↔ Joined c ms' :=
  ⟨of_features (ids_of_features hfeatures ▸ hnodup) hfeatures, of_features hnodup hfeatures.symm⟩

end Joined

namespace ConsolidationConfig

/-- Each group stands by ascending id and is joined by its own members. -/
theorem joined_of_mem_findGroups (h : (ms.map (·.id)).Nodup) {group : List Memory}
    (hgroup : group ∈ c.findGroups ms) : ById group ∧ 1 < group.length ∧ Joined c group := by
  obtain ⟨sorted, hbyId, hperm⟩ := exists_byId h
  rw [← findGroups_perm h hperm] at hgroup
  have hgroups := areComponents_findGroups (c := c) hbyId
  refine ⟨hbyId.sublist ((hgroups.sublist group hgroup).map _), hgroups.several group hgroup,
    fun a ha b hb => ?_⟩
  have hlinked := hgroups.linked group hgroup a ha
  exact Linked.within (fun x => (hlinked x).mpr) ((hlinked b).mp hb)

/-- A list is its own only group where the groups have just its ids. -/
theorem findGroups_eq_singleton_of_ids (h : ById ms)
    (hids : (c.findGroups ms).map (·.map (·.id)) = [ms.map (·.id)]) : c.findGroups ms = [ms] := by
  obtain ⟨group, hgroups, heq⟩ := List.map_eq_singleton_iff.mp hids
  have hsublist := (areComponents_findGroups (c := c) h).sublist group (by simp [hgroups])
  have hlength := congrArg List.length heq
  rw [List.length_map, List.length_map] at hlength
  rw [hgroups, hsublist.eq_of_length hlength]

/-- Several memories are joined just when they are grouped as one group. -/
theorem findGroups_eq_singleton_iff (h : ById ms) (hseveral : 1 < ms.length) :
    c.findGroups ms = [ms] ↔ Joined c ms := by
  have hgroups := areComponents_findGroups (c := c) h
  constructor
  · intro heq a ha b hb
    exact (hgroups.linked ms (by simp [heq]) a ha b).mp hb
  · intro hjoined
    have hwhole : ∀ group ∈ c.findGroups ms, group = ms := by
      intro group hgroup
      obtain ⟨a, ha⟩ := List.exists_mem_of_ne_nil group (hgroups.nonempty hgroup)
      have hsublist := hgroups.sublist group hgroup
      have hall : ms ⊆ group := fun b hb =>
        (hgroups.linked group hgroup a ha b).mpr (hjoined a (hsublist.subset ha) b hb)
      have hnodup : ms.Nodup := List.Nodup.of_map _ h.nodup_ids
      exact hsublist.eq_of_length_le (hnodup.subperm hall).length_le
    obtain ⟨group, hgroup⟩ : ∃ group, group ∈ c.findGroups ms := by
      match ms, h, hseveral with
      | a :: b :: rest, h, _ =>
        have hless := (List.pairwise_cons.mp (ById.iff_pairwise.mp h)).1 b (by simp)
        have hne : a ≠ b := fun heq => Int.lt_irrefl _ (heq ▸ hless)
        obtain ⟨group, hgroup, -⟩ := hgroups.complete a (by simp) b
          (hjoined a (by simp) b (by simp)) hne
        exact ⟨group, hgroup⟩
    -- groups share no member, so that there is no second one
    match hfound : c.findGroups ms with
    | [] => simp [hfound] at hgroup
    | [only] => rw [hwhole only (by simp [hfound])]
    | first :: second :: rest =>
      have hdisjoint := hgroups.disjoint
      rw [hfound, List.pairwise_cons] at hdisjoint
      obtain ⟨a, ha⟩ := List.exists_mem_of_ne_nil first (hgroups.nonempty (by simp [hfound]))
      refine absurd ?_ (hdisjoint.1 second (by simp) a ha)
      rw [hwhole second (by simp [hfound]), ← hwhole first (by simp [hfound])]
      exact ha

end ConsolidationConfig

end

/-! ## What is left of a group -/

namespace Store

/-- A memory of the id is kept and active. -/
def holdsActive (s : Store) (id : MemoryId) : Bool := (s.kept? id).any fun k => !k.archived

/-- The members of a group that are still active have the tags and the content with which they were
read. -/
def KeepsFeatures (s : Store) (group : List Memory) : Prop :=
  ∀ g ∈ group, ∀ k, s.kept? g.id = some k → k.archived = false →
    k.tags = g.tags ∧ k.content = g.content

variable {s : Store} {group : List Memory}

theorem features_stillActive (h : s.KeepsFeatures group) (now : Instant) :
    (s.stillActive now group).map Memory.features =
      (group.filter fun g => s.holdsActive g.id).map Memory.features := by
  induction group with
  | nil => rfl
  | cons g rest ih =>
    have ih := ih fun n hn => h n (List.mem_cons_of_mem g hn)
    cases hk : (s.kept? g.id).filter fun k => !k.archived with
    | none =>
      have hgone : s.holdsActive g.id = false := by
        cases hkept : s.kept? g.id <;> simp_all [holdsActive, Option.filter]
      rw [List.filter_cons_of_neg (by simp [hgone])]
      simpa [stillActive, hk] using ih
    | some k =>
      obtain ⟨hkept, hactive⟩ := Option.filter_eq_some_iff.mp hk
      have hactive : k.archived = false := by simpa using hactive
      obtain ⟨htags, hcontent⟩ := h g List.mem_cons_self k hkept hactive
      have hholds : s.holdsActive g.id = true := by simp [holdsActive, hkept, hactive]
      have hfeatures : (k.readAt now).features = g.features := by
        have hid := (mem_of_kept? hkept).2
        simp [Memory.features, Memory.tagSet, Memory.tokenSet, Memory.readAt, hid, htags, hcontent]
      rw [stillActive_cons now hkept hactive, List.filter_cons, if_pos hholds, List.map_cons,
        List.map_cons, hfeatures, ih]

end Store

/-! ## A merge that is made -/

namespace Engine

variable {e : Engine} {now : Instant} {owner : String} {group : List Memory} {s s' : Store}
  {m : Memory}

theorem mergeWithRetry_eq_some (h : e.mergeWithRetry now owner group s = (some m, s')) :
    e.merge now owner group s = .ok (m, s') ∨
      2 ≤ (reload now owner group s).length ∧
        e.merge now owner (reload now owner group s) s = .ok (m, s') := by
  unfold mergeWithRetry at h
  split at h
  · next m₁ s₁ hmerge =>
    cases h
    exact Or.inl hmerge
  · split at h
    · cases h
    · dsimp only at h
      split at h
      · cases h
      · next hmany =>
        split at h
        · next m₁ s₁ hmerge =>
          cases h
          exact Or.inr ⟨Nat.not_lt.mp hmany, hmerge⟩
        · cases h

theorem mergeable_of_merge (h : e.merge now owner group s = .ok (m, s')) :
    e.mergeable owner group = true := by
  by_contra hnot
  obtain ⟨err, herr, -⟩ := merge_of_not_mergeable (Bool.eq_false_iff.mpr hnot) now s
  rw [h] at herr
  cases herr

end Engine

namespace World

variable {p : Engine → Prop} {w : World} {owner : String} {group : List Memory}

/-- What a merge of a group that was read joins are the members that are still active. -/
theorem replaces_of_mergeWithRetry (hp : ∀ e, p e → ∃ c, Engine.ofConfig c = .ok e)
    (hw : w.Reached p) (hread : ∀ m ∈ group, w.WasRead p owner m)
    (hnodup : (group.map (·.id)).Nodup) (hseveral : 2 ≤ group.length) {e : Engine} {now : Instant}
    {m : Memory} {s' : Store} (h : e.mergeWithRetry now owner group w.store = (some m, s')) :
    2 ≤ (w.store.stillActive now group).length ∧
      w.store.Replaces now
        (e.config.consolidation.mergedRequest owner (w.store.stillActive now group))
        (w.store.stillActive now group) m s' := by
  rcases Engine.mergeWithRetry_eq_some h with hmerge | ⟨hmany, hmerge⟩
  · have hmergeable := Engine.mergeable_of_merge hmerge
    have hcurrent : ∀ g ∈ group, w.store.Current g := by
      by_contra hnot
      push Not at hnot
      obtain ⟨r, hprepare⟩ := Engine.exists_prepared hmergeable
      obtain ⟨id, hconflict⟩ := Engine.merge_of_not_current hw.sound now
        (fun g hg => (hread g hg).id_le) hnodup hprepare hnot
      rw [hmerge] at hconflict
      cases hconflict
    obtain ⟨m₁, s₁, hmerge₁, hreplaces⟩ := merge_of_unedited hp hw hread hnodup
      (List.ne_nil_of_length_pos (by omega)) hcurrent hmergeable now
    rw [hmerge] at hmerge₁
    cases hmerge₁
    have hlength := congrArg List.length (gists_stillActive hread hcurrent now)
    rw [List.length_map, List.length_map] at hlength
    exact ⟨by omega, hreplaces⟩
  · rw [Engine.reload_eq now fun g hg k hk => ((hread g hg).kept? hk).1] at hmany hmerge
    obtain ⟨m₁, s₁, hmerge₁, hreplaces⟩ := merge_stillActive hp hw hread hnodup
      (List.ne_nil_of_length_pos (by omega)) (Engine.mergeable_of_merge hmerge)
    rw [hmerge] at hmerge₁
    cases hmerge₁
    exact ⟨hmany, hreplaces⟩

/-- Members that are current keep their features, and none is gone. -/
theorem keepsFeatures_of_current (hread : ∀ m ∈ group, w.WasRead p owner m)
    (hcurrent : ∀ m ∈ group, w.store.Current m) :
    w.store.KeepsFeatures group ∧ (group.filter fun g => w.store.holdsActive g.id) = group := by
  refine ⟨fun g hg k hk _ => ?_, List.filter_eq_self.mpr fun g hg => ?_⟩
  · obtain ⟨k₁, hk₁, hversion, -⟩ := hcurrent g hg
    rw [hk] at hk₁
    cases hk₁
    have hgist := ((hread g hg).kept? hk).2 hversion
    show k.gist.tags = g.gist.tags ∧ k.gist.content = g.gist.content
    rw [hgist]
    exact ⟨rfl, rfl⟩
  · obtain ⟨k, hk, -, hactive⟩ := hcurrent g hg
    simp [Store.holdsActive, hk, hactive]

/-- A group of memories that were read earlier is merged as what is left of it, whether that is
still one component or not. It is, where no member changed. Where the members left have the tags
and the contents with which they were read, it is just when those were joined without the others.
In any case it is just when grouping what is merged gives one group again. -/
theorem stale_merge_joins_whats_left (hp : ∀ e, p e → ∃ c, Engine.ofConfig c = .ok e)
    {read : List Memory} (hread : ∀ m ∈ read, w.WasRead p owner m)
    (hnodup : (read.map (·.id)).Nodup) {e : Engine}
    (hgroup : group ∈ e.config.consolidation.findGroups read) {now : Instant} {m : Memory}
    {s' : Store} (h : e.mergeWithRetry now owner group w.store = (some m, s')) :
    2 ≤ (w.store.stillActive now group).length ∧
    w.store.Replaces now
      (e.config.consolidation.mergedRequest owner (w.store.stillActive now group))
      (w.store.stillActive now group) m s' ∧
    ((∀ g ∈ group, w.store.Current g) →
      Joined e.config.consolidation (w.store.stillActive now group)) ∧
    (w.store.KeepsFeatures group →
      (Joined e.config.consolidation (w.store.stillActive now group) ↔
        Joined e.config.consolidation (group.filter fun g => w.store.holdsActive g.id))) ∧
    (Joined e.config.consolidation (w.store.stillActive now group) ↔
      e.config.consolidation.findGroups (w.store.stillActive now group) =
        [w.store.stillActive now group]) := by
  obtain ⟨hbyId, hseveral, hjoined⟩ :=
    ConsolidationConfig.joined_of_mem_findGroups hnodup hgroup
  have hread : ∀ g ∈ group, w.WasRead p owner g := fun g hg =>
    hread g (Engine.mem_of_mem_findGroups hgroup hg)
  obtain ⟨first, hfirst⟩ : ∃ g, g ∈ group :=
    List.exists_mem_of_ne_nil group (List.ne_nil_of_length_pos (by omega))
  have hleft := Store.ids_stillActive_sublist w.store now group
  obtain ⟨hmany, hreplaces⟩ := replaces_of_mergeWithRetry hp (hread first hfirst).reached hread
    hbyId.nodup_ids hseveral h
  have hkept (hkeeps : w.store.KeepsFeatures group) :=
    Joined.congr_features (c := e.config.consolidation) (hbyId.nodup_ids.sublist hleft)
      (Store.features_stillActive hkeeps now)
  refine ⟨hmany, hreplaces, fun hcurrent => ?_, hkept, ?_⟩
  · obtain ⟨hkeeps, hall⟩ := keepsFeatures_of_current hread hcurrent
    refine (hkept hkeeps).mpr ?_
    rwa [hall]
  · exact (ConsolidationConfig.findGroups_eq_singleton_iff (hbyId.sublist hleft) hmany).symm

theorem findGroups_withThreeTeas :
    Engine.oneTag.config.consolidation.findGroups (withThreeTeas.store.activeAt ⟨0⟩ "ann") =
      [withThreeTeas.store.activeAt ⟨0⟩ "ann"] :=
  ConsolidationConfig.findGroups_eq_singleton_of_ids
    (ById.activeAt reached_withThreeTeas.sound ⟨0⟩ "ann") (by decide +kernel)

theorem stale_merge_joins_whats_left_teas : ∃ m s',
    Engine.oneTag.mergeWithRetry ⟨0⟩ "ann" (withThreeTeas.store.activeAt ⟨0⟩ "ann")
      withChangedTeas.store = (some m, s') ∧
    m.related = [1, 3] ∧
    Joined Engine.oneTag.config.consolidation
      (withChangedTeas.store.stillActive ⟨0⟩ (withThreeTeas.store.activeAt ⟨0⟩ "ann")) := by
  have hbyId := ById.activeAt reached_withThreeTeas.sound ⟨0⟩ "ann"
  have hp : ∀ e, e = Engine.oneTag → ∃ c, Engine.ofConfig c = .ok e :=
    fun e he => ⟨.oneTag, he ▸ Engine.ofConfig_oneTag⟩
  have hmerged : (Engine.oneTag.mergeWithRetry ⟨0⟩ "ann" (withThreeTeas.store.activeAt ⟨0⟩ "ann")
      withChangedTeas.store).1.map (·.related) = some [1, 3] := by decide +kernel
  obtain ⟨m, hm, hrelated⟩ := Option.map_eq_some_iff.mp hmerged
  obtain ⟨-, -, -, -, hregrouped⟩ := stale_merge_joins_whats_left hp wasRead_threeTeas
    hbyId.nodup_ids (findGroups_withThreeTeas ▸ List.mem_singleton_self _) (Prod.ext hm rfl)
  refine ⟨m, _, Prod.ext hm rfl, hrelated, hregrouped.mpr ?_⟩
  refine ConsolidationConfig.findGroups_eq_singleton_of_ids ?_ (by decide +kernel)
  exact hbyId.sublist (Store.ids_stillActive_sublist _ _ _)

/-! ## Members that are no longer alike -/

/-- The engine of the runs that change what a memory is about. -/
def twoTags : Config := { vocabulary := ["food", "health"] }

def lunch : NewMemory := { tea 5 with content := "lunch at noon" }

/-- Two memories that are alike by their tag. -/
def withLunch : World :=
  [.create (tea 5), .create lunch].foldl
    (fun w op => (Engine.ofUnchecked twoTags).perform op w) (start ⟨0⟩)

/-- The second is about something else since. -/
def withGym : World :=
  (Engine.ofUnchecked twoTags).perform
    (.update 2 { content := some "gym at nine", tags := some ["health"] }) withLunch

theorem reached_withLunch : withLunch.Reached (· = .ofUnchecked twoTags) :=
  ⟨⟨0⟩, runs_foldl (p := (· = .ofUnchecked twoTags)) rfl _ _⟩

/-- A member that has nothing in common with the others any more is merged with them. -/
theorem unlike_member_merged : ∃ (e : Engine) (group : List Memory) (m : Memory) (s' : Store),
    Engine.ofConfig twoTags = .ok e ∧ withLunch.Reached (· = e) ∧ Runs (· = e) withLunch withGym ∧
    group ∈ e.config.consolidation.findGroups (withLunch.store.activeAt ⟨0⟩ "ann") ∧
    e.mergeWithRetry ⟨0⟩ "ann" group withGym.store = (some m, s') ∧ m.related = [1, 2] ∧
    (withGym.store.stillActive ⟨0⟩ group).map (·.id) = [1, 2] ∧
    ¬ Joined e.config.consolidation (withGym.store.stillActive ⟨0⟩ group) := by
  have hbyId := ById.activeAt reached_withLunch.sound ⟨0⟩ "ann"
  have hgroups : (Engine.ofUnchecked twoTags).config.consolidation.findGroups
      (withLunch.store.activeAt ⟨0⟩ "ann") = [withLunch.store.activeAt ⟨0⟩ "ann"] :=
    ConsolidationConfig.findGroups_eq_singleton_of_ids hbyId (by decide +kernel)
  have hmerged : ((Engine.ofUnchecked twoTags).mergeWithRetry ⟨0⟩ "ann"
      (withLunch.store.activeAt ⟨0⟩ "ann") withGym.store).1.map (·.related) = some [1, 2] := by
    decide +kernel
  obtain ⟨m, hm, hrelated⟩ := Option.map_eq_some_iff.mp hmerged
  refine ⟨_, _, m, _, rfl, reached_withLunch, .single ⟨_, _, rfl, rfl⟩,
    hgroups ▸ List.mem_singleton_self _, Prod.ext hm rfl, hrelated, by decide,
    fun hjoined => ?_⟩
  have hregrouped := (ConsolidationConfig.findGroups_eq_singleton_iff
    (hbyId.sublist (Store.ids_stillActive_sublist withGym.store ⟨0⟩ _)) (by decide)).mpr
      hjoined
  have hnone : ((Engine.ofUnchecked twoTags).config.consolidation.findGroups
      (withGym.store.stillActive ⟨0⟩ (withLunch.store.activeAt ⟨0⟩ "ann"))).length = 0 := by
    decide +kernel
  rw [hregrouped] at hnone
  cases hnone

end World

end LongTermMemory
