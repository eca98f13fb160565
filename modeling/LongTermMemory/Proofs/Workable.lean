import LongTermMemory.Proofs.Consolidation
import LongTermMemory.Proofs.Lifecycle

/-!
Settings that work: retrieval and the passes read with limits and windows that come from the
configuration. A limit is refused when the size it stands for comes out negative as an integer with
a sign, and a window when it is longer than any span of time. The check of configurations asks for
neither, and nothing else makes these operations fail.
-/

namespace LongTermMemory

/-- Failures that come from a limit or a window of the configuration. -/
inductive Error.OutOfRange : Error → Prop
  | limit {limit : Int} (h : limit < 0) : OutOfRange (.validation (.negativeLimit limit))
  | window {days : Int} (h : Instant.maxDays < days) : OutOfRange (.windowOutOfRange days)

/-- An operation gives a result just when `p` holds; otherwise a limit or a window is out of
range. -/
structure WorksWhen {α : Type} (p : Prop) (x : Except Error α) : Prop where
  works : p → ∃ a, x = .ok a
  fails : ¬p → ∃ err, x = .error err ∧ err.OutOfRange

namespace WorksWhen

variable {α β : Type} {p q : Prop} {x : Except Error α}

theorem ok (a : α) : WorksWhen True (.ok a) :=
  ⟨fun _ => ⟨a, rfl⟩, fun h => absurd trivial h⟩

theorem congr (h : WorksWhen p x) (hpq : p ↔ q) : WorksWhen q x := by
  rwa [← hpq]

/-- What an operation needs it had where it worked. -/
theorem holds (h : WorksWhen p x) {a : α} (hx : x = .ok a) : p := by
  by_contra hnot
  obtain ⟨err, herr, -⟩ := h.fails hnot
  cases herr.symm.trans hx

/-- A sequence works when each of its steps does. -/
theorem bind (h : WorksWhen p x) {f : α → Except Error β}
    (hf : p → ∀ a, x = .ok a → WorksWhen q (f a)) : WorksWhen (p ∧ q) (x >>= f) := by
  by_cases hp : p
  · obtain ⟨a, rfl⟩ := h.works hp
    have hnext : WorksWhen q (f a) := hf hp a rfl
    exact hnext.congr (by simp [hp])
  · obtain ⟨err, rfl, hrange⟩ := h.fails hp
    exact ⟨fun hpq => absurd hpq.1 hp, fun _ => ⟨err, rfl, hrange⟩⟩

end WorksWhen

namespace Engine

variable {now : Instant} {owner : String} {s : Store}

/-! ## Limits and windows -/

theorem worksWhen_checkLimit (limit : Int) :
    WorksWhen (0 ≤ limit) (Invalid.raise (Invalid.checkLimit limit)) := by
  by_cases h : 0 ≤ limit
  · have hcheck : Invalid.checkLimit limit = .ok () := Invalid.checkLimit_eq_ok.mpr h
    exact ⟨fun _ => ⟨(), by rw [hcheck]; rfl⟩, fun hn => absurd h hn⟩
  · have hcheck : Invalid.checkLimit limit = .error (.negativeLimit limit) := by
      simp [Invalid.checkLimit, Invalid.ensure, h]
    exact ⟨fun hn => absurd hn h, fun _ => ⟨_, by rw [hcheck]; rfl, .limit (by omega)⟩⟩

theorem worksWhen_checkOwner (howner : Text.blank owner = false) :
    WorksWhen True (Invalid.raise (Invalid.checkOwner owner)) := by
  rw [Invalid.raise_checkOwner howner]
  exact .ok ()

theorem worksWhen_list (howner : Text.blank owner = false) {c : Selection} {limit : Int}
    (hc : c.limit = some limit) : WorksWhen (0 ≤ limit) (list now owner c s) := by
  have hlimit : WorksWhen (0 ≤ limit)
      (Invalid.raise (Invalid.ifPresent Invalid.checkLimit c.limit)) := by
    rw [hc]
    exact worksWhen_checkLimit limit
  have hlist : WorksWhen (True ∧ 0 ≤ limit ∧ True) (list now owner c s) :=
    (worksWhen_checkOwner howner).bind fun _ _ _ => hlimit.bind fun _ _ _ => .ok _
  exact hlist.congr (by simp)

theorem worksWhen_activePage (howner : Text.blank owner = false) {size : Nat}
    (hsize : size < 2 ^ 64) (now : Instant) (after : Option MemoryId) (s : Store) :
    WorksWhen (size < 2 ^ 63) (activePage now owner size after s) :=
  (worksWhen_list howner rfl).congr (signedCount_nonneg_iff hsize)

theorem worksWhen_window {days : Int} (hpos : 0 < days) :
    WorksWhen (days ≤ Instant.maxDays) (window days) := by
  by_cases h : days ≤ Instant.maxDays
  · exact ⟨fun _ => ⟨_, window_of_le hpos h⟩, fun hn => absurd h hn⟩
  · have hnone : Instant.days? days = none := if_neg fun hrange => h hrange.2
    exact ⟨fun hn => absurd hn h, fun _ => ⟨_, by rw [window, hnone], .window (by omega)⟩⟩

/-! ## Retrieval -/

/-- Pages of a size that comes out negative are never read. -/
theorem walk_fails {α : Type} {size : Nat}
    {step : List Memory → α × Store → Except Error (α × Store)} {state : α × Store}
    (howner : Text.blank owner = false) (hsize : size < 2 ^ 64) (hlarge : ¬size < 2 ^ 63) :
    ∃ err, walk now owner size step .never state = .error err ∧ err.OutOfRange := by
  obtain ⟨err, herr, hrange⟩ := (worksWhen_activePage howner hsize now none state.2).fails hlarge
  refine ⟨err, ?_, hrange⟩
  unfold walk walkPages
  simp only [Deadline.check, herr]
  rfl

/-- A walk that looks back over a window fails for the window or for the size of its pages. -/
theorem worksWhen_windowed {α : Type} {days : Int} {size : Nat}
    {step : Int → List Memory → α × Store → Except Error (α × Store)} {state : α × Store}
    (howner : Text.blank owner = false) (hpos : 0 < days) (hsize : size < 2 ^ 64)
    (hworks : days ≤ Instant.maxDays → size < 2 ^ 63 →
      ∃ p, (window days >>= fun w => walk now owner size (step w) .never state) = .ok p) :
    WorksWhen (days ≤ Instant.maxDays ∧ size < 2 ^ 63)
      (window days >>= fun w => walk now owner size (step w) .never state) := by
  refine (worksWhen_window hpos).bind fun hdays w hw => ⟨fun hsmall => ?_, walk_fails howner hsize⟩
  obtain ⟨p, hp⟩ := hworks hdays hsmall
  obtain ⟨w', hw', hwalk⟩ := bind_eq_ok.mp hp
  obtain rfl : w = w' := Except.ok.inj (hw.symm.trans hw')
  exact ⟨p, hwalk⟩

variable (e : Engine)

theorem worksWhen_lifecycle (hs : s.Sound) (howner : Text.blank owner = false)
    (hpos : 0 < e.config.lifecycle.pageSize) (hsize : e.config.lifecycle.pageSize < 2 ^ 64)
    (haging : 0 < e.config.lifecycle.agingWindowDays)
    (harchive : 0 < e.config.lifecycle.archiveAgeDays) (now : Instant) :
    WorksWhen e.config.lifecycle.Runnable (e.lifecycle now owner s) := by
  have hage : WorksWhen (e.config.lifecycle.agingWindowDays ≤ Instant.maxDays ∧
      e.config.lifecycle.pageSize < 2 ^ 63) (e.agePass now now owner .never s) := by
    refine worksWhen_windowed howner haging hsize fun hdays hsmall => ?_
    obtain ⟨p, hp, -⟩ := agePass_spec hs howner hpos hsmall haging hdays .never
    exact ⟨p, hp⟩
  have hrun : WorksWhen e.config.lifecycle.Runnable (e.lifecycleAt now now owner .never s) := by
    refine ⟨fun hc => ?_, fun hc => ?_⟩
    · obtain ⟨report, s', hrun, -⟩ := lifecycleAt_spec hs howner hc now .never
      exact ⟨_, hrun⟩
    · by_cases hfirst : e.config.lifecycle.agingWindowDays ≤ Instant.maxDays ∧
          e.config.lifecycle.pageSize < 2 ^ 63
      -- the aging pass comes to its end, so the archival window is the one that is out of range
      · obtain ⟨⟨⟨aged, s'⟩, deadline, stopped⟩, hp, -, hnever⟩ :=
          agePass_spec hs howner hpos hfirst.2 haging hfirst.1 .never
        obtain ⟨rfl, rfl⟩ := hnever rfl
        have hlong : ¬e.config.lifecycle.archiveAgeDays ≤ Instant.maxDays := fun hmax =>
          hc ⟨⟨haging, hfirst.1⟩, ⟨harchive, hmax⟩, ⟨hpos, hfirst.2⟩⟩
        obtain ⟨err, herr, hrange⟩ := (worksWhen_window harchive).fails hlong
        refine ⟨err, ?_, hrange⟩
        unfold lifecycleAt archivePass
        rw [hp]
        simp [Bind.bind, Except.bind, herr]
      · obtain ⟨err, herr, hrange⟩ := hage.fails hfirst
        exact ⟨err, by rw [lifecycleAt, herr]; rfl, hrange⟩
  exact ((worksWhen_checkOwner howner).bind fun _ _ _ => hrun).congr (by simp)

/-! ## Consolidation -/

theorem loadPages_works {c : ConsolidationConfig} (howner : Text.blank owner = false)
    (hsize : min c.pageSize c.maxMemoriesPerPass < 2 ^ 63) (fuel : Nat) (deadline : Deadline)
    (after : Option MemoryId) (read : List Memory) :
    ∃ p, loadPages c now owner s fuel deadline after read = .ok p := by
  induction fuel generalizing deadline after read with
  | zero => exact ⟨_, rfl⟩
  | succ fuel ih =>
    unfold loadPages
    split
    · exact ⟨_, rfl⟩
    · dsimp only
      split
      · exact ⟨_, rfl⟩
      · have hsmall : min c.pageSize (c.maxMemoriesPerPass - read.length) < 2 ^ 63 := by omega
        obtain ⟨page, hpage⟩ :=
          (worksWhen_activePage howner (by omega) now after s).works hsmall
        rw [hpage]
        simp only [Bind.bind, Except.bind]
        split
        · exact ih _ _ _
        · exact ⟨_, rfl⟩

theorem consolidateBy_works (howner : Text.blank owner = false)
    (hsize : min e.config.consolidation.pageSize e.config.consolidation.maxMemoriesPerPass < 2 ^ 63)
    (now : Instant) (deadline : Deadline) (s : Store) :
    ∃ r, e.consolidateBy now owner deadline s = .ok r := by
  obtain ⟨read, hread⟩ : ∃ read, e.loadActive now owner deadline s = .ok read :=
    loadPages_works howner hsize _ _ _ _
  unfold consolidateBy
  rw [hread]
  simp only [Bind.bind, Except.bind]
  split
  · exact ⟨_, rfl⟩
  · exact ⟨_, rfl⟩

theorem worksWhen_consolidate (howner : Text.blank owner = false)
    (hsize : e.config.consolidation.pageSize < 2 ^ 64) (now : Instant) (s : Store) :
    WorksWhen (min e.config.consolidation.pageSize
      e.config.consolidation.maxMemoriesPerPass < 2 ^ 63) (e.consolidate now owner s) := by
  have hrun : WorksWhen (min e.config.consolidation.pageSize
      e.config.consolidation.maxMemoriesPerPass < 2 ^ 63) (e.consolidateBy now owner .never s) := by
    refine ⟨fun hsmall => consolidateBy_works e howner hsmall now .never s, fun hlarge => ?_⟩
    obtain ⟨err, herr, hrange⟩ :=
      (worksWhen_activePage howner (by omega) now none s).fails hlarge
    refine ⟨err, ?_, hrange⟩
    unfold consolidateBy loadActive loadPages
    simp only [Deadline.check, List.length_nil, Nat.sub_zero, herr]
    rw [if_neg (by omega)]
    rfl
  exact ((worksWhen_checkOwner howner).bind fun _ _ _ => hrun).congr (by simp)

end Engine

/-- Sizes are kept in 64 bits. -/
structure Config.Sized (c : Config) : Prop where
  candidatePool : c.retrieval.candidatePoolSize < 2 ^ 64
  lifecyclePage : c.lifecycle.pageSize < 2 ^ 64
  consolidationPage : c.consolidation.pageSize < 2 ^ 64

namespace World

end World

end LongTermMemory
