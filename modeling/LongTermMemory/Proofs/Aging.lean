import LongTermMemory.Proofs.Idempotence
import LongTermMemory.Proofs.Store.AgingLog

/-!
How often a memory ages. Each operation of an engine adds its agings to the log, and the agings of
one memory in it lie a window apart, as long as their stamps are read back.
-/

namespace LongTermMemory

open Lifecycle

namespace Engine

/-- The agings of a lifecycle run that gives a report: those of its first pass. -/
def agingsOfRun (e : Engine) (clock asOf : Instant) (owner : String) (deadline : Deadline)
    (s : Store) : List Aging :=
  match e.act clock s (.lifecycle owner asOf deadline), e.agePass clock asOf owner deadline s with
  | .ok _, .ok aging => s.agings clock asOf aging.result.2
  | _, _ => []

def agingsOfMaintenance (e : Engine) (now : Instant) : List String → Store → List Aging
  | [], _ => []
  | owner :: rest, s =>
    e.agingsOfRun now now owner .never s ++
      e.agingsOfMaintenance now rest (e.maintainOwner now owner s).2

def agings (e : Engine) (clock : Instant) (s : Store) : Operation → List Aging
  | .lifecycle owner asOf deadline => e.agingsOfRun clock asOf owner deadline s
  | .maintain => e.agingsOfMaintenance clock s.owners s
  | _ => []

/-- The agings of operations that follow one another, in the order in which they happen. -/
def history (e : Engine) : List Operation → World → List Aging
  | [], _ => []
  | op :: ops, w => e.agings w.clock w.store op ++ e.history ops (e.perform op w)

/-! ## Operations -/

variable {e : Engine} {clock asOf : Instant} {owner : String} {deadline : Deadline}
  {s s' : Store} {may : Revision → Prop}

/-- The time that the configuration asks for between two agings of a memory. -/
def agingSpan (e : Engine) : Int := e.config.lifecycle.agingWindowDays * Instant.millisPerDay

/-- However the first pass of a run ends, it is an aging pass. -/
theorem agingPass_of_agePass (hs : s.Sound) (howner : Text.blank owner = false)
    (hc : e.config.Checked) (hsize : e.config.lifecycle.pageSize < 2 ^ 64)
    {p : Passed (Nat × Store)} (h : e.agePass clock asOf owner deadline s = .ok p) :
    ∃ ids, AgingPass e.vocabulary e.agingSpan clock asOf ids s p.result.2 := by
  have hwrites : Writes e.vocabulary s p.result.2 := writes_agePass trivial trivial h
  obtain ⟨w, hw, hwalk⟩ := bind_eq_ok.mp h
  obtain ⟨hdays, -⟩ := hc.lifecycleWindows
  rw [window_of_le hdays (days_of_window hdays hw)] at hw
  obtain rfl := Except.ok.inj hw
  have halters : Alters s clock owner (dueForAging asOf e.agingSpan) (pointLost asOf)
      (ageAll asOf) := alters_ageAll hs clock _
  have hsound : ∀ ms n n' s', ageAll asOf ms (n, s) = .ok (n', s') → s'.Sound :=
    fun ms n n' s' h => hs.writes (writes_ageAll (v := e.vocabulary) trivial trivial h)
  obtain ⟨front, hfront, hresult⟩ :=
    walkPages_front (walkable_altered halters (fun _ => rfl) hsound hs) howner hsize
      (List.nil_append _).symm (altered_nil s _ _) hwalk
  refine ⟨_, hwrites, congrArg Prod.snd hresult, fun m hm hin => ?_⟩
  obtain ⟨k, hk, hid⟩ := List.mem_map.mp hin
  obtain ⟨hk, hdue⟩ := List.mem_filter.mp hk
  obtain ⟨m', hm', hsubject, rfl⟩ := Store.mem_activeAt.mp (hfront.subset hk)
  obtain rfl : m' = m := ById.inj hs.ascending hm' hm hid
  simp only [subject, Bool.and_eq_true, Bool.not_eq_true'] at hsubject
  exact ⟨hsubject.2, hdue⟩

/-- A run is an aging pass, and writes that neither update nor age a memory. -/
theorem trace_lifecycle (hstamp : ∀ t, may (.stamp t)) (hs : s.Sound) (hc : e.config.Checked)
    (hsize : e.config.lifecycle.pageSize < 2 ^ 64)
    (h : e.act clock s (.lifecycle owner asOf deadline) = .ok s') :
    Trace e.vocabulary may e.agingSpan s (e.agingsOfRun clock asOf owner deadline s) s' := by
  obtain ⟨_, howner, hrun⟩ := bind_eq_ok.mp h
  have howner : Text.blank owner = false := by simpa [Invalid.checkOwner] using howner
  obtain ⟨report, hrun⟩ := map_snd_eq_ok.mp hrun
  obtain ⟨aging, haging, hlater⟩ := lifecycleAt_eq_ok hrun
  obtain ⟨ids, hpass⟩ := agingPass_of_agePass hs howner hc hsize haging
  have hlog : e.agingsOfRun clock asOf owner deadline s =
      s.agings clock asOf aging.result.2 := by
    rw [agingsOfRun, h, haging]
  have hquiet : WritesOf e.vocabulary may aging.result.2 s' := by
    rcases hlater with rfl | ⟨archival, harchival, rfl | ⟨removal, hremoval, rfl⟩⟩
    · exact .refl
    · exact writes_archivePass (hstamp clock) harchival
    · exact (writes_archivePass (hstamp clock) harchival).trans (writes_deduplicatePass hremoval)
  rw [hlog]
  exact ((Trace.nil s).pass hpass).writes hquiet

theorem act_lifecycle (e : Engine) (now : Instant) (owner : String) (s : Store) :
    e.act now s (.lifecycle owner now .never) = (·.2) <$> e.lifecycle now owner s := by
  rw [lifecycle, map_bind]
  rfl

theorem trace_maintainOwner (hstamp : ∀ t, may (.stamp t)) (hs : s.Sound) (hc : e.config.Checked)
    (hsize : e.config.lifecycle.pageSize < 2 ^ 64) (now : Instant) (owner : String) :
    Trace e.vocabulary may e.agingSpan s (e.agingsOfRun now now owner .never s)
      (e.maintainOwner now owner s).2 := by
  have hact := act_lifecycle e now owner s
  unfold maintainOwner
  cases hrun : e.lifecycle now owner s with
  | error err =>
    have hnone : e.agingsOfRun now now owner .never s = [] := by
      rw [agingsOfRun, hact, hrun]
      rfl
    rw [hnone]
    exact .nil s
  | ok r =>
    obtain ⟨report, s₁⟩ := r
    rw [hrun] at hact
    have htrace : Trace e.vocabulary may e.agingSpan s (e.agingsOfRun now now owner .never s) s₁ :=
      trace_lifecycle hstamp hs hc hsize hact
    dsimp only
    split
    · exact htrace
    · next hconsolidate =>
      exact htrace.writes (writes_consolidate (htrace.sound hs) (hstamp now) hconsolidate)

theorem trace_maintainOwners (hstamp : ∀ t, may (.stamp t)) (hs : s.Sound) (hc : e.config.Checked)
    (hsize : e.config.lifecycle.pageSize < 2 ^ 64) (now : Instant) (owners : List String) :
    Trace e.vocabulary may e.agingSpan s (e.agingsOfMaintenance now owners s)
      (e.maintainOwners now owners s).2 := by
  induction owners generalizing s with
  | nil => exact .nil s
  | cons owner rest ih =>
    have hfirst : Trace e.vocabulary may e.agingSpan s (e.agingsOfRun now now owner .never s)
        (e.maintainOwner now owner s).2 := trace_maintainOwner hstamp hs hc hsize now owner
    unfold agingsOfMaintenance maintainOwners
    exact hfirst.trans (ih (hfirst.sound hs))

theorem trace_act (hstamp : ∀ t, may (.stamp t)) (hs : s.Sound) (hc : e.config.Checked)
    (hsize : e.config.lifecycle.pageSize < 2 ^ 64) {op : Operation}
    (hmay : ∀ id c, op = .update id c → may .update) (h : e.act clock s op = .ok s') :
    Trace e.vocabulary may e.agingSpan s (e.agings clock s op) s' := by
  have hquiet : ∀ {s'}, WritesOf e.vocabulary may s s' →
      Trace e.vocabulary may e.agingSpan s [] s' := (Trace.nil s).writes
  cases op with
  | create r =>
    obtain ⟨m, h⟩ := map_snd_eq_ok.mp h
    exact hquiet (writesOf_create (hstamp clock) h)
  | update id c =>
    obtain ⟨m, h⟩ := map_snd_eq_ok.mp h
    exact hquiet (writesOf_update (hmay id c rfl) (hstamp clock) h)
  | delete id => exact hquiet (.delete h)
  | deleteOwned owner id => exact hquiet (writes_deleteOwned h)
  | recordAccess id n => exact hquiet (.recordAccess (hstamp clock) h)
  | addContext id c =>
    obtain ⟨k, h⟩ := map_snd_eq_ok.mp h
    exact hquiet (writes_addContext h)
  | relate r =>
    obtain ⟨q, h⟩ := map_snd_eq_ok.mp h
    exact hquiet (writes_relate h)
  | learn i =>
    obtain rfl := Except.ok.inj h
    exact hquiet (writesOf_learn (hstamp clock) i s)
  | retrieve owner query limit =>
    obtain ⟨ms, h⟩ := map_snd_eq_ok.mp h
    exact hquiet (writes_retrieve (hstamp clock) h)
  | retrieveContext owner query maxLength =>
    obtain ⟨text, h⟩ := map_snd_eq_ok.mp h
    obtain ⟨ms, h⟩ := retrieveContext_eq_ok h
    exact hquiet (writes_retrieve (hstamp clock) h)
  | consolidate owner deadline =>
    obtain ⟨_, -, h⟩ := bind_eq_ok.mp h
    obtain ⟨report, h⟩ := map_snd_eq_ok.mp h
    exact hquiet (writes_consolidateBy hs (hstamp clock) h)
  | lifecycle owner asOf deadline => exact trace_lifecycle hstamp hs hc hsize h
  | maintain =>
    obtain rfl := Except.ok.inj h
    unfold agings maintain
    exact trace_maintainOwners hstamp hs hc hsize clock s.owners
  | moveClock millis =>
    cases h
    exact .nil s

/-- An operation that fails ages nothing. -/
theorem agings_of_error {op : Operation} {err : Error} (h : e.act clock s op = .error err) :
    e.agings clock s op = [] := by
  cases op with
  | lifecycle owner asOf deadline => simp only [agings, agingsOfRun, h]
  | maintain => cases h
  | create | update | delete | deleteOwned | recordAccess | addContext | relate | learn | retrieve
  | retrieveContext | consolidate | moveClock => rfl

theorem trace_perform (hstamp : ∀ t, may (.stamp t)) {w : World} (hs : w.store.Sound)
    (hc : e.config.Checked) (hsize : e.config.lifecycle.pageSize < 2 ^ 64) {op : Operation}
    (hmay : ∀ id c, op = .update id c → may .update) :
    Trace e.vocabulary may e.agingSpan w.store (e.agings w.clock w.store op)
      (e.perform op w).store := by
  unfold perform
  cases h : e.act w.clock w.store op with
  | error err =>
    rw [agings_of_error h]
    exact .nil w.store
  | ok s => exact trace_act hstamp hs hc hsize hmay h

theorem trace_history {w : World} (hs : w.store.Sound) (hc : e.config.Checked)
    (hsize : e.config.lifecycle.pageSize < 2 ^ 64) (ops : List Operation) :
    Trace e.vocabulary (· ≠ .age) e.agingSpan w.store (e.history ops w)
      (ops.foldl (fun w op => e.perform op w) w).store := by
  induction ops generalizing w with
  | nil => exact .nil w.store
  | cons op ops ih =>
    have hfirst : Trace e.vocabulary (· ≠ .age) e.agingSpan w.store
        (e.agings w.clock w.store op) (e.perform op w).store :=
      trace_perform (by simp) hs hc hsize (by simp)
    exact hfirst.trans (ih (hfirst.sound hs))

/-- An operation that updates nothing takes the points that its agings tell of. -/
theorem points_perform {w : World} (hs : w.store.Sound) (hc : e.config.Checked)
    (hsize : e.config.lifecycle.pageSize < 2 ^ 64) {op : Operation}
    (hop : ∀ id c, op ≠ .update id c) {id : MemoryId} {m m' : Memory}
    (hm : w.store.kept? id = some m) (hm' : (e.perform op w).store.kept? id = some m') :
    m'.importance = m.importance - (agingsOf id (e.agings w.clock w.store op)).length := by
  have htrace : Trace e.vocabulary (fun r => ∃ t, r = .stamp t) e.agingSpan w.store
      (e.agings w.clock w.store op) (e.perform op w).store :=
    trace_perform (fun t => ⟨t, rfl⟩) hs hc hsize fun id c heq => absurd heq (hop id c)
  have hloses : w.store.Loses (e.agings w.clock w.store op) (e.perform op w).store :=
    .trace (by simp) (by simp) hs htrace
  obtain ⟨hmem', hid'⟩ := Store.mem_of_kept? hm'
  rcases hloses.points m' hmem' with hnew | ⟨k, hk, hid, hpoints⟩
  · obtain ⟨hmem, rfl⟩ := Store.mem_of_kept? hm
    have hle := hs.bounded m hmem
    rw [← hid'] at hle
    exact absurd hnew (Int.not_lt.mpr hle)
  · have hkept := hs.kept?_of_mem hk
    rw [hid, hid', hm] at hkept
    cases hkept
    rwa [hid, hid'] at hpoints

end Engine

/-! ## Chains of agings -/

theorem Apart.of_isChain {span : Int} {log : List Aging} (h : log.IsChain (Apart span))
    (hread : ∀ a ∈ log.dropLast, a.asOf.readable = true) :
    log.IsChain fun a b => span ≤ b.asOf.since a.asOf := by
  induction log with
  | nil => exact .nil
  | cons a log ih =>
    cases log with
    | nil => exact .singleton a
    | cons b log =>
      obtain ⟨hab, hrest⟩ := List.isChain_cons_cons.mp h
      refine List.isChain_cons_cons.mpr ⟨hab (hread a (by simp)), ih hrest fun x hx => ?_⟩
      exact hread x (by simp [hx])

/-- Where each aging lies a window after the one before, so it does after all before. -/
theorem pairwise_apart {span : Int} (hspan : 0 ≤ span) {log : List Aging}
    (h : log.IsChain fun a b => span ≤ b.asOf.since a.asOf) :
    log.Pairwise fun a b => span ≤ b.asOf.since a.asOf := by
  let R (a b : Aging) : Prop := span ≤ b.asOf.since a.asOf
  have : Trans R R R := ⟨fun {a b c} hab hbc => by
    simp only [R, Instant.since] at hab hbc ⊢
    omega⟩
  exact List.IsChain.pairwise (R := R) h

namespace World

/-- Every aging takes one point of a memory that is active, keeps one and was not touched for the
aging window; agings of one memory lie the window apart, so that within less than a window there is
at most one of them; and nothing but agings and updates changes how important a memory is. The
stamps of all but the last of the agings must be read back. -/
theorem aging_rate_limited {p : Engine → Prop} {w : World} (hw : w.Reached p) {c : Config}
    {e : Engine} (he : Engine.ofConfig c = .ok e) (hsize : c.lifecycle.pageSize < 2 ^ 64)
    (ops : List Operation) :
    (∀ a ∈ e.history ops w, a.Proper e.agingSpan) ∧
    (∀ id part, part <:+: e.history ops w →
      (∀ a ∈ (agingsOf id part).dropLast, a.asOf.readable = true) →
      (agingsOf id part).Pairwise (fun a b => e.agingSpan ≤ b.asOf.since a.asOf) ∧
      ((∀ a ∈ part, ∀ b ∈ part, b.asOf.since a.asOf < e.agingSpan) →
        (agingsOf id part).length ≤ 1)) ∧
    ∀ op, (∀ id c, op ≠ .update id c) → ∀ id m m', w.store.kept? id = some m →
      (e.perform op w).store.kept? id = some m' →
      m'.importance = m.importance - (agingsOf id (e.agings w.clock w.store op)).length := by
  obtain ⟨hchecked, rfl⟩ := Engine.ofConfig_eq_ok.mp he
  have htrace := Engine.trace_history (e := .ofUnchecked c) hw.sound hchecked hsize ops
  have hledger := Ledger.trace (by simp) hw.sound htrace
  refine ⟨htrace.proper hw.sound, fun id part hpart hread => ?_, fun op hop id m m' hm hm' =>
    Engine.points_perform hw.sound hchecked hsize hop hm hm'⟩
  obtain ⟨earlier, later, hhistory⟩ := hpart
  have hchain : (agingsOf id part).IsChain (Apart (Engine.ofUnchecked c).agingSpan) := by
    have hall := hledger.apart id
    rw [← hhistory, agingsOf_append, agingsOf_append] at hall
    exact hall.left_of_append.right_of_append
  have hspan : 0 ≤ (Engine.ofUnchecked c).agingSpan :=
    Int.mul_nonneg (Int.le_of_lt hchecked.lifecycleWindows.1) (by decide)
  have hapart := pairwise_apart hspan (Apart.of_isChain hchain hread)
  refine ⟨hapart, fun hnear => ?_⟩
  cases hlog : agingsOf id part with
  | nil => simp
  | cons a rest =>
    cases rest with
    | nil => simp
    | cons b rest =>
      rw [hlog, List.pairwise_cons] at hapart
      have hfar := hapart.1 b (by simp)
      have hin : ∀ x ∈ a :: b :: rest, x ∈ part := fun x hx =>
        (List.mem_filter.mp (hlog ▸ hx : x ∈ agingsOf id part)).1
      exact absurd (hnear a (hin a (by simp)) b (hin b (by simp))) (Int.not_lt.mpr hfar)

theorem asOf_of_mem_agings {e : Engine} {owner : String} {asOf : Instant} {deadline : Deadline}
    {clock : Instant} {s : Store} {a : Aging}
    (h : a ∈ e.agings clock s (.lifecycle owner asOf deadline)) : a.asOf = asOf := by
  simp only [Engine.agings, Engine.agingsOfRun] at h
  split at h
  · obtain ⟨m, -, ha⟩ := List.mem_filterMap.mp h
    obtain ⟨m', -, ha⟩ := Option.bind_eq_some_iff.mp ha
    split at ha
    · cases ha
    · cases ha
      rfl
  · cases h

/-- The tea at a later time. -/
def teaAt (now : Instant) : World :=
  Engine.oneTag.perform (.moveClock now.millis) (withTea ⟨0⟩ 5)

def runAt (now : Instant) : Operation := .lifecycle "ann" now .never

theorem reached_teaAt (now : Instant) : (teaAt now).Reached (· = .oneTag) := by
  obtain ⟨clock, hrun⟩ := reached_withTea ⟨0⟩ 5
  exact ⟨clock, hrun.tail ⟨.oneTag, _, rfl, rfl⟩⟩

theorem clock_teaAt (now : Instant) : (teaAt now).clock = now :=
  congrArg Instant.mk (Int.zero_add now.millis)

theorem perform_runAt {w : World} (hs : w.store.Sound) :
    Engine.oneTag.perform (runAt w.clock) w = ⟨leftAt w.clock w.store, w.clock⟩ := by
  have howner : Text.blank "ann" = false := by decide
  have hrun : Engine.oneTag.lifecycle w.clock "ann" w.store =
      .ok (unpaged {} w.clock "ann" w.store) :=
    Engine.lifecycle_of_runnable hs howner runnable_default
  have hact : Engine.oneTag.act w.clock w.store (runAt w.clock) =
      .ok (leftAt w.clock w.store) := by
    rw [runAt, Engine.act_lifecycle, hrun]
    rfl
  rw [Engine.perform, hact]
  rfl

/-- A run at the time of the clock ages the tea as often as the tea loses a point. -/
theorem agings_runAt {w : World} (hs : w.store.Sound) {i j : Int}
    (hi : (w.store.kept? 1).map (·.importance) = some i)
    (hj : ((leftAt w.clock w.store).kept? 1).map (·.importance) = some j) :
    i - j = (agingsOf 1 (Engine.oneTag.agings w.clock w.store (runAt w.clock))).length := by
  obtain ⟨m, hm, rfl⟩ := Option.map_eq_some_iff.mp hi
  obtain ⟨m', hm', rfl⟩ := Option.map_eq_some_iff.mp hj
  obtain ⟨hchecked, -⟩ := Engine.ofConfig_eq_ok.mp Engine.ofConfig_oneTag
  have hkept : (Engine.oneTag.perform (runAt w.clock) w).store.kept? 1 = some m' := by
    rw [perform_runAt hs]
    exact hm'
  have hpoints := Engine.points_perform hs hchecked (by decide) (by simp [runAt]) hm hkept
  omega

/-- The agings of the tea in two runs at one time. -/
theorem agings_twoRuns {now : Instant} {j k : Int}
    (hj : ((leftAt now (teaAt now).store).kept? 1).map (·.importance) = some j)
    (hk : ((leftAt now (leftAt now (teaAt now).store)).kept? 1).map (·.importance) = some k) :
    5 - k = (agingsOf 1 (Engine.oneTag.history [runAt now, runAt now] (teaAt now))).length := by
  have hs := (reached_teaAt now).sound
  have hclock := clock_teaAt now
  generalize hw : teaAt now = w at *
  subst hclock
  have hi : (w.store.kept? 1).map (·.importance) = some 5 := by
    rw [← hw]
    rfl
  have hfirst := agings_runAt hs hi hj
  have hperform := perform_runAt hs
  have hs' : (leftAt w.clock w.store).Sound := by
    have hsound := hs.writes (Engine.oneTag.writes_perform hs (runAt w.clock))
    rwa [hperform] at hsound
  have hsecond := agings_runAt (w := ⟨leftAt w.clock w.store, w.clock⟩) hs' hj hk
  rw [Engine.history, Engine.history, Engine.history, List.append_nil, agingsOf_append,
    List.length_append, hperform]
  dsimp only at hsecond ⊢
  omega

theorem asOf_of_mem_twoRuns {now : Instant} {w : World} {a : Aging}
    (h : a ∈ Engine.oneTag.history [runAt now, runAt now] w) : a.asOf = now := by
  simp only [Engine.history, List.append_nil, List.mem_append] at h
  rcases h with h | h
  · exact asOf_of_mem_agings h
  · exact asOf_of_mem_agings h

theorem aging_rate_limited_fortyDays : (agingsOf 1 (Engine.oneTag.history
    [runAt fortyDays, runAt fortyDays] (teaAt fortyDays))).length = 1 := by
  obtain ⟨-, hapart, -⟩ := aging_rate_limited (reached_teaAt fortyDays) Engine.ofConfig_oneTag
    (by decide) [runAt fortyDays, runAt fortyDays]
  have hread : ∀ a ∈ (agingsOf 1 (Engine.oneTag.history [runAt fortyDays, runAt fortyDays]
      (teaAt fortyDays))).dropLast, a.asOf.readable = true := by
    intro a ha
    rw [asOf_of_mem_twoRuns (List.mem_filter.mp ((List.dropLast_sublist _).mem ha)).1]
    decide
  obtain ⟨-, honce⟩ := hapart 1 _ List.infix_rfl hread
  have hnear := honce fun a ha b hb => by
    rw [asOf_of_mem_twoRuns ha, asOf_of_mem_twoRuns hb]
    decide
  have hfirst := agings_runAt (reached_teaAt fortyDays).sound (i := 5) (j := 4) rfl
    (by decide)
  rw [clock_teaAt] at hfirst
  simp only [Engine.history, clock_teaAt, agingsOf_append, List.length_append] at hnear ⊢
  omega

/-- In the year 10000 two agings of one memory lie at one instant. -/
theorem aged_twice_within_window : ∃ (e : Engine) (w : World) (ops : List Operation),
    Engine.ofConfig .oneTag = .ok e ∧ w.Reached (· = e) ∧ 0 < e.agingSpan ∧
    (agingsOf 1 (e.history ops w)).length = 2 ∧ ∀ a ∈ e.history ops w, a.asOf = year10000 := by
  have htwo : 5 - 3 = ((agingsOf 1 (Engine.oneTag.history [runAt year10000, runAt year10000]
      (teaAt year10000))).length : Int) :=
    agings_twoRuns (j := 4) (by decide) (by decide)
  exact ⟨.oneTag, teaAt year10000, [runAt year10000, runAt year10000], rfl,
    reached_teaAt year10000, by decide, by omega, fun a => asOf_of_mem_twoRuns⟩

end World

end LongTermMemory
