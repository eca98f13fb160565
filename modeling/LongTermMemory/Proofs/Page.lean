import LongTermMemory.Proofs.Operations
import Mathlib.Algebra.Ring.Nat
import Mathlib.Data.List.Nodup

/-!
Paging: the pages of an owner's active memories, each read after the last id of the one before, are
consecutive pieces of one list. A walk therefore does to the whole list what its steps do to the
pages, as long as no step touches what lies ahead of it.
-/

namespace LongTermMemory

/-- The active memories of an owner as they are read, by ascending id. -/
def Store.activeAt (s : Store) (now : Instant) (owner : String) : List Memory :=
  (s.memories.filter fun m => m.owner = owner && !m.archived).map (·.readAt now)

theorem Store.mem_activeAt_iff {s : Store} {now : Instant} {owner : String} {m : Memory} :
    m ∈ s.activeAt now owner ↔
      ∃ k ∈ s.memories, k.owner = owner ∧ k.archived = false ∧ k.readAt now = m := by
  simp [activeAt, and_assoc]

theorem Store.length_activeAt_le {s : Store} {now : Instant} {owner : String} :
    (s.activeAt now owner).length ≤ s.entries.length := by
  rw [activeAt, List.length_map]
  exact (List.length_filter_le _ _).trans_eq (List.length_map _)

/-- The memories with an id after `after`. -/
def past (after : Option MemoryId) (ms : List Memory) : List Memory :=
  ms.filter fun m => after.all (· < m.id)

/-- Memories stand by ascending id. -/
def ById (ms : List Memory) : Prop := (ms.map (·.id)).Pairwise (· < ·)

namespace ById

theorem iff_pairwise {ms : List Memory} : ById ms ↔ ms.Pairwise fun a b => a.id < b.id :=
  List.pairwise_map

theorem nodup_ids {ms : List Memory} (h : ById ms) : (ms.map (·.id)).Nodup :=
  h.imp Int.ne_of_lt

theorem inj {ms : List Memory} (h : ById ms) {a b : Memory} (ha : a ∈ ms) (hb : b ∈ ms)
    (hid : a.id = b.id) : a = b :=
  List.inj_on_of_nodup_map h.nodup_ids ha hb hid

theorem activeAt {s : Store} (hs : s.Sound) (now : Instant) (owner : String) :
    ById (s.activeAt now owner) := by
  unfold ById Store.activeAt
  rw [List.map_map]
  exact hs.ascending.sublist (List.filter_sublist.map _)

end ById

/-- Sorting by id leaves memories by ascending id as they are. -/
theorem ById.mergeSort_eq {ms : List Memory} (h : ById ms) :
    ms.mergeSort (SortField.id.atOrBefore .ascending) = ms := by
  refine List.mergeSort_of_pairwise ((ById.iff_pairwise.mp h).imp fun {a b} hlt => ?_)
  simp [SortField.atOrBefore, SortField.less, hlt]

@[simp] theorem past_none (ms : List Memory) : past none ms = ms := by
  simp [past]

/-- Past the last of the memories done are the others. -/
theorem past_last {done rest : List Memory} (h : ById (done ++ rest)) :
    past (done.getLast?.map (·.id)) (done ++ rest) = rest := by
  rcases List.eq_nil_or_concat done with rfl | ⟨front, last, rfl⟩
  · simp
  · rw [ById.iff_pairwise, List.pairwise_append, List.concat_eq_append,
      List.pairwise_append] at h
    obtain ⟨⟨-, -, hfront⟩, -, hrest⟩ := h
    have hdone : past (some last.id) (front ++ [last]) = [] := by
      refine List.filter_eq_nil_iff.mpr fun m hm => ?_
      rcases List.mem_append.mp hm with hm | hm
      · have hlt := hfront m hm last (by simp)
        simpa using Int.le_of_lt hlt
      · simp [List.mem_singleton.mp hm]
    have hafter : past (some last.id) rest = rest :=
      List.filter_eq_self.mpr fun m hm => by simpa using hrest last (by simp) m hm
    rw [List.concat_eq_append, List.getLast?_concat, Option.map_some, past, List.filter_append]
    exact (congrArg₂ (· ++ ·) hdone hafter).trans (List.nil_append rest)

namespace Engine

theorem signedCount_of_lt {n : Nat} (h : n < 2 ^ 63) : signedCount n = n := by
  have hcount : (9223372036854775807 : Int) - -9223372036854775808 + 1 = 2 ^ 64 := rfl
  simp only [signedCount, IntegerRange.wrap, IntegerRange.int64, hcount]
  omega

theorem signedCount_nonneg_iff {n : Nat} (h : n < 2 ^ 64) : 0 ≤ signedCount n ↔ n < 2 ^ 63 := by
  have hcount : (9223372036854775807 : Int) - -9223372036854775808 + 1 = 2 ^ 64 := rfl
  simp only [signedCount, IntegerRange.wrap, IntegerRange.int64, hcount]
  omega

variable {now : Instant} {owner : String} {s : Store}

/-- A page is the front of what lies past the cursor. -/
theorem activePage_eq (hs : s.Sound) (howner : Text.blank owner = false) {size : Nat}
    (hsize : size < 2 ^ 63) (after : Option MemoryId) :
    activePage now owner size after s = .ok ((past after (s.activeAt now owner)).take size) := by
  have hfound : ((s.entriesOf owner).filter fun e => !e.memory.archived &&
      after.all (· < e.memory.id)).map (·.memory) =
        past after (s.memories.filter fun m => m.owner = owner && !m.archived) := by
    simp only [Store.entriesOf, past, Store.memories, List.filter_map, List.filter_filter]
    congr 2
    funext e
    simp only [Function.comp_apply]
    cases e.memory.archived <;> simp [Bool.and_comm]
  have hascending : ById (past after
      (s.memories.filter fun m => m.owner = owner && !m.archived)) :=
    hs.ascending.sublist ((List.filter_sublist.trans List.filter_sublist).map _)
  have hpast : (past after (s.memories.filter fun m => m.owner = owner && !m.archived)).map
      (·.readAt now) = past after (s.activeAt now owner) := by
    simp only [past, Store.activeAt, List.filter_map]
    rfl
  unfold activePage list
  rw [signedCount_of_lt hsize]
  have hlimit : Invalid.checkLimit (size : Int) = .ok () :=
    Invalid.checkLimit_eq_ok.mpr (Int.natCast_nonneg size)
  simp only [Invalid.checkOwner, howner, Invalid.ensure, Invalid.raise, Invalid.ifPresent, hlimit,
    Bind.bind, Except.bind, Store.list, Store.select, Selection.admits, Selection.matchesTags,
    Selection.sorted, Selection.page]
  simp only [Bool.not_false, ↓reduceIte, Bool.false_or, Bool.true_and, Bool.and_true,
    Option.all_none, Option.getD_some, Option.getD_none, Int.toNat_zero, List.drop_zero,
    Int.toNat_natCast, hfound, hascending.mergeSort_eq]
  rw [if_neg (by omega), List.map_take, hpast]

/-- A page is not read where its size comes out negative. -/
theorem size_of_activePage {size : Nat} {after : Option MemoryId} {page : List Memory}
    (hsize : size < 2 ^ 64) (h : activePage now owner size after s = .ok page) :
    size < 2 ^ 63 := by
  obtain ⟨_, -, h⟩ := bind_eq_ok.mp h
  obtain ⟨_, hlimit, -⟩ := bind_eq_ok.mp h
  have hlimit : Invalid.checkLimit (signedCount size) = .ok () :=
    Invalid.ifPresent_eq_ok.mp (Invalid.raise_eq_ok.mp hlimit) _ rfl
  exact (signedCount_nonneg_iff hsize).mp (Invalid.checkLimit_eq_ok.mp hlimit)

/-! ## Walks -/

variable {α : Type} {size : Nat} {step : List Memory → α × Store → Except Error (α × Store)}

/-- What a walk over `all` needs of its steps: after the part `done` of the list the state satisfies
`Q done`, the rest still lies ahead, and a step takes the next page to the part done. -/
structure Walkable (now : Instant) (owner : String) (all : List Memory)
    (step : List Memory → α × Store → Except Error (α × Store))
    (Q : List Memory → α × Store → Prop) : Prop where
  sound : ∀ done rest state, all = done ++ rest → Q done state → state.2.Sound
  ahead : ∀ done rest state, all = done ++ rest → Q done state →
    past (done.getLast?.map (·.id)) (state.2.activeAt now owner) = rest
  step : ∀ done page rest state, all = done ++ page ++ rest → Q done state →
    ∃ state', step page state = .ok state' ∧ Q (done ++ page) state'

/-- A pass that was not stopped has come to the end, and nothing stops it without a deadline. -/
def CameTo (Q : α × Store → Prop) (deadline : Deadline) (p : Passed (α × Store)) : Prop :=
  (p.aborted = false → Q p.result) ∧ (deadline = .never → p.aborted = false ∧ p.deadline = .never)

theorem Deadline.check_of_never {d d' : Deadline} {passed : Bool} (h : d.check = (passed, d'))
    (hd : d = .never) : passed = false ∧ d' = .never := by
  subst hd
  cases h
  exact ⟨rfl, rfl⟩

theorem walkPages_cameTo {all : List Memory} {Q : List Memory → α × Store → Prop}
    (h : Walkable now owner all step Q) (howner : Text.blank owner = false) (hpos : 0 < size)
    (hsize : size < 2 ^ 63) {fuel : Nat} {deadline : Deadline} {done rest : List Memory}
    {state : α × Store} (hall : all = done ++ rest) (hq : Q done state)
    (hfuel : rest.length < fuel) :
    ∃ p, walkPages now owner size step fuel deadline (done.getLast?.map (·.id)) state = .ok p ∧
      CameTo (Q all) deadline p := by
  induction fuel generalizing deadline done rest state with
  | zero => omega
  | succ fuel ih =>
    have hpage : activePage now owner size (done.getLast?.map (·.id)) state.2 =
        .ok (rest.take size) := by
      rw [activePage_eq (h.sound done rest state hall hq) howner hsize,
        h.ahead done rest state hall hq]
    unfold walkPages
    split
    · next deadline' hcheck =>
      refine ⟨_, rfl, fun hgoes => (by cases hgoes), fun hnever => ?_⟩
      exact absurd (Deadline.check_of_never hcheck hnever).1 (by simp)
    · next deadline' hcheck =>
      have hdeadline : deadline = .never → deadline' = .never :=
        fun hnever => (Deadline.check_of_never hcheck hnever).2
      rw [hpage]
      simp only [Bind.bind, Except.bind]
      split
      · next hempty =>
        have hrest : rest = [] := by
          cases rest with
          | nil => rfl
          | cons m ms =>
            obtain ⟨k, rfl⟩ := Nat.exists_eq_add_of_lt hpos
            simp at hempty
        rw [hrest, List.append_nil] at hall
        exact ⟨_, rfl, fun _ => hall ▸ hq, fun hnever => ⟨rfl, hdeadline hnever⟩⟩
      · next hnonempty =>
        have hsplit : all = done ++ rest.take size ++ rest.drop size := by
          rw [List.append_assoc, List.take_append_drop, hall]
        obtain ⟨state', hstep, hq'⟩ := h.step done (rest.take size) (rest.drop size) state hsplit hq
        rw [hstep]
        dsimp only
        split
        · next hfull =>
          have hlast : (rest.take size).getLast?.map (·.id) =
              (done ++ rest.take size).getLast?.map (·.id) := by
            rw [List.getLast?_append_of_ne_nil _ (by simpa using hnonempty)]
          have hless : (rest.drop size).length < fuel := by
            rw [List.length_take] at hfull
            rw [List.length_drop]
            omega
          have hnext : ∃ p, walkPages now owner size step fuel deadline'
              ((done ++ rest.take size).getLast?.map (·.id)) state' = .ok p ∧
                CameTo (Q all) deadline' p := ih hsplit hq' hless
          rw [hlast]
          obtain ⟨p, hp, hcame⟩ := hnext
          exact ⟨p, hp, hcame.1, fun hnever => hcame.2 (hdeadline hnever)⟩
        · next hshort =>
          have hdrop : rest.drop size = [] := by
            rw [List.length_take] at hshort
            exact List.drop_eq_nil_of_le (by omega)
          rw [hdrop, List.append_nil] at hsplit
          exact ⟨_, rfl, fun _ => hsplit ▸ hq', fun hnever => ⟨rfl, hdeadline hnever⟩⟩

/-- A walk goes through the whole list of active memories unless the deadline stops it. -/
theorem walk_cameTo {all : List Memory} {Q : List Memory → α × Store → Prop}
    (h : Walkable now owner all step Q) (howner : Text.blank owner = false) (hpos : 0 < size)
    (hsize : size < 2 ^ 63) {deadline : Deadline} {state : α × Store} (hq : Q [] state)
    (hlength : all.length ≤ state.2.entries.length) :
    ∃ p, walk now owner size step deadline state = .ok p ∧ CameTo (Q all) deadline p :=
  walkPages_cameTo h howner hpos hsize (List.nil_append all).symm hq (by omega)

/-- Whatever stopped a walk, it has gone through a front of the list. -/
theorem walkPages_front {all : List Memory} {Q : List Memory → α × Store → Prop}
    (h : Walkable now owner all step Q) (howner : Text.blank owner = false)
    (hsize : size < 2 ^ 64) {fuel : Nat} {deadline : Deadline} {done rest : List Memory}
    {state : α × Store} (hall : all = done ++ rest) (hq : Q done state) {p : Passed (α × Store)}
    (hp : walkPages now owner size step fuel deadline (done.getLast?.map (·.id)) state = .ok p) :
    ∃ front, front <+: all ∧ Q front p.result := by
  have hstays : ∃ front, front <+: all ∧ Q front state := ⟨done, ⟨rest, hall.symm⟩, hq⟩
  induction fuel generalizing deadline done rest state with
  | zero =>
    cases hp
    exact hstays
  | succ fuel ih =>
    unfold walkPages at hp
    split at hp
    · cases hp
      exact hstays
    · obtain ⟨page, hpage, hp⟩ := bind_eq_ok.mp hp
      have hsmall := size_of_activePage hsize hpage
      rw [activePage_eq (h.sound done rest state hall hq) howner hsmall,
        h.ahead done rest state hall hq] at hpage
      cases hpage
      split at hp
      · cases hp
        exact hstays
      · next hnonempty =>
        have hsplit : all = done ++ rest.take size ++ rest.drop size := by
          rw [List.append_assoc, List.take_append_drop, hall]
        obtain ⟨state', hstep, hq'⟩ := h.step done (rest.take size) (rest.drop size) state hsplit hq
        obtain ⟨_, hstep', hp⟩ := bind_eq_ok.mp hp
        cases hstep.symm.trans hstep'
        have hgone : ∃ front, front <+: all ∧ Q front state' := ⟨_, ⟨_, hsplit.symm⟩, hq'⟩
        split at hp
        · have hlast : (rest.take size).getLast?.map (·.id) =
              (done ++ rest.take size).getLast?.map (·.id) := by
            rw [List.getLast?_append_of_ne_nil _ (by simpa using hnonempty)]
          rw [hlast] at hp
          exact ih hsplit hq' hp hgone
        · cases hp
          exact hgone

end Engine

end LongTermMemory
