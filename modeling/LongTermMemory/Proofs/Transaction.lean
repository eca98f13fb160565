import LongTermMemory.Proofs.Store.Spelling
import LongTermMemory.Proofs.Store.Statement

/-!
Failed calls. A write that fails has written nothing when it fails, so that taking its transaction
back changes nothing, and the world after it is the world before it. A question never changes the
store.
-/

namespace LongTermMemory

namespace Edit

/-- The write as an operation of a run. -/
def operation : Edit → Operation
  | .create r => .create r
  | .update id c => .update id c
  | .delete id => .delete id
  | .deleteOwned owner id => .deleteOwned owner id
  | .recordAccess id n => .recordAccess id n
  | .addContext id c => .addContext id c
  | .relate r => .relate r

end Edit

inductive Call where
  | edit (x : Edit)
  | ask (q : Question)

/-- A call in a world: its answer and the world after it. -/
def Engine.serve (e : Engine) (w : World) : Call → Except Error Answer × World
  | .edit x =>
    let (answer, store) := e.carryOut w.clock x w.store
    (answer, { w with store })
  | .ask q =>
    let (answer, store) := ask w.clock q w.store
    (answer, { w with store })

/-- The world after some calls, each to its engine. -/
def World.afterCalls (w : World) : List (Engine × Call) → World
  | [] => w
  | (e, call) :: rest => (e.serve w call).2.afterCalls rest

/-- The writes among some calls that succeed. -/
def World.written (w : World) : List (Engine × Call) → List (Engine × Call)
  | [] => []
  | (e, call) :: rest =>
    let more := (e.serve w call).2.written rest
    match call, (e.serve w call).1 with
    | .edit _, .ok _ => (e, call) :: more
    | _, _ => more

/-- The world after some operations, each by its engine. -/
def World.after (w : World) (later : List (Engine × Operation)) : World :=
  later.foldl (fun w (e, op) => e.perform op w) w

namespace Engine

variable {e : Engine} {now : Instant} {s : Store}

/-! ## Writes -/

/-- The statements of a write, run without a transaction, come to one step of the store. -/
theorem outcome_statements (hs : s.Sound) (hnames : Store.DistinctNames s.tagNames) {x : Edit}
    {body : Statements Answer} (hbody : e.statements now x = .ok body) :
    body.outcome s = s.settled (e.edit now s x) := by
  cases x with
  | create r =>
    obtain ⟨r', hr, hbody⟩ := bind_eq_ok.mp hbody
    cases hbody
    have hcreate : e.create now r s = s.create now r' := by
      unfold create
      rw [hr]
      rfl
    rw [Statements.outcome_map (Statements.outcome_create hs hnames now r'), edit, hcreate]
  | update id c =>
    obtain ⟨c', hc, hbody⟩ := bind_eq_ok.mp hbody
    cases hbody
    have hupdate : e.update now id c s = s.update now id c' := by
      unfold update
      rw [hc]
      rfl
    rw [Statements.outcome_map (Statements.outcome_update hnames now id c'), edit, hupdate]
  | delete id =>
    cases hbody
    rw [Statements.outcome_map (Statements.outcome_delete s id), edit]
    cases s.delete id <;> rfl
  | deleteOwned owner id =>
    obtain ⟨_, howner, hbody⟩ := bind_eq_ok.mp hbody
    cases hbody
    have howner : Text.blank owner = false := by
      simpa [Invalid.checkOwner] using howner
    rw [Statements.outcome_map (Statements.outcome_deleteOwned howner now s id), edit]
    cases deleteOwned owner id s <;> rfl
  | recordAccess id n =>
    cases hbody
    rw [Statements.outcome_map (Statements.outcome_recordAccess s now id n), edit]
    cases s.recordAccess now id n <;> rfl
  | addContext id c =>
    obtain ⟨_, hc, hbody⟩ := bind_eq_ok.mp hbody
    cases hbody
    rw [Statements.outcome_map (Statements.outcome_addContext s now id c), edit, addContext, hc]
    rfl
  | relate r =>
    obtain ⟨_, hr, hbody⟩ := bind_eq_ok.mp hbody
    cases hbody
    rw [Statements.outcome_map (Statements.outcome_relate s now r), edit, relate, hr]
    rfl

/-- A request that is not acceptable fails as the step of the store does. -/
theorem edit_of_refused {x : Edit} {cause : Error} (h : e.statements now x = .error cause) :
    e.edit now s x = .error cause := by
  cases x with
  | create r =>
    have hr : e.prepare r = .error cause := bind_ok_eq_error.mp h
    rw [edit, create, hr]
    rfl
  | update id c =>
    have hc : e.prepareChanges c = .error cause := bind_ok_eq_error.mp h
    rw [edit, update, hc]
    rfl
  | delete | recordAccess => cases h
  | deleteOwned owner id =>
    have howner : Invalid.raise (Invalid.checkOwner owner) = .error cause := bind_ok_eq_error.mp h
    rw [edit, deleteOwned, howner]
    rfl
  | addContext id c =>
    have hc : Invalid.raise c.check = .error cause := bind_ok_eq_error.mp h
    rw [edit, addContext, hc]
    rfl
  | relate r =>
    have hr : Invalid.raise r.check = .error cause := bind_ok_eq_error.mp h
    rw [edit, relate, hr]
    rfl

theorem carryOut_eq (hs : s.Sound) (hnames : Store.DistinctNames s.tagNames) (x : Edit) :
    e.carryOut now x s = s.settled (e.edit now s x) := by
  unfold carryOut
  cases hbody : e.statements now x with
  | error cause =>
    rw [edit_of_refused hbody]
    rfl
  | ok body => exact Statements.transaction_eq (outcome_statements hs hnames hbody)

theorem map_snd_map {α β : Type} (x : Except Error (α × Store)) (f : α → β) :
    (·.2) <$> x.map (fun (a, s) => (f a, s)) = (·.2) <$> x := by
  cases x <;> rfl

/-- Operations of a run are the writes as steps of the store. -/
theorem act_operation (x : Edit) : e.act now s x.operation = (·.2) <$> e.edit now s x := by
  cases x with
  | create | update | addContext | relate => exact (map_snd_map _ _).symm
  | delete id => cases h : s.delete id <;> simp [act, Edit.operation, edit, h, Except.map]
  | deleteOwned owner id =>
    cases h : deleteOwned owner id s <;> simp [act, Edit.operation, edit, h, Except.map]
  | recordAccess id n =>
    cases h : s.recordAccess now id n <;> simp [act, Edit.operation, edit, h, Except.map]

end Engine

namespace World

variable {p : Engine → Prop} {w : World}

theorem Reached.serve_edit (hw : w.Reached p) (e : Engine) (x : Edit) :
    e.serve w (.edit x) = ((w.store.settled (e.edit w.clock w.store x)).1,
      { w with store := (w.store.settled (e.edit w.clock w.store x)).2 }) := by
  rw [← Engine.carryOut_eq hw.sound hw.distinctNames]
  rfl

/-- A write as a call is the same write as an operation of a run. -/
theorem Reached.perform_operation (hw : w.Reached p) (e : Engine) (x : Edit) :
    e.perform x.operation w = (e.serve w (.edit x)).2 := by
  have htick : Engine.tick w.clock x.operation = w.clock := by cases x <;> rfl
  rw [hw.serve_edit, Engine.perform, htick, Engine.act_operation]
  cases e.edit w.clock w.store x <;> rfl

/-- A write that fails leaves the world as it was. -/
theorem Reached.serve_failed (hw : w.Reached p) {e : Engine} {x : Edit} {cause : Error}
    (hfail : (e.serve w (.edit x)).1 = .error cause) :
    e.edit w.clock w.store x = .error cause ∧ (e.serve w (.edit x)).2 = w := by
  have hserve := hw.serve_edit e x
  rw [hserve] at hfail
  have hedit := Store.settled_fst_eq_error.mp hfail
  exact ⟨hedit, by rw [hserve, hedit, Store.settled_error]⟩

/-- A failed write leaves no trace: it fails before any of its statements has written, the world
after it is the one before it, and whatever happens later, all calls are answered alike. Questions
leave no trace either. -/
theorem failures_leave_no_trace (hw : w.Reached p) (e : Engine) :
    (∀ x, e.carryOut w.clock x w.store = w.store.settled (e.edit w.clock w.store x) ∧
      e.perform x.operation w = (e.serve w (.edit x)).2) ∧
    (∀ x cause, (e.serve w (.edit x)).1 = .error cause →
      (∀ body, e.statements w.clock x = .ok body →
        body.outcome w.store = (.error cause, w.store)) ∧
      (e.serve w (.edit x)).2 = w ∧
      ∀ (later : List (Engine × Operation)) (e' : Engine) (call : Call),
        e'.serve ((e.serve w (.edit x)).2.after later) call = e'.serve (w.after later) call) ∧
    ∀ q, (e.serve w (.ask q)).2 = w := by
  refine ⟨fun x => ⟨?_, hw.perform_operation e x⟩, ?_, fun q => rfl⟩
  · exact Engine.carryOut_eq hw.sound hw.distinctNames x
  · intro x cause hfail
    obtain ⟨hedit, hsame⟩ := hw.serve_failed hfail
    refine ⟨fun body hbody => ?_, hsame, fun later e' call => by rw [hsame]⟩
    rw [Engine.outcome_statements hw.sound hw.distinctNames hbody, hedit, Store.settled_error]

/-- A request for a memory with a parent that does not exist. -/
def orphan : NewMemory := { tea 5 with parent := some 9 }

theorem failures_leave_no_trace_orphan :
    (Engine.oneTag.serve (withTea ⟨0⟩ 5) (.edit (.create orphan))).1 =
        .error (.database .parentExists) ∧
      (Engine.oneTag.serve (withTea ⟨0⟩ 5) (.edit (.create orphan))).2 = withTea ⟨0⟩ 5 := by
  have hfail : (Engine.oneTag.serve (withTea ⟨0⟩ 5) (.edit (.create orphan))).1 =
      .error (.database .parentExists) := rfl
  obtain ⟨-, hedit, -⟩ := failures_leave_no_trace (reached_withTea ⟨0⟩ 5) .oneTag
  exact ⟨hfail, (hedit _ _ hfail).2.1⟩

/-- Of any calls only the writes that succeed matter for the world after them. -/
theorem Reached.afterCalls_written (hw : w.Reached p) {calls : List (Engine × Call)}
    (hcalls : ∀ c ∈ calls, p c.1) : w.afterCalls (w.written calls) = w.afterCalls calls := by
  induction calls generalizing w with
  | nil => rfl
  | cons c rest ih =>
    obtain ⟨e, call⟩ := c
    have hrest : ∀ c ∈ rest, p c.1 := fun c hc => hcalls c (List.mem_cons_of_mem _ hc)
    cases call with
    | ask q => exact ih hw hrest
    | edit x =>
      simp only [written, afterCalls]
      cases hanswer : (e.serve w (.edit x)).1 with
      | error cause =>
        rw [(hw.serve_failed hanswer).2]
        exact ih hw hrest
      | ok answer =>
        obtain ⟨clock, hruns⟩ := hw
        have hnext : (e.perform x.operation w).Reached p :=
          ⟨clock, hruns.tail ⟨e, _, hcalls (e, .edit x) List.mem_cons_self, rfl⟩⟩
        have hw : w.Reached p := ⟨clock, hruns⟩
        rw [hw.perform_operation] at hnext
        exact ih hnext hrest

end World

end LongTermMemory
