import LongTermMemory.Store
import LongTermMemory.Validation

/-!
Outcomes of steps that may fail: a sequence gives a result only when each of its steps does, and a
check passes only when what it asks for holds.
-/

namespace LongTermMemory

theorem bind_eq_ok {ε α β : Type} {x : Except ε α} {f : α → Except ε β} {b : β} :
    (x >>= f) = .ok b ↔ ∃ a, x = .ok a ∧ f a = .ok b := by
  cases x with
  | error err => simp [Bind.bind, Except.bind]
  | ok a => simp [Bind.bind, Except.bind]

/-- When no later step can fail, the first one does. -/
theorem bind_ok_eq_error {ε α β : Type} {x : Except ε α} {g : α → β} {err : ε} :
    (x >>= fun a => .ok (g a)) = .error err ↔ x = .error err := by
  cases x with
  | error err' => simp [Bind.bind, Except.bind]
  | ok a => simp [Bind.bind, Except.bind]

theorem map_snd_eq_ok {ε α β : Type} {x : Except ε (α × β)} {b : β} :
    (·.2) <$> x = .ok b ↔ ∃ a, x = .ok (a, b) := by
  cases x with
  | error err => simp [Functor.map, Except.map]
  | ok p =>
    obtain ⟨a, b'⟩ := p
    simp [Functor.map, Except.map]

theorem forM_eq_ok {α ε : Type} {f : α → Except ε Unit} {l : List α} {u : Unit} :
    l.forM f = .ok u ↔ ∀ a ∈ l, f a = .ok () := by
  induction l with
  | nil => simp [List.forM, pure, Except.pure]
  | cons a l ih =>
    have hcons : (a :: l).forM f = (f a >>= fun _ => l.forM f) := rfl
    rw [hcons, bind_eq_ok, List.forall_mem_cons]
    simp only [ih, exists_and_right]
    exact and_congr_left fun _ => ⟨fun ⟨_, h⟩ => h, fun h => ⟨(), h⟩⟩

namespace Invalid

@[simp] theorem raise_eq_ok {α : Type} {x : Except Invalid α} {a : α} :
    raise x = .ok a ↔ x = .ok a := by
  cases x <;> simp [raise]

@[simp] theorem ensure_eq_ok {p : Bool} {cause : Invalid} {u : Unit} :
    ensure p cause = .ok u ↔ p = true := by
  cases p <;> simp [ensure]

@[simp] theorem ifPresent_eq_ok {α : Type} {check : α → Except Invalid Unit} {o : Option α}
    {u : Unit} : ifPresent check o = .ok u ↔ ∀ a, o = some a → check a = .ok () := by
  cases o <;> simp [ifPresent]

theorem raise_checkOwner {owner : String} (h : Text.blank owner = false) :
    raise (checkOwner owner) = .ok () := by
  simp [checkOwner, h]

theorem checkLimit_eq_ok {limit : Int} : checkLimit limit = .ok () ↔ 0 ≤ limit := by
  simp [checkLimit]

end Invalid

@[simp] theorem Store.requireConstraint_eq_ok {p : Bool} {c : Constraint} {u : Unit} :
    requireConstraint p c = .ok u ↔ p = true := by
  cases p <;> simp [requireConstraint]

end LongTermMemory
