import LongTermMemory.Proofs.Binary
import LongTermMemory.Single

/-!
Numbers in the unit interval stay in it when a column of the database keeps them. A rounded quotient
is always a number or infinite, and clamped it lies in the unit interval.
-/

namespace LongTermMemory.Single

theorem inUnit_zero : zero.inUnit = true := by decide

theorem inUnit_one : one.inUnit = true := by decide

theorem stored_one : one.stored = one := by decide

/-- A number is kept as an equal one. -/
theorem place_stored (x : Single) : x.stored.place = x.place := by
  unfold stored
  split
  · next hzero =>
    have hplace : x.place = 0 := by
      unfold place
      split <;> simp [hzero]
    rw [hplace]
    decide
  · rfl

theorem isNaN_stored (x : Single) : x.stored.isNaN = x.isNaN := by
  unfold stored
  split
  · next hzero =>
    rw [isNaN, isNaN, hzero]
    decide
  · rfl

theorem inUnit_stored_eq (x : Single) : x.stored.inUnit = x.inUnit := by
  simp only [inUnit, le, isNaN_stored, place_stored]

theorem inUnit_stored {x : Single} (h : x.inUnit = true) : x.stored.inUnit = true := by
  rw [inUnit_stored_eq, h]

/-! ## The greatest of some numbers -/

theorem isNaN_of_inUnit {x : Single} (h : x.inUnit = true) : x.isNaN = false := by
  simp only [inUnit, le, Bool.and_eq_true, Bool.not_eq_true'] at h
  exact h.1.1.2

theorem le_refl {x : Single} (hx : x.isNaN = false) : x.le x = true := by
  simp [le, hx]

theorem le_trans {x y z : Single} (hxy : x.le y = true) (hyz : y.le z = true) :
    x.le z = true := by
  simp only [le, Bool.and_eq_true, decide_eq_true_eq] at hxy hyz ⊢
  exact ⟨⟨hxy.1.1, hyz.1.2⟩, Int.le_trans hxy.2 hyz.2⟩

theorem max_eq_or (x y : Single) : x.max y = x ∨ x.max y = y := by
  unfold max
  split
  · exact Or.inr rfl
  · exact Or.inl rfl

theorem le_max {x y : Single} (hx : x.isNaN = false) (hy : y.isNaN = false) :
    x.le (x.max y) = true ∧ y.le (x.max y) = true := by
  unfold max
  split
  · next h =>
    simp only [hx, lt, hy, Bool.not_false, Bool.true_and, Bool.false_or, decide_eq_true_eq] at h
    exact ⟨by simp [le, hx, hy, Int.le_of_lt h], le_refl hy⟩
  · next h =>
    simp only [hx, lt, hy, Bool.not_false, Bool.true_and, Bool.false_or, decide_eq_true_eq] at h
    exact ⟨le_refl hx, by simp [le, hx, hy, Int.not_lt.mp h]⟩

theorem foldl_max_mem (x : Single) (values : List Single) :
    values.foldl max x ∈ x :: values := by
  induction values generalizing x with
  | nil => exact List.mem_singleton_self x
  | cons y rest ih =>
    rw [List.foldl_cons]
    rcases List.mem_cons.mp (ih (x.max y)) with heq | hrest
    · rw [heq]
      rcases max_eq_or x y with h | h <;> simp [h]
    · exact List.mem_cons_of_mem _ (List.mem_cons_of_mem _ hrest)

theorem le_foldl_max {x : Single} {values : List Single} (h : ∀ y ∈ x :: values, y.isNaN = false) :
    ∀ y ∈ x :: values, y.le (values.foldl max x) = true := by
  induction values generalizing x with
  | nil => simpa [le] using h
  | cons z rest ih =>
    obtain ⟨hx, hz, hrest⟩ : x.isNaN = false ∧ z.isNaN = false ∧ ∀ y ∈ rest, y.isNaN = false := by
      simpa using h
    have hmax : (x.max z).isNaN = false := by
      rcases max_eq_or x z with heq | heq <;> rw [heq] <;> assumption
    have hlater := ih (List.forall_mem_cons.mpr ⟨hmax, hrest⟩)
    have hfold := hlater (x.max z) List.mem_cons_self
    obtain ⟨hxmax, hzmax⟩ := le_max hx hz
    rw [List.foldl_cons]
    refine List.forall_mem_cons.mpr ⟨le_trans hxmax hfold, List.forall_mem_cons.mpr
      ⟨le_trans hzmax hfold, fun y hy => hlater y (List.mem_cons_of_mem _ hy)⟩⟩

/-! ## Rounded quotients -/

theorem magnitudeBits_ofBits (negative : Bool) {magnitude : Nat} (h : magnitude < signBit) :
    (ofBits negative magnitude).magnitudeBits = magnitude := by
  unfold signBit at h
  cases negative <;>
    simp only [magnitudeBits, ofBits, signBit, UInt32.toNat_ofNat', Bool.false_eq_true,
      ↓reduceIte] <;>
    omega

theorem isNaN_ofQuotient (negative : Bool) (n d : Nat) :
    (ofQuotient negative n d).isNaN = false := by
  have hbits : ∀ magnitude ≤ infinityBits, (ofBits negative magnitude).isNaN = false := by
    intro magnitude hle
    have hlt : magnitude < signBit := Nat.lt_of_le_of_lt hle (by decide)
    rw [isNaN, magnitudeBits_ofBits negative hlt]
    exact decide_eq_false (Nat.not_lt.mpr hle)
  unfold ofQuotient
  split
  · exact hbits 0 (Nat.zero_le _)
  · split
    · exact hbits infinityBits (Nat.le_refl _)
    · next m e hnearest =>
      obtain ⟨hm, he⟩ := BinaryFormat.nearest_fits hnearest
      refine hbits _ ?_
      simp only [BinaryFormat.single, hiddenBit, infinityBits] at hm he ⊢
      omega

theorem inUnit_clampUnit {x : Single} (h : x.isNaN = false) : x.clampUnit.inUnit = true := by
  have hzero : zero.isNaN = false := isNaN_ofQuotient false 0 1
  have hone : one.isNaN = false := isNaN_ofQuotient false 1 1
  unfold clampUnit
  split
  · exact inUnit_zero
  · split
    · exact inUnit_one
    · next hlow hhigh =>
      simp only [lt, h, hzero, hone, Bool.not_false, Bool.true_and, decide_eq_true_eq] at hlow hhigh
      simp only [inUnit, le, h, hzero, hone, Bool.not_false, Bool.true_and, Bool.and_eq_true,
        decide_eq_true_eq]
      omega

end LongTermMemory.Single
