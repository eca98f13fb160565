import LongTermMemory.Binary
import Mathlib.Algebra.Order.Ring.Nat
import Mathlib.Tactic.Ring

/-!
Rounding to nearest stays within the format: the mantissa has no more bits than the precision
allows, and the exponent is at most the greatest one.
-/

namespace LongTermMemory.BinaryFormat

/-- The whole part of the quotient `n / d` in units of `2 ^ e`. -/
def wholeUnits (n d : Nat) (e : Int) : Nat := (inUnits n d e).1 / (inUnits n d e).2

/-- Units of twice the size are half as many. -/
theorem wholeUnits_succ (n d : Nat) (e : Int) : wholeUnits n d (e + 1) = wholeUnits n d e / 2 := by
  unfold wholeUnits inUnits
  by_cases he : 0 ≤ e
  · obtain ⟨k, rfl⟩ := Int.eq_ofNat_of_zero_le he
    have hsucc : ((k : Int) + 1).toNat = k + 1 := by omega
    rw [if_pos (by omega), if_pos he]
    simp only [hsucc, Int.toNat_natCast, Nat.shiftLeft_eq]
    rw [Nat.div_div_eq_div_mul, Nat.mul_assoc, ← pow_succ]
  · obtain ⟨k, rfl⟩ : ∃ k : Nat, e = -((k : Int) + 1) := ⟨(-e - 1).toNat, by omega⟩
    have hnext : -(-((k : Int) + 1) + 1) = k := by omega
    have hlow : (-(-((k : Int) + 1))).toNat = k + 1 := by omega
    have hhalf : n * 2 ^ (k + 1) / d / 2 = n * 2 ^ k / d := by
      rw [Nat.div_div_eq_div_mul, pow_succ, ← Nat.mul_assoc]
      exact Nat.mul_div_mul_right _ _ Nat.zero_lt_two
    rw [if_neg he]
    dsimp only
    rw [hlow]
    by_cases hk : k = 0
    · subst hk
      rw [if_pos (by omega)]
      simpa [Nat.shiftLeft_eq] using hhalf.symm
    · rw [if_neg (by omega), hnext]
      simpa [Nat.shiftLeft_eq] using hhalf.symm

/-- Greater units are fewer. -/
theorem wholeUnits_antitone (n d : Nat) {e e' : Int} (h : e ≤ e') :
    wholeUnits n d e' ≤ wholeUnits n d e := by
  obtain ⟨k, rfl⟩ := Int.le.dest h
  clear h
  induction k with
  | zero => simp
  | succ k ih =>
    rw [Nat.cast_succ, ← Int.add_assoc, wholeUnits_succ]
    exact (Nat.div_le_self _ _).trans ih

/-- By the lengths of the two numbers alone the quotient is known up to one bit. -/
theorem wholeUnits_lt (n d p : Nat) :
    wholeUnits n d ((Nat.log2 n : Int) - Nat.log2 d - p) < 2 ^ (p + 1) := by
  rcases Nat.eq_zero_or_pos d with rfl | hd
  · unfold wholeUnits inUnits
    split <;> simp
  · have hn : n < 2 ^ (Nat.log2 n + 1) := Nat.lt_log2_self
    have hpow : 2 ^ Nat.log2 d ≤ d := Nat.log2_self_le (by omega)
    generalize Nat.log2 n = a at *
    generalize Nat.log2 d = b at *
    unfold wholeUnits inUnits
    split
    · next hlow =>
      have ha : a + 1 = p + 1 + (b + ((a : Int) - b - p).toNat) := by omega
      rw [ha] at hn
      generalize ((a : Int) - b - p).toNat = k at *
      simp only [Nat.shiftLeft_eq]
      refine (Nat.div_lt_iff_lt_mul (Nat.mul_pos hd (Nat.two_pow_pos k))).mpr (hn.trans_le ?_)
      rw [pow_add _ (p + 1), pow_add _ b]
      exact Nat.mul_le_mul_left _ (Nat.mul_le_mul_right _ hpow)
    · next hlow =>
      have hb : a + 1 + (-((a : Int) - b - p)).toNat = p + 1 + b := by omega
      generalize (-((a : Int) - b - p)).toNat = k at *
      simp only [Nat.shiftLeft_eq]
      refine (Nat.div_lt_iff_lt_mul hd).mpr ?_
      calc n * 2 ^ k < 2 ^ (a + 1) * 2 ^ k := Nat.mul_lt_mul_of_pos_right hn (Nat.two_pow_pos k)
        _ = 2 ^ (p + 1) * 2 ^ b := by rw [← pow_add, ← pow_add, hb]
        _ ≤ 2 ^ (p + 1) * d := Nat.mul_le_mul_left _ hpow

/-- At the chosen exponent the whole part has as many bits as the format keeps, or fewer. -/
theorem wholeUnits_exponentFor_lt (f : BinaryFormat) (n d : Nat) :
    wholeUnits n d (f.exponentFor n d) < 2 ^ f.precision := by
  have hlow := wholeUnits_lt n d f.precision
  unfold exponentFor
  generalize ((Nat.log2 n : Int) - Nat.log2 d - f.precision) = low at *
  have hone : 1 <<< f.precision = 2 ^ f.precision := Nat.one_shiftLeft _
  dsimp only
  rw [hone]
  split
  · next hlong =>
    refine (wholeUnits_antitone n d (Int.le_max_right f.minExponent (low + 1))).trans_lt ?_
    rw [wholeUnits_succ]
    exact Nat.div_lt_of_lt_mul (by rwa [Nat.mul_comm, ← pow_succ])
  · next hshort =>
    exact (wholeUnits_antitone n d (Int.le_max_right f.minExponent low)).trans_lt
      (Nat.not_le.mp hshort)

theorem roundQuotient_le (n d : Nat) : roundQuotient n d ≤ n / d + 1 := by
  unfold roundQuotient
  dsimp only
  split
  · exact Nat.le_succ _
  · exact Nat.le_refl _

/-- What is rounded fits into the format. -/
theorem nearest_fits {f : BinaryFormat} {n d m : Nat} {e : Int}
    (h : f.nearest n d = some (m, e)) : m < 2 ^ f.precision ∧ e ≤ f.maxExponent := by
  have hround : roundQuotient (inUnits n d (f.exponentFor n d)).1
      (inUnits n d (f.exponentFor n d)).2 ≤ 2 ^ f.precision :=
    (roundQuotient_le _ _).trans (wholeUnits_exponentFor_lt f n d)
  unfold nearest at h
  dsimp only at h
  rw [Nat.one_shiftLeft] at h
  generalize f.exponentFor n d = e₀ at h hround
  generalize roundQuotient (inUnits n d e₀).1 (inUnits n d e₀).2 = m₀ at h hround
  by_cases hfull : m₀ = 2 ^ f.precision
  · rw [if_pos hfull] at h
    dsimp only at h
    split at h
    · cases h
    · next hmax =>
      cases h
      refine ⟨?_, Int.not_lt.mp hmax⟩
      rw [hfull]
      exact Nat.div_lt_self (Nat.two_pow_pos _) Nat.one_lt_two
  · rw [if_neg hfull] at h
    dsimp only at h
    split at h
    · cases h
    · next hmax =>
      cases h
      exact ⟨Nat.lt_of_le_of_ne hround hfull, Int.not_lt.mp hmax⟩

end LongTermMemory.BinaryFormat
