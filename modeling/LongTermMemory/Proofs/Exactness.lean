import LongTermMemory.Proofs.Binary
import LongTermMemory.Proofs.Single

/-!
Rounding is exact on the numbers of a format: a quotient that is one of them is rounded to itself.
Every power of two is a decimal, so every finite number in single precision has a decimal that is
read as it, by way of double precision.
-/

namespace LongTermMemory

namespace BinaryFormat

/-- The quotient `n / d` is `m · 2 ^ e`. -/
def Equals (n d m : Nat) (e : Int) : Prop := (inUnits n d e).1 = m * (inUnits n d e).2

theorem inUnits_snd_pos {d : Nat} (hd : 0 < d) (n : Nat) (e : Int) : 0 < (inUnits n d e).2 := by
  unfold inUnits
  split
  · exact Nat.lt_of_lt_of_eq (Nat.mul_pos hd (Nat.two_pow_pos _)) (Nat.shiftLeft_eq d _).symm
  · exact hd

theorem inUnits_fst_pos {n : Nat} (hn : 0 < n) (d : Nat) (e : Int) : 0 < (inUnits n d e).1 := by
  unfold inUnits
  split
  · exact hn
  · exact Nat.lt_of_lt_of_eq (Nat.mul_pos hn (Nat.two_pow_pos _)) (Nat.shiftLeft_eq n _).symm

/-- The exponent told as a difference, the powers of two stand on both sides. -/
theorem equals_of_mul_eq {n d m a b : Nat} {e : Int} (he : e = b - a)
    (h : n * 2 ^ a = m * d * 2 ^ b) : Equals n d m e := by
  unfold Equals inUnits
  split
  · next hpos =>
    obtain ⟨k, rfl⟩ : ∃ k, b = k + a := ⟨b - a, by omega⟩
    have hk : e.toNat = k := by omega
    refine Nat.eq_of_mul_eq_mul_right (Nat.two_pow_pos a) ?_
    rw [h, hk, Nat.shiftLeft_eq, pow_add]
    ring
  · next hneg =>
    obtain ⟨k, rfl⟩ : ∃ k, a = k + b := ⟨a - b, by omega⟩
    have hk : (-e).toNat = k := by omega
    refine Nat.eq_of_mul_eq_mul_right (Nat.two_pow_pos b) ?_
    rw [← h, hk, Nat.shiftLeft_eq, pow_add]
    ring

namespace Equals

variable {n d m : Nat} {e : Int}

theorem wholeUnits_eq (h : Equals n d m e) (hd : 0 < d) : wholeUnits n d e = m := by
  unfold wholeUnits
  rw [h]
  exact Nat.mul_div_cancel _ (inUnits_snd_pos hd n e)

theorem roundQuotient_eq (h : Equals n d m e) (hd : 0 < d) :
    roundQuotient (inUnits n d e).1 (inUnits n d e).2 = m := by
  have hpos := inUnits_snd_pos hd n e
  rw [h]
  unfold roundQuotient
  simp [Nat.mul_div_cancel _ hpos, hpos]

end Equals

/-! ## The chosen exponent -/

/-- The lengths of the two numbers bound the quotient from below, too. -/
theorem le_wholeUnits {n d p : Nat} (hn : 0 < n) (hd : 0 < d) (hp : 0 < p) :
    2 ^ (p - 1) ≤ wholeUnits n d ((Nat.log2 n : Int) - Nat.log2 d - p) := by
  have hpow : 2 ^ Nat.log2 n ≤ n := Nat.log2_self_le (by omega)
  have hd' : d ≤ 2 ^ (Nat.log2 d + 1) := Nat.lt_log2_self.le
  generalize Nat.log2 n = a at *
  generalize Nat.log2 d = b at *
  unfold wholeUnits inUnits
  split
  · next hlow =>
    have ha : a = p - 1 + (b + 1 + ((a : Int) - b - p).toNat) := by omega
    rw [ha] at hpow
    generalize ((a : Int) - b - p).toNat = k at *
    simp only [Nat.shiftLeft_eq]
    refine (Nat.le_div_iff_mul_le (Nat.mul_pos hd (Nat.two_pow_pos k))).mpr (le_trans ?_ hpow)
    rw [pow_add _ (p - 1), pow_add _ (b + 1)]
    exact Nat.mul_le_mul_left _ (Nat.mul_le_mul_right _ hd')
  · next hlow =>
    have hb : a + (-((a : Int) - b - p)).toNat = p - 1 + (b + 1) := by omega
    generalize (-((a : Int) - b - p)).toNat = k at *
    simp only [Nat.shiftLeft_eq]
    refine (Nat.le_div_iff_mul_le hd).mpr ?_
    calc 2 ^ (p - 1) * d ≤ 2 ^ (p - 1) * 2 ^ (b + 1) := Nat.mul_le_mul_left _ hd'
      _ = 2 ^ a * 2 ^ k := by rw [← pow_add, ← pow_add, hb]
      _ ≤ n * 2 ^ k := Nat.mul_le_mul_right _ hpow

/-- Above the least exponent the whole part has as many bits as the format keeps. -/
theorem le_wholeUnits_exponentFor {f : BinaryFormat} {n d : Nat} (hp : 0 < f.precision)
    (hn : 0 < n) (hd : 0 < d) (he : f.minExponent < f.exponentFor n d) :
    2 ^ (f.precision - 1) ≤ wholeUnits n d (f.exponentFor n d) := by
  have hlow := le_wholeUnits hn hd hp
  revert he
  unfold exponentFor
  generalize ((Nat.log2 n : Int) - Nat.log2 d - f.precision) = low at *
  dsimp only
  rw [Nat.one_shiftLeft]
  split
  · next hlong =>
    intro he
    have hlong : 2 ^ f.precision ≤ wholeUnits n d low := hlong
    rw [max_eq_right (by omega), wholeUnits_succ]
    refine (Nat.le_div_iff_mul_le Nat.zero_lt_two).mpr ?_
    rwa [← pow_succ, Nat.sub_add_cancel hp]
  · intro he
    rwa [max_eq_right (by omega)]

/-- The exponent chosen for a number of the format is its own. -/
theorem exponentFor_eq {f : BinaryFormat} {n d m : Nat} {e : Int} (h : Equals n d m e)
    (hd : 0 < d) (hn : 0 < n) (hp : 0 < f.precision) (hm : m < 2 ^ f.precision)
    (hlow : f.minExponent ≤ e) (hnormal : 2 ^ (f.precision - 1) ≤ m ∨ e = f.minExponent) :
    f.exponentFor n d = e := by
  have hexact := h.wholeUnits_eq hd
  have htop : 2 ^ f.precision = 2 * 2 ^ (f.precision - 1) := by
    rw [← pow_succ', Nat.sub_add_cancel hp]
  have hmin : f.minExponent ≤ f.exponentFor n d := Int.le_max_left ..
  rcases Int.lt_trichotomy (f.exponentFor n d) e with hlt | heq | hgt
  · -- finer units would be too many
    have hlong := wholeUnits_exponentFor_lt f n d
    have hfine := wholeUnits_antitone n d (Int.le_sub_one_of_lt hlt)
    have hhalf := wholeUnits_succ n d (e - 1)
    rw [Int.sub_add_cancel, hexact] at hhalf
    omega
  · exact heq
  · -- coarser units would be too few
    have hshort := le_wholeUnits_exponentFor hp hn hd (by omega)
    have hcoarse := wholeUnits_antitone n d (Int.add_one_le_of_lt hgt)
    rw [wholeUnits_succ, hexact] at hcoarse
    omega

/-- A number of the format is rounded to itself. -/
theorem nearest_eq {f : BinaryFormat} {n d m : Nat} {e : Int} (h : Equals n d m e) (hd : 0 < d)
    (hn : 0 < n) (hp : 0 < f.precision) (hm : m < 2 ^ f.precision) (hlow : f.minExponent ≤ e)
    (hhigh : e ≤ f.maxExponent) (hnormal : 2 ^ (f.precision - 1) ≤ m ∨ e = f.minExponent) :
    f.nearest n d = some (m, e) := by
  unfold nearest
  dsimp only
  rw [exponentFor_eq h hd hn hp hm hlow hnormal, h.roundQuotient_eq hd, Nat.one_shiftLeft,
    if_neg hm.ne, if_neg (Int.not_lt.mpr hhigh)]

end BinaryFormat

/-! ## Numbers in single precision -/

namespace Single

/-- A finite number by its sign, mantissa and exponent. -/
theorem value_of_isFinite {x : Single} (h : x.isFinite = true) :
    ∃ m e, x.value = .finite x.negative m e ∧ m < 2 ^ 24 ∧ -149 ≤ e ∧ e ≤ 104 ∧
      (2 ^ 23 ≤ m ∨ e = -149) ∧ (e + 149).toNat * hiddenBit + m = x.magnitudeBits := by
  have hfinite : x.magnitudeBits < infinityBits := of_decide_eq_true h
  unfold infinityBits at hfinite
  unfold value hiddenBit
  dsimp only
  rw [if_neg (by omega)]
  split
  · next hzero => exact ⟨_, _, rfl, by omega, by omega, by omega, Or.inr rfl, by omega⟩
  · next hpos => exact ⟨_, _, rfl, by omega, by omega, by omega, Or.inl (by omega), by omega⟩

/-- The bits of a number are its sign and its magnitude. -/
theorem ofBits_magnitudeBits (x : Single) : ofBits x.negative x.magnitudeBits = x := by
  obtain ⟨bits⟩ := x
  have hlt : bits.toNat < 2 ^ 32 := bits.toNat_lt
  have hsum : bits.toNat % signBit + (if signBit ≤ bits.toNat then signBit else 0) =
      bits.toNat := by
    unfold signBit
    split <;> omega
  simp only [ofBits, negative, magnitudeBits, decide_eq_true_eq, hsum, UInt32.ofNat_toNat]

/-- Some power of two may go from the exponent into the mantissa. -/
theorem equals_inUnits (m j : Nat) (e : Int) :
    BinaryFormat.Equals (BinaryFormat.inUnits (m * 2 ^ j) 1 (-(e - j))).1
      (BinaryFormat.inUnits (m * 2 ^ j) 1 (-(e - j))).2 m e := by
  unfold BinaryFormat.inUnits
  split
  · refine BinaryFormat.equals_of_mul_eq (a := (-(e - j)).toNat) (b := j) (by omega) ?_
    simp only [Nat.one_shiftLeft]
    ring
  · next hneg =>
    obtain ⟨k, rfl⟩ : ∃ k : Nat, e = ((j + k : Nat) : Int) := ⟨(e - j).toNat, by omega⟩
    refine BinaryFormat.equals_of_mul_eq (a := 0) (b := j + k) (by omega) ?_
    have hk : (- -(((j + k : Nat) : Int) - j)).toNat = k := by omega
    simp only [hk, Nat.shiftLeft_eq]
    ring

/-- A positive number of the format is the nearest to itself, however it is scaled. -/
theorem ofScaled_eq {m : Nat} {e : Int} (negative : Bool) (j : Nat) (hm : 0 < m) (hlt : m < 2 ^ 24)
    (hlow : -149 ≤ e) (hhigh : e ≤ 104) (hnormal : 2 ^ 23 ≤ m ∨ e = -149) :
    ofScaled negative (m * 2 ^ j) (e - j) =
      ofBits negative ((e + 149).toNat * hiddenBit + m) := by
  have hequal := equals_inUnits m j e
  have hn := BinaryFormat.inUnits_fst_pos (Nat.mul_pos hm (Nat.two_pow_pos j)) 1 (-(e - j))
  have hd := BinaryFormat.inUnits_snd_pos Nat.one_pos (m * 2 ^ j) (-(e - j))
  unfold ofScaled ofQuotient
  dsimp only
  rw [if_neg hn.ne', BinaryFormat.nearest_eq (f := .single) hequal hd hn (by decide) hlt hlow hhigh
    hnormal]

/-! ## Decimals -/

/-- So many times the least number of the format, `2 ^ (-149)`, which is `5 ^ 149 · 10 ^ (-149)`. -/
def ofLeast (negative : Bool) (k : Nat) : Decimal := ⟨negative, k * 5 ^ 149, -149⟩

theorem ofDecimal?_ofLeast (negative : Bool) {k : Nat} (hk : 0 < k) :
    ofDecimal? (ofLeast negative k) = throughDouble? negative (k * 5 ^ 149) (10 ^ 149) := by
  have hread (d : Decimal) :
      ofDecimal? d = throughDouble? d.negative d.quotient.1 d.quotient.2 := rfl
  have hquotient : (ofLeast negative k).quotient = (k * 5 ^ 149, 10 ^ 149) := by
    have hcoefficient : 0 < k * 5 ^ 149 := Nat.mul_pos hk (Nat.pow_pos (by decide))
    unfold Decimal.quotient ofLeast Decimal.outOfReach
    dsimp only
    rw [if_neg (by omega), if_neg (by decide)]
    rfl
  rw [hread, hquotient, ofLeast]

/-- Double precision keeps every number of the format. -/
theorem throughDouble?_eq {m : Nat} {e : Int} (negative : Bool) (hm : 0 < m) (hlt : m < 2 ^ 24)
    (hlow : -149 ≤ e) (hhigh : e ≤ 104) (hnormal : 2 ^ 23 ≤ m ∨ e = -149) :
    throughDouble? negative (m * 2 ^ (e + 149).toNat * 5 ^ 149) (10 ^ 149) =
      some (ofBits negative ((e + 149).toNat * hiddenBit + m)) := by
  obtain ⟨t, rfl⟩ : ∃ t : Nat, e = t - 149 := ⟨(e + 149).toNat, by omega⟩
  have hlog : Nat.log2 m < 24 := (Nat.log2_lt hm.ne').mpr hlt
  -- the mantissa in double precision has all its 53 bits
  obtain ⟨j, hj, hlarge, hsmall⟩ : ∃ j ≤ 52, 2 ^ 52 ≤ m * 2 ^ j ∧ m * 2 ^ j < 2 ^ 53 := by
    refine ⟨52 - Nat.log2 m, Nat.sub_le .., ?_, ?_⟩
    · have hbits : 52 = Nat.log2 m + (52 - Nat.log2 m) := by omega
      calc 2 ^ 52 = 2 ^ Nat.log2 m * 2 ^ (52 - Nat.log2 m) := by rw [← pow_add, ← hbits]
        _ ≤ m * 2 ^ (52 - Nat.log2 m) := Nat.mul_le_mul_right _ (Nat.log2_self_le hm.ne')
    · have hbits : Nat.log2 m + 1 + (52 - Nat.log2 m) = 53 := by omega
      calc m * 2 ^ (52 - Nat.log2 m) < 2 ^ (Nat.log2 m + 1) * 2 ^ (52 - Nat.log2 m) :=
            Nat.mul_lt_mul_of_pos_right Nat.lt_log2_self (Nat.two_pow_pos _)
        _ = 2 ^ 53 := by rw [← pow_add, hbits]
  have hscaled := ofScaled_eq negative j hm hlt hlow hhigh hnormal
  have htoNat : ((t : Int) - 149 + 149).toNat = t := by omega
  rw [htoNat] at hscaled ⊢
  have hequal : BinaryFormat.Equals (m * 2 ^ t * 5 ^ 149) (10 ^ 149) (m * 2 ^ j)
      ((t : Int) - 149 - j) := by
    have hten : 10 ^ 149 = 2 ^ 149 * 5 ^ 149 := (Nat.mul_pow 2 5 149).symm
    refine BinaryFormat.equals_of_mul_eq (a := j + 149) (b := t) (by omega) ?_
    rw [hten, pow_add]
    ring
  have hn : 0 < m * 2 ^ t * 5 ^ 149 :=
    Nat.mul_pos (Nat.mul_pos hm (Nat.two_pow_pos t)) (Nat.pow_pos (by decide))
  unfold throughDouble?
  rw [if_neg hn.ne', BinaryFormat.nearest_eq (f := .double) hequal (Nat.pow_pos (by decide)) hn
    (by decide) hsmall (by simp only [BinaryFormat.double]; omega)
    (by simp only [BinaryFormat.double]; omega) (Or.inl hlarge)]
  exact congrArg some hscaled

/-- All digits of a finite number. -/
def exactly (x : Single) : Decimal :=
  match x.value with
  | .finite s m e => ofLeast s (m * 2 ^ (e + 149).toNat)
  | _ => ⟨x.negative, 0, 0⟩

/-- A finite number is read from its digits. -/
theorem ofDecimal?_exactly {x : Single} (h : x.isFinite = true) :
    ofDecimal? x.exactly = some x := by
  obtain ⟨m, e, hvalue, hlt, hlow, hhigh, hnormal, hbits⟩ := value_of_isFinite h
  have hexactly : x.exactly = ofLeast x.negative (m * 2 ^ (e + 149).toNat) := by
    rw [exactly, hvalue]
  rw [hexactly]
  rcases Nat.eq_zero_or_pos m with rfl | hm
  · obtain rfl : e = -149 := hnormal.resolve_left (by decide)
    have hzero : x.magnitudeBits = 0 := hbits.symm
    have hread : ofDecimal? (ofLeast x.negative (0 * 2 ^ (-149 + 149 : Int).toNat)) =
        some (ofBits x.negative 0) := by
      rw [Nat.zero_mul]
      rfl
    rw [hread, ← hzero, ofBits_magnitudeBits]
  · rw [ofDecimal?_ofLeast _ (Nat.mul_pos hm (Nat.two_pow_pos _)),
      throughDouble?_eq _ hm hlt hlow hhigh hnormal, hbits, ofBits_magnitudeBits]

end Single

end LongTermMemory
