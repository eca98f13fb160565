import LongTermMemory.Proofs.Calendar
import Mathlib.Algebra.Order.Ring.Nat
import Mathlib.Data.List.Forall2

/-!
Written instants in the order of time. The fields of a stamp have fixed widths, so that stamps
compare as their fields do one after another; only the fraction of the second varies in length, and
what ends a shorter one comes before every digit.
-/

namespace LongTermMemory

/-! ## Lists that differ -/

/-- Two lists differ, and where they first do the first has the lesser member, whatever follows. -/
def FirstLess {α : Type} [LT α] (l l' : List α) : Prop :=
  ∃ front a b rest rest', l = front ++ a :: rest ∧ l' = front ++ b :: rest' ∧ a < b

namespace FirstLess

variable {α : Type} [LT α] {l l' : List α}

theorem head {a b : α} (h : a < b) (l l' : List α) : FirstLess (a :: l) (b :: l') :=
  ⟨[], a, b, l, l', rfl, rfl, h⟩

theorem append (h : FirstLess l l') (x y : List α) : FirstLess (l ++ x) (l' ++ y) := by
  obtain ⟨front, a, b, rest, rest', rfl, rfl, hab⟩ := h
  exact ⟨front, a, b, rest ++ x, rest' ++ y, by simp, by simp, hab⟩

theorem prepend (front : List α) (h : FirstLess l l') : FirstLess (front ++ l) (front ++ l') := by
  obtain ⟨shared, a, b, rest, rest', rfl, rfl, hab⟩ := h
  exact ⟨front ++ shared, a, b, rest, rest', by simp, by simp, hab⟩

theorem lt (h : FirstLess l l') : l < l' := by
  obtain ⟨front, a, b, rest, rest', rfl, rfl, hab⟩ := h
  exact List.append_left_lt (List.cons_lt_cons_iff.mpr (Or.inl hab))

end FirstLess

namespace Instant

/-! ## Digits -/

/-- The last `width` decimal digits of a number. -/
def digits : Nat → Nat → List Char
  | 0, _ => []
  | width + 1, n => digits width (n / 10) ++ [Nat.digitChar (n % 10)]

theorem digitChar_lt : ∀ i < 10, ∀ j < 10, i < j → Nat.digitChar i < Nat.digitChar j := by
  decide

theorem digits_zero (width : Nat) : digits width 0 = List.replicate width '0' := by
  induction width with
  | zero => rfl
  | succ width ih => rw [digits, ih, List.replicate_succ']; rfl

theorem toList_padded {width n : Nat} (h : n < 10 ^ (width + 1)) :
    (padded (width + 1) n).toList = digits (width + 1) n := by
  rw [padded, String.toList_ofList]
  induction width generalizing n with
  | zero =>
    rw [Nat.toDigits_of_lt_base (by omega)]
    simp [digits, Nat.mod_eq_of_lt (show n < 10 by omega)]
  | succ width ih =>
    rw [Nat.toDigits_eq_if (by decide)]
    split
    · next hsmall =>
      rw [digits, Nat.div_eq_of_lt hsmall, digits_zero, Nat.mod_eq_of_lt hsmall]
      rfl
    · have hquotient : n / 10 < 10 ^ (width + 1) := by
        rw [Nat.pow_succ] at h
        omega
      rw [digits, ← ih hquotient, List.length_append, List.length_singleton,
        Nat.add_sub_add_right, List.append_assoc]

/-- Numbers written with the same number of digits compare as their texts do. -/
theorem digits_firstLess {width n m : Nat} (h : n < m) (hm : m < 10 ^ width) :
    FirstLess (digits width n) (digits width m) := by
  induction width generalizing n m with
  | zero => omega
  | succ width ih =>
    rcases Nat.lt_or_eq_of_le (Nat.div_le_div_right (c := 10) (Nat.le_of_lt h)) with hless | heq
    · refine (ih hless ?_).append _ _
      rw [Nat.pow_succ] at hm
      omega
    · rw [digits, digits, heq]
      exact .prepend _ (.head (digitChar_lt _ (by omega) _ (by omega) (by omega)) [] [])

theorem digits_mod (width n : Nat) : digits width (n % 10 ^ width) = digits width n := by
  induction width generalizing n with
  | zero => rfl
  | succ width ih =>
    have hquotient : n % 10 ^ (width + 1) / 10 = n / 10 % 10 ^ width := by
      rw [Nat.pow_succ', Nat.mod_mul_right_div_self]
    have hlast : n % 10 ^ (width + 1) % 10 = n % 10 :=
      Nat.mod_mod_of_dvd n ⟨10 ^ width, Nat.pow_succ'⟩
    rw [digits, digits, hquotient, hlast, ih]

theorem digits_add (width k n : Nat) :
    digits (width + k) n = digits width (n / 10 ^ k) ++ digits k n := by
  induction k generalizing n with
  | zero => simp [digits]
  | succ k ih =>
    rw [← Nat.add_assoc, digits, ih, digits, List.append_assoc, Nat.div_div_eq_div_mul,
      Nat.pow_succ']

theorem digits_of_dvd {width n : Nat} (h : n % 10 ^ width = 0) :
    digits width n = List.replicate width '0' := by
  rw [← digits_mod, h, digits_zero]

theorem zero_le_of_mem_digits {width n : Nat} {d : Char} (h : d ∈ digits width n) : '0' ≤ d := by
  have hdigit : ∀ i < 10, '0' ≤ Nat.digitChar i := by decide
  induction width generalizing n with
  | zero => cases h
  | succ width ih =>
    rw [digits, List.mem_append, List.mem_singleton] at h
    rcases h with h | rfl
    · exact ih h
    · exact hdigit _ (Nat.mod_lt _ (by decide))

/-! ## Fractions -/

/-- A fraction of a second in nanoseconds, in as many groups of three digits as it takes. -/
def fraction (nanos : Nat) : List Char :=
  if nanos = 0 then []
  else if nanos % 10 ^ 6 = 0 then '.' :: digits 3 (nanos / 10 ^ 6)
  else if nanos % 10 ^ 3 = 0 then '.' :: digits 6 (nanos / 10 ^ 3)
  else '.' :: digits 9 nanos

/-- What a fraction shows are its nine digits but for some zeros at the end. -/
theorem fraction_eq {nanos : Nat} (h : nanos ≠ 0) :
    ∃ shown k, fraction nanos = '.' :: shown ∧ digits 9 nanos = shown ++ List.replicate k '0' := by
  unfold fraction
  rw [if_neg h]
  split
  · next hzeros =>
    exact ⟨_, 6, rfl, by rw [← digits_of_dvd hzeros]; exact digits_add 3 6 nanos⟩
  · split
    · next hzeros =>
      exact ⟨_, 3, rfl, by rw [← digits_of_dvd hzeros]; exact digits_add 6 3 nanos⟩
    · exact ⟨_, 0, rfl, by simp⟩

/-- A member of a list with zeros at its end stands before the zeros or is one. -/
theorem append_zeros_eq {l front rest : List Char} {k : Nat} {a : Char}
    (h : l ++ List.replicate k '0' = front ++ a :: rest) :
    (∃ tail, l = front ++ a :: tail) ∨ a = '0' ∧ ∃ more, front = l ++ more := by
  rcases List.append_eq_append_iff.mp h with ⟨more, hfront, hzeros⟩ | ⟨tail, hl, hzeros⟩
  · have ha : a ∈ List.replicate k '0' := hzeros ▸ by simp
    exact Or.inr ⟨List.eq_of_mem_replicate ha, more, hfront⟩
  · cases tail with
    | nil =>
      have ha : a ∈ List.replicate k '0' := by
        rw [List.nil_append] at hzeros
        exact hzeros ▸ List.mem_cons_self
      exact Or.inr ⟨List.eq_of_mem_replicate ha, [], by simp [hl]⟩
    | cons b tail =>
      obtain ⟨rfl, -⟩ := List.cons.inj hzeros
      exact Or.inl ⟨tail, hl⟩

/-- Where zeros at the end are left out, what follows comes before every digit. -/
theorem firstLess_of_zeros {l l' : List Char} {k k' : Nat} {mark : Char}
    (h : FirstLess (l ++ List.replicate k '0') (l' ++ List.replicate k' '0'))
    (hl : ∀ d ∈ l, '0' ≤ d) (hl' : ∀ d ∈ l', '0' ≤ d) (hmark : mark < '0') (x y : List Char) :
    FirstLess (l ++ mark :: x) (l' ++ y) := by
  obtain ⟨front, a, b, rest, rest', heq, heq', hab⟩ := h
  have ha : '0' ≤ a := by
    rcases append_zeros_eq heq with ⟨tail, rfl⟩ | ⟨rfl, -⟩
    · exact hl a (by simp)
    · exact Std.le_refl _
  have hmarkLess {d : Char} (hd : d ∈ l') : mark < d := Std.lt_of_lt_of_le hmark (hl' d hd)
  -- The greater member is no zero, so that it is shown.
  rcases append_zeros_eq heq' with ⟨tail', rfl⟩ | ⟨rfl, -⟩
  · rcases append_zeros_eq heq with ⟨tail, rfl⟩ | ⟨-, more, rfl⟩
    · exact FirstLess.append (.prepend front (.head hab _ _)) _ _
    · rw [List.append_assoc, List.append_assoc]
      refine .prepend l ?_
      cases more with
      | nil => exact .head (hmarkLess (by simp)) _ _
      | cons d more => exact .head (hmarkLess (by simp)) _ _
  · exact absurd hab (Std.not_lt.mpr ha)

/-- Fractions compare as their texts do, with a plus sign after them. -/
theorem fraction_firstLess {n m : Nat} (h : n < m) (hm : m < 10 ^ 9) (x y : List Char) :
    FirstLess (fraction n ++ '+' :: x) (fraction m ++ '+' :: y) := by
  have hnine : FirstLess (digits 9 n) (digits 9 m) := digits_firstLess h hm
  obtain ⟨shown', k', htext', hshown'⟩ := fraction_eq (Nat.ne_of_gt (Nat.zero_lt_of_lt h))
  have hdigits' : ∀ d ∈ shown', '0' ≤ d := fun d hd =>
    zero_le_of_mem_digits (hshown' ▸ List.mem_append_left _ hd)
  rw [htext']
  by_cases hzero : n = 0
  · rw [hzero]
    exact .head (by decide) _ _
  · obtain ⟨shown, k, htext, hshown⟩ := fraction_eq hzero
    have hdigits : ∀ d ∈ shown, '0' ≤ d := fun d hd =>
      zero_le_of_mem_digits (hshown ▸ List.mem_append_left _ hd)
    rw [htext]
    rw [hshown, hshown'] at hnine
    exact .prepend ['.'] (firstLess_of_zeros hnine hdigits hdigits' (by decide) _ _)

/-! ## Fields -/

/-- Numbers of fixed widths, each with what stands after it. -/
def fieldsText : List (Nat × List Char) → List Nat → List Char
  | (width, after) :: format, n :: ns => digits width n ++ (after ++ fieldsText format ns)
  | _, _ => []

/-- Texts of fields that fit their widths compare as the fields do. -/
theorem fieldsText_firstLess {format : List (Nat × List Char)} {ns ms : List Nat}
    (hfit : List.Forall₂ (fun f n => n < 10 ^ f.1) format ms) (h : FirstLess ns ms) :
    FirstLess (fieldsText format ns) (fieldsText format ms) := by
  obtain ⟨front, n, m, rest, rest', rfl, rfl, hnm⟩ := h
  induction front generalizing format with
  | nil =>
    cases hfit with
    | cons hm _ => exact (digits_firstLess hnm hm).append _ _
  | cons k front ih =>
    cases hfit with
    | cons _ hrest => exact .prepend _ (.prepend _ (ih hrest))

/-! ## Stamps -/

/-- The fields of a date and a time of day, each with its width and what stands after it. -/
def format : List (Nat × List Char) :=
  [(4, ['-']), (2, ['-']), (2, ['T']), (2, [':']), (2, [':']), (2, [])]

def fields (date : Date) (seconds : Nat) : List Nat :=
  [date.year.toNat, date.month, date.day, seconds / 3600, seconds / 60 % 60, seconds % 60]

/-- The stamp of a time of day in nanoseconds. -/
def stampOf (day : Int) (nanos : Nat) : List Char :=
  fieldsText format (fields (dateOfDay day) (nanos / 10 ^ 9)) ++
    (fraction (nanos % 10 ^ 9) ++ "+00:00".toList)

theorem fields_fit {day : Int} {seconds : Nat} (hyear : (dateOfDay day).year ≤ 9999)
    (hseconds : seconds < 86400) :
    List.Forall₂ (fun f n => n < 10 ^ f.1) format (fields (dateOfDay day) seconds) := by
  obtain ⟨hmonth, hday⟩ := dateOfDay_fits day
  refine .cons ?_ (.cons hmonth (.cons hday (.cons ?_ (.cons ?_ (.cons ?_ .nil)))))
  · show (dateOfDay day).year.toNat < 10 ^ 4
    omega
  · show seconds / 3600 < 10 ^ 2
    omega
  · show seconds / 60 % 60 < 10 ^ 2
    omega
  · show seconds % 60 < 10 ^ 2
    omega

/-- The fields of a later day come after those of an earlier one. -/
theorem fields_firstLess_of_day {day day' : Int} (h : day < day')
    (hyear : 0 ≤ (dateOfDay day).year) (seconds seconds' : Nat) :
    FirstLess (fields (dateOfDay day) seconds) (fields (dateOfDay day') seconds') := by
  rcases date_before h with hless | ⟨heq, hless | ⟨heqMonth, hless⟩⟩
  · exact .head (by omega) _ _
  · rw [fields, fields, heq]
    exact .prepend [_] (.head hless _ _)
  · rw [fields, fields, heq, heqMonth]
    exact .prepend [_, _] (.head hless _ _)

theorem fields_firstLess_of_seconds (date : Date) {seconds seconds' : Nat}
    (h : seconds < seconds') : FirstLess (fields date seconds) (fields date seconds') := by
  rcases Nat.lt_or_eq_of_le (Nat.div_le_div_right (c := 3600) (Nat.le_of_lt h)) with hless | heq
  · exact .prepend [_, _, _] (.head hless _ _)
  · rw [fields, fields, heq]
    rcases Nat.lt_or_ge (seconds / 60 % 60) (seconds' / 60 % 60) with hless | hge
    · exact .prepend [_, _, _, _] (.head hless _ _)
    · have hminute : seconds / 60 % 60 = seconds' / 60 % 60 := by omega
      rw [hminute]
      exact .prepend [_, _, _, _, _] (.head (by omega) _ _)

/-- Of two instants of the years with four digits the earlier has the lesser stamp. -/
theorem stampOf_firstLess {day day' : Int} {nanos nanos' : Nat}
    (h : day < day' ∨ day = day' ∧ nanos < nanos') (hnanos' : nanos' < 86400 * 10 ^ 9)
    (hyear : 0 ≤ (dateOfDay day).year) (hyear' : (dateOfDay day').year ≤ 9999) :
    FirstLess (stampOf day nanos) (stampOf day' nanos') := by
  have hfit : List.Forall₂ (fun f n => n < 10 ^ f.1) format
      (fields (dateOfDay day') (nanos' / 10 ^ 9)) := fields_fit hyear' (by omega)
  rcases h with hday | ⟨rfl, hnanos⟩
  · exact (fieldsText_firstLess hfit (fields_firstLess_of_day hday hyear _ _)).append _ _
  · rcases Nat.lt_or_eq_of_le (Nat.div_le_div_right (c := 10 ^ 9) (Nat.le_of_lt hnanos))
      with hless | heq
    · exact (fieldsText_firstLess hfit (fields_firstLess_of_seconds _ hless)).append _ _
    · rw [stampOf, stampOf, heq]
      exact .prepend _ (fraction_firstLess (by omega) (by omega) _ _)

/-! ## Instants in milliseconds -/

/-- Years of four digits are written without a sign. -/
theorem toList_yearText {year : Int} (h : 0 ≤ year) (h' : year ≤ 9999) :
    (yearText year).toList = digits 4 year.toNat := by
  rw [yearText, if_pos ⟨h, h'⟩]
  exact toList_padded (by omega)

theorem toList_padded_two {n : Nat} (h : n < 100) : (padded 2 n).toList = digits 2 n :=
  toList_padded h

/-- The fraction of a whole number of milliseconds. -/
theorem fraction_millis {ms : Nat} (h : ms < 1000) :
    fraction (ms * 10 ^ 6) = if ms = 0 then [] else '.' :: (padded 3 ms).toList := by
  unfold fraction
  by_cases hzero : ms = 0
  · rw [if_pos (by omega), if_pos hzero]
  · rw [if_neg (by omega), if_pos (Nat.mul_mod_left ..), Nat.mul_div_cancel _ (by decide),
      if_neg hzero, toList_padded h]

theorem millisOfDay_lt (t : Instant) : t.millisOfDay < 86400000 := by
  unfold millisOfDay millisPerDay
  rw [Int.fmod_eq_emod_of_nonneg _ (by decide)]
  omega

theorem fieldsText_format (year month day hour minute second : Nat) :
    fieldsText format [year, month, day, hour, minute, second] =
      digits 4 year ++ (['-'] ++ (digits 2 month ++ (['-'] ++ (digits 2 day ++ (['T'] ++
        (digits 2 hour ++ ([':'] ++ (digits 2 minute ++ ([':'] ++ digits 2 second))))))))) := by
  simp [fieldsText, format]

theorem toList_stamp {t : Instant} (h : t.readable = true) :
    t.stamp.toList = stampOf (t.millis.fdiv millisPerDay) (t.millisOfDay * 10 ^ 6) := by
  obtain ⟨hyear, hyear'⟩ : 0 ≤ t.date.year ∧ t.date.year ≤ 9999 := of_decide_eq_true h
  obtain ⟨hmonth, hday⟩ : t.date.month < 100 ∧ t.date.day < 100 := dateOfDay_fits _
  have hms := t.millisOfDay_lt
  generalize hof : t.millisOfDay = ms at hms
  have hseconds : ms * 10 ^ 6 / 10 ^ 9 = ms / 1000 := by omega
  have hnanos : ms * 10 ^ 6 % 10 ^ 9 = ms % 1000 * 10 ^ 6 := by omega
  have hhour : ms / 1000 / 3600 = ms / 3600000 := by omega
  have hminute : ms / 1000 / 60 = ms / 60000 := by omega
  have hfraction : (if ms % 1000 = 0 then "" else "." ++ padded 3 (ms % 1000)).toList =
      fraction (ms % 1000 * 10 ^ 6) := by
    rw [fraction_millis (Nat.mod_lt _ (by decide))]
    split
    · rfl
    · rw [String.toList_append]
      rfl
  simp only [stamp, text, hof, String.toList_append, hfraction, toList_yearText hyear hyear',
    toList_padded_two hmonth, toList_padded_two hday,
    toList_padded_two (show ms / 3600000 < 100 by omega),
    toList_padded_two (show ms / 60000 % 60 < 100 by omega),
    toList_padded_two (show ms / 1000 % 60 < 100 by omega)]
  rw [stampOf, hseconds, hnanos, fields, hhour, hminute, fieldsText_format]
  simp only [List.append_assoc]
  rfl

/-- An earlier instant is on an earlier day, or earlier on the same one. -/
theorem before_of_lt {a b : Instant} (h : a < b) :
    a.millis.fdiv millisPerDay < b.millis.fdiv millisPerDay ∨
      a.millis.fdiv millisPerDay = b.millis.fdiv millisPerDay ∧ a.millisOfDay < b.millisOfDay := by
  have hless : a.millis < b.millis := h
  unfold millisOfDay millisPerDay
  rw [Int.fmod_eq_emod_of_nonneg _ (by decide), Int.fmod_eq_emod_of_nonneg _ (by decide),
    Int.fdiv_eq_ediv_of_nonneg _ (by decide), Int.fdiv_eq_ediv_of_nonneg _ (by decide)]
  omega

theorem stamp_lt_of_lt {a b : Instant} (ha : a.readable = true) (hb : b.readable = true)
    (h : a < b) : a.stamp < b.stamp := by
  have hyear : 0 ≤ a.date.year := (of_decide_eq_true ha).1
  have hyear' : b.date.year ≤ 9999 := (of_decide_eq_true hb).2
  have hnanos := b.millisOfDay_lt
  have hfirst : FirstLess a.stamp.toList b.stamp.toList := by
    rw [toList_stamp ha, toList_stamp hb]
    refine stampOf_firstLess ?_ (by omega) hyear hyear'
    exact (before_of_lt h).imp_right (.imp_right fun hms => by omega)
  exact hfirst.lt

/-- Stamps that can be read back are ordered as their instants are. -/
theorem stamp_lt_iff {a b : Instant} (ha : a.readable = true) (hb : b.readable = true) :
    a.stamp < b.stamp ↔ a < b := by
  refine ⟨fun h => ?_, stamp_lt_of_lt ha hb⟩
  rcases Int.lt_trichotomy a.millis b.millis with hlt | heq | hgt
  · exact hlt
  · rw [congrArg stamp (show a = b from by cases a; cases b; simp_all)] at h
    exact absurd h (String.lt_irrefl _)
  · exact absurd h (String.lt_asymm (stamp_lt_of_lt hb ha hgt))

end Instant

end LongTermMemory
