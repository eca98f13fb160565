import LongTermMemory.Instant

/-!
The calendar: a later day has a later date. Days are counted in cycles of 400 years that begin in
March; within a cycle the year is found by a division that leaves out the leap days, and it is the
year in whose days the day lies.
-/

namespace LongTermMemory.Instant

/-- A day of a cycle less the leap days before it. -/
def leapless (d : Nat) : Nat := d - d / 1460 + d / 36524 - d / 146096

/-- The year of a cycle in which one of its days lies. -/
def yearOfCycle (d : Nat) : Nat := leapless d / 365

/-- The first day of a year of a cycle. -/
def startOfYear (y : Nat) : Nat := 365 * y + y / 4 - y / 100

theorem leapless_mono {d d' : Nat} (h : d ≤ d') (hd' : d' < 146097) : leapless d ≤ leapless d' := by
  induction h with
  | refl => exact Nat.le_refl _
  | @step k _ ih =>
    have hstep : leapless k ≤ leapless (k + 1) := by
      unfold leapless
      omega
    exact Nat.le_trans (ih (Nat.lt_of_succ_lt hd')) hstep

theorem yearOfCycle_mono {d d' : Nat} (h : d ≤ d') (hd' : d' < 146097) :
    yearOfCycle d ≤ yearOfCycle d' :=
  Nat.div_le_div_right (leapless_mono h hd')

theorem yearOfCycle_lt {d : Nat} (h : d < 146097) : yearOfCycle d < 400 := by
  unfold yearOfCycle leapless
  omega

/-- Each year begins on its first day and ends on the day before the next. -/
theorem yearOfCycle_startOfYear : ∀ y < 400, yearOfCycle (startOfYear y) = y ∧
    yearOfCycle (startOfYear (y + 1) - 1) = y := by
  set_option maxRecDepth 4096 in decide

theorem startOfYear_le {d : Nat} (h : d < 146097) : startOfYear (yearOfCycle d) ≤ d := by
  refine Nat.not_lt.mp fun hlt => ?_
  have hy := yearOfCycle_lt h
  generalize hyear : yearOfCycle d = y at hlt hy
  cases y with
  | zero => simp [startOfYear] at hlt
  | succ y =>
    have hend := (yearOfCycle_startOfYear y (by omega)).2
    have hlast : startOfYear (y + 1) - 1 < 146097 := by
      unfold startOfYear
      omega
    have hmono : yearOfCycle d ≤ yearOfCycle (startOfYear (y + 1) - 1) :=
      yearOfCycle_mono (by omega) hlast
    omega

/-- A year has at most 366 days; the last of a cycle has that many. -/
theorem le_startOfYear {d : Nat} (h : d < 146097) : d ≤ startOfYear (yearOfCycle d) + 365 := by
  refine Nat.not_lt.mp fun hlt => ?_
  have hy := yearOfCycle_lt h
  rcases Nat.lt_or_ge (yearOfCycle d + 1) 400 with hnext | hlast
  · have hle : startOfYear (yearOfCycle d + 1) ≤ d := by
      unfold startOfYear at hlt ⊢
      omega
    have hstart := (yearOfCycle_startOfYear _ hnext).1
    have hmono := yearOfCycle_mono hle h
    omega
  · have hyear : yearOfCycle d = 399 := by omega
    rw [hyear] at hlt
    have hstart : startOfYear 399 = 145731 := rfl
    omega

/-! ## Dates -/

def cycleOf (n : Int) : Int := (n + 719468).fdiv 146097

def dayOfCycle (n : Int) : Nat := (n + 719468 - cycleOf n * 146097).toNat

/-- The year that begins in March. -/
def marchYear (n : Int) : Int := yearOfCycle (dayOfCycle n) + cycleOf n * 400

/-- The days since the first of March. -/
def marchDay (n : Int) : Nat := dayOfCycle n - startOfYear (yearOfCycle (dayOfCycle n))

def marchMonth (day : Nat) : Nat := (5 * day + 2) / 153

def dateOfMarch (year : Int) (day : Nat) : Date :=
  let m := marchMonth day
  let month := if m < 10 then m + 3 else m - 9
  { year := year + if month ≤ 2 then 1 else 0
    month
    day := day - (153 * m + 2) / 5 + 1 }

theorem dateOfDay_eq (n : Int) : dateOfDay n = dateOfMarch (marchYear n) (marchDay n) := rfl

theorem dayOfCycle_eq (n : Int) :
    (dayOfCycle n : Int) = n + 719468 - cycleOf n * 146097 ∧ dayOfCycle n < 146097 := by
  unfold dayOfCycle cycleOf
  rw [Int.fdiv_eq_ediv_of_nonneg _ (by decide)]
  omega

theorem marchDay_le (n : Int) : marchDay n ≤ 365 := by
  have hle := le_startOfYear (dayOfCycle_eq n).2
  unfold marchDay
  omega

/-- A later day lies in a later year from March, or later in the same one. -/
theorem march_lt {n n' : Int} (h : n < n') :
    marchYear n < marchYear n' ∨ marchYear n = marchYear n' ∧ marchDay n < marchDay n' := by
  obtain ⟨hday, hlt⟩ := dayOfCycle_eq n
  obtain ⟨hday', hlt'⟩ := dayOfCycle_eq n'
  have hyear := yearOfCycle_lt hlt
  unfold marchYear
  rcases Int.lt_trichotomy (cycleOf n) (cycleOf n') with hcycle | hcycle | hcycle
  · exact Or.inl (by omega)
  · have hdays : dayOfCycle n < dayOfCycle n' := by
      rw [hcycle] at hday
      omega
    have hmono := yearOfCycle_mono (Nat.le_of_lt hdays) hlt'
    rcases Nat.lt_or_eq_of_le hmono with hyears | hyears
    · exact Or.inl (by omega)
    · have hstart := startOfYear_le hlt
      refine Or.inr ⟨by omega, ?_⟩
      unfold marchDay
      rw [hyears] at hstart ⊢
      omega
  · omega

/-- The order of dates by year, month and day. -/
def Date.Before (a b : Date) : Prop :=
  a.year < b.year ∨ a.year = b.year ∧ (a.month < b.month ∨ a.month = b.month ∧ a.day < b.day)

/-- Of two days of one year from March the later has the later date. -/
theorem dateOfMarch_before {year : Int} {day day' : Nat} (h : day < day') (h' : day' ≤ 365) :
    (dateOfMarch year day).Before (dateOfMarch year day') := by
  have hmonth : marchMonth day ≤ marchMonth day' := by
    unfold marchMonth
    omega
  have hlast : marchMonth day' < 12 := by
    unfold marchMonth
    omega
  have hsame : marchMonth day = marchMonth day' → (153 * marchMonth day + 2) / 5 ≤ day := by
    unfold marchMonth
    omega
  unfold Date.Before dateOfMarch
  dsimp only
  rcases Nat.lt_or_eq_of_le hmonth with hless | heq
  · split <;> split <;> split <;> split <;> omega
  · have hday := hsame heq
    rw [heq] at hday ⊢
    exact Or.inr ⟨rfl, Or.inr ⟨rfl, by omega⟩⟩

/-- January and February belong to the year from March before. -/
theorem dateOfMarch_before_of_lt {year year' : Int} (h : year < year') {day : Nat}
    (hday : day ≤ 365) (day' : Nat) :
    (dateOfMarch year day).Before (dateOfMarch year' day') := by
  have hlast : marchMonth day < 12 := by
    unfold marchMonth
    omega
  unfold Date.Before dateOfMarch
  dsimp only
  split <;> split <;> split <;> split <;> omega

/-- A later day has a later date. -/
theorem date_before {n n' : Int} (h : n < n') : (dateOfDay n).Before (dateOfDay n') := by
  rw [dateOfDay_eq, dateOfDay_eq]
  rcases march_lt h with hyear | ⟨hyear, hday⟩
  · exact dateOfMarch_before_of_lt hyear (marchDay_le n) _
  · rw [hyear]
    exact dateOfMarch_before hday (marchDay_le n')

/-- Months and days have at most two digits. -/
theorem dateOfDay_fits (n : Int) : (dateOfDay n).month < 100 ∧ (dateOfDay n).day < 100 := by
  have hday := marchDay_le n
  rw [dateOfDay_eq]
  generalize marchDay n = day at hday
  unfold dateOfMarch marchMonth
  dsimp only
  constructor
  · split <;> omega
  · omega

end LongTermMemory.Instant
