import LongTermMemory.Text.NoCase

/-!
The order of tag names is a preorder: names compare by their folded characters through the first
NUL, and names alike in these by their lengths. On names without capitals of ASCII and without NUL
it is the order of texts.
-/

namespace LongTermMemory.Text.NoCase

/-- The folded characters of a name up to and with its first NUL. -/
def seen : List Char → List Nat
  | [] => []
  | c :: cs => if c.toNat = 0 then [0] else fold c :: seen cs

def byteCount (cs : List Char) : Nat := (String.ofList cs).utf8ByteSize

@[simp] theorem byteCount_nil : byteCount [] = 0 := rfl

@[simp] theorem byteCount_cons (c : Char) (cs : List Char) :
    byteCount (c :: cs) = c.utf8Size + byteCount cs := by
  simp [byteCount, String.ofList_cons]

theorem capital_iff (c : Char) : ('A' ≤ c ∧ c ≤ 'Z') ↔ 65 ≤ c.toNat ∧ c.toNat ≤ 90 := Iff.rfl

theorem fold_eq_zero_iff (c : Char) : fold c = 0 ↔ c.toNat = 0 := by
  unfold fold
  simp only [capital_iff]
  split <;> omega

theorem seen_cons (c : Char) (cs : List Char) : ∃ rest, seen (c :: cs) = fold c :: rest := by
  unfold seen
  split
  · next hc => exact ⟨[], by rw [(fold_eq_zero_iff c).mpr hc]⟩
  · exact ⟨seen cs, rfl⟩

theorem utf8Size_eq_one {c : Char} (h : c.toNat < 128) : c.utf8Size = 1 :=
  Char.utf8Size_eq_one_iff.mpr (UInt32.le_iff_toNat_le.mpr (Nat.le_of_lt_succ h))

theorem utf8Size_of_fold_eq (a b : Char) (h : fold a = fold b) : a.utf8Size = b.utf8Size := by
  unfold fold at h
  simp only [capital_iff] at h
  by_cases heq : a.toNat = b.toNat
  · rw [Char.toNat_inj.mp heq]
  · have hsmall : a.toNat < 128 ∧ b.toNat < 128 := by
      split at h <;> split at h <;> omega
    rw [utf8Size_eq_one hsmall.1, utf8Size_eq_one hsmall.2]

/-- Comparing by characters and then by length is comparing by what is seen and then by length. -/
theorem compareChars_then (as bs : List Char) :
    (compareChars as bs).then (compare (byteCount as) (byteCount bs)) =
      (compare (seen as) (seen bs)).then (compare (byteCount as) (byteCount bs)) := by
  induction as generalizing bs with
  | nil =>
    cases bs with
    | nil => rfl
    | cons b bs =>
      have hb := b.utf8Size_pos
      obtain ⟨rest, hs⟩ := seen_cons b bs
      have hlt : compare (byteCount []) (byteCount (b :: bs)) = .lt := by
        rw [Nat.compare_eq_lt]
        simp
        omega
      rw [hlt, hs]
      rfl
  | cons a as ih =>
    cases bs with
    | nil =>
      have ha := a.utf8Size_pos
      obtain ⟨rest, hs⟩ := seen_cons a as
      have hgt : compare (byteCount (a :: as)) (byteCount []) = .gt := by
        rw [Nat.compare_eq_gt]
        simp
        omega
      rw [hgt, hs]
      rfl
    | cons b bs =>
      simp only [compareChars]
      by_cases hf : fold a = fold b
      · have hz : a.toNat = 0 ↔ b.toNat = 0 := by
          rw [← fold_eq_zero_iff, ← fold_eq_zero_iff, hf]
        by_cases ha : a.toNat = 0
        · simp [seen, ha, hz.mp ha, hf]
        · have hb : b.toNat ≠ 0 := fun h => ha (hz.mpr h)
          have hsize := utf8Size_of_fold_eq a b hf
          have hadd : compare (b.utf8Size + byteCount as) (b.utf8Size + byteCount bs) =
              compare (byteCount as) (byteCount bs) := by
            simp [Nat.compare_eq_ite_lt]
          simp only [seen, ne_eq, ha, not_false_eq_true, hf, and_self, ↓reduceIte, hb,
            byteCount_cons, hsize, hadd, List.compare_eq_compareLex, List.compareLex_cons_cons,
            Std.ReflCmp.compare_self, Ordering.eq_then]
          rw [ih, List.compare_eq_compareLex]
      · have hne : compare (fold a) (fold b) ≠ .eq := by simpa using hf
        obtain ⟨ra, hra⟩ := seen_cons a as
        obtain ⟨rb, hrb⟩ := seen_cons b bs
        rw [if_neg (by simp [hf]), hra, hrb, List.compare_eq_compareLex, List.compareLex_cons_cons]
        cases hc : compare (fold a) (fold b) <;> first | rfl | exact absurd hc hne

theorem compareNames_eq : compareNames =
    compareLex (compareOn fun s : String => seen s.toList) (compareOn String.utf8ByteSize) := by
  funext a b
  have h := compareChars_then a.toList b.toList
  simp only [byteCount, String.ofList_toList] at h
  exact h

instance : Std.TransCmp compareNames := compareNames_eq ▸ inferInstance

theorem le_eq_isLE (a b : String) : le a b = (compareNames a b).isLE := by
  unfold le
  cases compareNames a b <;> rfl

theorem le_trans (a b c : String) (hab : le a b) (hbc : le b c) : le a c := by
  rw [le_eq_isLE] at *
  exact Std.TransCmp.isLE_trans hab hbc

theorem le_total (a b : String) : (le a b || le b a) = true := by
  have hsw : compareNames b a = (compareNames a b).swap := Std.OrientedCmp.eq_swap
  rw [le_eq_isLE, le_eq_isLE, hsw]
  cases compareNames a b <;> rfl

@[simp] theorem same_self (a : String) : same a a = true := by
  simp [same, Std.ReflCmp.compare_self]

theorem same_comm (a b : String) : same a b = same b a := by
  have hsw : compareNames b a = (compareNames a b).swap := Std.OrientedCmp.eq_swap
  rw [same, same, hsw]
  cases compareNames a b <;> rfl

/-- Each at or before the other, they are one name. -/
theorem same_of_le_of_le {a b : String} (hab : le a b = true) (hba : le b a = true) :
    same a b = true := by
  have hsw : compareNames b a = (compareNames a b).swap := Std.OrientedCmp.eq_swap
  rw [le_eq_isLE] at hab hba
  rw [hsw] at hba
  unfold same
  cases hc : compareNames a b with
  | eq => rfl
  | lt => simp [hc] at hba
  | gt => simp [hc] at hab

/-- One at or before the other and not the same name, it is before it. -/
theorem compareNames_eq_lt {a b : String} (hle : le a b = true) (hne : same a b = false) :
    compareNames a b = .lt := by
  rw [le_eq_isLE] at hle
  unfold same at hne
  cases hc : compareNames a b with
  | lt => rfl
  | eq => simp [hc] at hne
  | gt => simp [hc] at hle

/-- A name without capitals of ASCII and without NUL. -/
def Plain (s : String) : Prop := ∀ c ∈ s.toList, c.toNat ≠ 0 ∧ ¬('A' ≤ c ∧ c ≤ 'Z')

theorem seen_of_plain (cs : List Char) (h : ∀ c ∈ cs, c.toNat ≠ 0 ∧ ¬('A' ≤ c ∧ c ≤ 'Z')) :
    seen cs = cs.map Char.toNat := by
  induction cs with
  | nil => rfl
  | cons c cs ih =>
    obtain ⟨h0, hcap⟩ := h c (by simp)
    rw [seen, if_neg h0, ih fun d hd => h d (by simp [hd]), fold, if_neg hcap, List.map_cons]

theorem lt_of_compare_toNat (as bs : List Char)
    (h : compare (as.map Char.toNat) (bs.map Char.toNat) = .lt) : as < bs := by
  rw [List.compare_eq_compareLex] at h
  induction as generalizing bs with
  | nil =>
    cases bs with
    | nil => simp [List.compareLex_nil_nil] at h
    | cons b bs => exact List.nil_lt_cons b bs
  | cons a as ih =>
    cases bs with
    | nil => simp [List.compareLex_cons_nil] at h
    | cons b bs =>
      simp only [List.map_cons, List.compareLex_cons_cons, Ordering.then_eq_lt] at h
      refine List.cons_lt_cons_iff.mpr ?_
      rcases h with hlt | ⟨heq, hrest⟩
      · exact Or.inl (Nat.compare_eq_lt.mp hlt)
      · exact Or.inr ⟨Char.toNat_inj.mp (Nat.compare_eq_eq.mp heq), ih bs hrest⟩

/-- Plain names that come one before the other are so as texts. -/
theorem lt_of_plain (a b : String) (ha : Plain a) (hb : Plain b) (h : compareNames a b = .lt) :
    a < b := by
  rw [compareNames_eq] at h
  simp only [compareLex, compareOn, seen_of_plain _ ha, seen_of_plain _ hb,
    Ordering.then_eq_lt] at h
  rcases h with hlt | ⟨heq, hsize⟩
  · exact lt_of_compare_toNat _ _ hlt
  · have hmap := Std.LawfulEqCmp.eq_of_compare heq
    have hlist : a.toList = b.toList := (List.map_inj_right fun _ _ => Char.toNat_inj.mp).mp hmap
    rw [String.toList_inj.mp hlist] at hsize
    simp at hsize

end LongTermMemory.Text.NoCase
