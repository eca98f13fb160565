import LongTermMemory.Proofs.Ascending
import LongTermMemory.Proofs.Text.Lower
import LongTermMemory.Store.Query

/-!
The words of queries. A character outside of all words parts a text into two, whose words are those
of the whole; and a word is plain, so that it is the name of just one tag in normal form.
-/

namespace LongTermMemory

namespace Text

variable {p : Char → Bool}

/-! ## Runs -/

theorem splitRuns_append {sep : Char} (hsep : p sep = false) (cs ds : List Char) :
    splitRuns p (cs ++ sep :: ds) =
      ((splitRuns p cs).1, (splitRuns p cs).2 ++ runs p ds) := by
  induction cs with
  | nil => simp [splitRuns, runs, hsep]
  | cons c cs ih =>
    rw [List.cons_append, splitRuns, splitRuns, ih]
    dsimp only
    split
    · rfl
    · split <;> rfl

/-- Nothing runs over a character that does not satisfy `p`. -/
theorem runs_append {sep : Char} (hsep : p sep = false) (cs ds : List Char) :
    runs p (cs ++ sep :: ds) = runs p cs ++ runs p ds := by
  have hruns : ∀ es : List Char, runs p es =
      if (splitRuns p es).1.isEmpty then (splitRuns p es).2
      else (splitRuns p es).1 :: (splitRuns p es).2 := fun _ => rfl
  rw [hruns (cs ++ sep :: ds), splitRuns_append hsep, hruns cs]
  split <;> rfl

theorem mem_runs_intercalate {sep : Char} (hsep : p sep = false) {run : List Char}
    {ls : List (List Char)} :
    run ∈ runs p ([sep].intercalate ls) ↔ ∃ l ∈ ls, run ∈ runs p l := by
  induction ls with
  | nil => simp [runs, splitRuns]
  | cons first rest ih =>
    cases rest with
    | nil => simp [List.intercalate_singleton]
    | cons second rest =>
      rw [List.intercalate_cons_cons, List.append_assoc, List.singleton_append, runs_append hsep,
        List.mem_append, ih]
      simp

theorem forall_mem_runs (cs : List Char) : ∀ run ∈ runs p cs, ∀ c ∈ run, p c = true := by
  have hsplit : (∀ c ∈ (splitRuns p cs).1, p c = true) ∧
      ∀ run ∈ (splitRuns p cs).2, ∀ c ∈ run, p c = true := by
    induction cs with
    | nil => simp [splitRuns]
    | cons c cs ih =>
      obtain ⟨hfirst, hlater⟩ := ih
      rw [splitRuns]
      dsimp only
      split
      · next hc => exact ⟨List.forall_mem_cons.mpr ⟨hc, hfirst⟩, hlater⟩
      · refine ⟨by simp, ?_⟩
        split
        · exact hlater
        · exact List.forall_mem_cons.mpr ⟨hfirst, hlater⟩
  unfold runs
  dsimp only
  split
  · exact hsplit.2
  · exact List.forall_mem_cons.mpr hsplit

/-! ## Plain words -/

theorem toNat_lowerChar_ne_zero {c : Char} (h : c.toNat ≠ 0) : (lowerChar c).toNat ≠ 0 := by
  rw [toNat_lowerChar]
  rcases CaseRun.apply_cases lowercaseRuns c.toNat with hsame | ⟨r, hr, ⟨hfirst, -⟩, heq⟩
  · rwa [hsame]
  · have hhigh := lowercaseRuns_high r hr
    omega

theorem toNat_ne_zero_of_mem_lowercase {s : String} (h : ∀ c ∈ s.toList, c.toNat ≠ 0) :
    ∀ c ∈ (lowercase s).toList, c.toNat ≠ 0 := by
  rw [lowercase, String.toList_ofList]
  refine forall_mem_lowerFrom (p := fun c => c.toNat ≠ 0) (fun c hc before after => ?_) []
  exact forall_mem_lowerBetween before after (by decide) (by decide)
    fun _ _ => toNat_lowerChar_ne_zero (h c hc)

namespace NoCase

theorem zero_mem_seen {cs : List Char} {c : Char} (hc : c ∈ cs) (hzero : c.toNat = 0) :
    0 ∈ seen cs := by
  induction cs with
  | nil => cases hc
  | cons d cs ih =>
    unfold seen
    split
    · simp
    · next hd =>
      rcases List.mem_cons.mp hc with rfl | hc
      · exact absurd hzero hd
      · exact List.mem_cons_of_mem _ (ih hc)

/-- A name without capitals of ASCII is the same as a plain one only when it is that text. -/
theorem same_iff_eq {t word : String} (ht : ∀ c ∈ t.toList, ¬('A' ≤ c ∧ c ≤ 'Z'))
    (hword : Plain word) : same t word = true ↔ t = word := by
  refine ⟨fun h => ?_, fun h => by simp [h]⟩
  rw [same, beq_iff_eq, compareNames_eq] at h
  simp only [compareLex, compareOn, Ordering.then_eq_eq] at h
  have hseen := Std.LawfulEqCmp.eq_of_compare h.1
  rw [seen_of_plain _ hword] at hseen
  have hplain : Plain t := fun c hc => by
    refine ⟨fun hzero => ?_, ht c hc⟩
    have hin := zero_mem_seen hc hzero
    rw [hseen] at hin
    obtain ⟨d, hd, hdzero⟩ := List.mem_map.mp hin
    exact (hword d hd).1 hdzero
  rw [seen_of_plain _ hplain] at hseen
  exact String.toList_inj.mp ((List.map_inj_right fun _ _ => Char.toNat_inj.mp).mp hseen)

end NoCase

end Text

namespace Store

theorem mem_queryWords {word query : String} : word ∈ queryWords query ↔
    ∃ run ∈ Text.runs (fun c => Text.isAlphanumeric c || c = '_') query.toList,
      Text.lowercase (String.ofList run) = word := by
  rw [queryWords, Ascending.mem_ofList, List.mem_map]

/-- The words of some texts joined by blanks are the words of each of them. -/
theorem mem_queryWords_intercalate {word : String} {queries : List String} :
    word ∈ queryWords (" ".intercalate queries) ↔ ∃ query ∈ queries, word ∈ queryWords query := by
  have hblank : (Text.isAlphanumeric ' ' || decide (' ' = '_')) = false := by decide
  simp only [mem_queryWords, String.toList_intercalate]
  have hsep : " ".toList = [' '] := rfl
  rw [hsep]
  simp only [Text.mem_runs_intercalate (p := fun c => Text.isAlphanumeric c || c = '_') hblank,
    List.mem_map, exists_exists_and_eq_and]
  constructor
  · rintro ⟨run, ⟨query, hquery, hrun⟩, hword⟩
    exact ⟨query, hquery, run, hrun, hword⟩
  · rintro ⟨query, hquery, run, hrun, hword⟩
    exact ⟨run, ⟨query, hquery, hrun⟩, hword⟩

theorem mem_queryWords_append {word a b : String} :
    word ∈ queryWords (a ++ " " ++ b) ↔ word ∈ queryWords a ∨ word ∈ queryWords b := by
  have hjoin : a ++ " " ++ b = " ".intercalate [a, b] := by
    simp [String.intercalate_cons_cons]
  rw [hjoin, mem_queryWords_intercalate]
  simp

theorem plain_of_mem_queryWords {word query : String} (h : word ∈ queryWords query) :
    Text.NoCase.Plain word := by
  obtain ⟨run, hrun, rfl⟩ := mem_queryWords.mp h
  have hnul : ∀ c ∈ (String.ofList run).toList, c.toNat ≠ 0 := by
    intro c hc hzero
    rw [String.toList_ofList] at hc
    have hchar := Text.forall_mem_runs _ run hrun c hc
    obtain rfl : c = Char.ofNat 0 := Char.toNat_inj.mp hzero
    revert hchar
    decide
  exact fun c hc => ⟨Text.toNat_ne_zero_of_mem_lowercase hnul c hc,
    Text.lowercase_not_capital _ c hc⟩

end Store

end LongTermMemory
