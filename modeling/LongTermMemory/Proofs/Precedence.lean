import LongTermMemory.ContextBlock
import LongTermMemory.Proofs.Retrieval

/-!
The order of a ranking, told without keys: of two entries the one with the greater total precedes,
then the more important, then the one accessed later, then the one with the greater id. It is strict
and total on entries of different ids, so that one arrangement of the entries alone is sorted.
-/

namespace LongTermMemory

/-! ## Totals -/

namespace Single

/-- The total order of bit patterns: a pattern with the sign bit is below every one without it, and
of two with the sign bit the one with fewer bits below it is the greater. The two zeros differ, and
what is not a number lies beyond the infinities. -/
def TotalLess (x y : Single) : Prop :=
  match x.negative, y.negative with
  | true, false => True
  | false, true => False
  | false, false => x.bits.toNat < y.bits.toNat
  | true, true => y.bits.toNat < x.bits.toNat

variable {x y : Single}

theorem totalPlace_of_negative (h : x.negative = true) :
    x.totalPlace = (signBit : Int) - x.bits.toNat - 1 ∧ x.totalPlace < 0 := by
  have hbits := x.bits.toNat_lt
  have hsign : signBit ≤ x.bits.toNat := of_decide_eq_true h
  simp only [totalPlace, h, ↓reduceIte, magnitudeBits, signBit] at hsign ⊢
  omega

theorem totalPlace_of_not_negative (h : x.negative = false) : x.totalPlace = x.bits.toNat := by
  have hsign : ¬ signBit ≤ x.bits.toNat := of_decide_eq_false h
  simp only [totalPlace, h, Bool.false_eq_true, ↓reduceIte, magnitudeBits, signBit] at hsign ⊢
  omega

theorem totalPlace_lt_iff : x.totalPlace < y.totalPlace ↔ x.TotalLess y := by
  unfold TotalLess
  cases hx : x.negative <;> cases hy : y.negative <;> simp only [iff_true, iff_false]
  case false.false =>
    rw [totalPlace_of_not_negative hx, totalPlace_of_not_negative hy]
    exact Int.ofNat_lt
  case false.true =>
    have := totalPlace_of_not_negative hx
    have := (totalPlace_of_negative hy).2
    omega
  case true.false =>
    have := (totalPlace_of_negative hx).2
    have := totalPlace_of_not_negative hy
    omega
  case true.true =>
    rw [(totalPlace_of_negative hx).1, (totalPlace_of_negative hy).1]
    omega

/-- No two patterns are level. -/
theorem totalPlace_injective : Function.Injective totalPlace := by
  intro x y h
  have hbits : x.bits.toNat = y.bits.toNat := by
    cases hx : x.negative <;> cases hy : y.negative
    case false.false =>
      rw [totalPlace_of_not_negative hx, totalPlace_of_not_negative hy] at h
      exact Int.ofNat_inj.mp h
    case false.true =>
      have := totalPlace_of_not_negative hx
      have := (totalPlace_of_negative hy).2
      omega
    case true.false =>
      have := (totalPlace_of_negative hx).2
      have := totalPlace_of_not_negative hy
      omega
    case true.true =>
      have := (totalPlace_of_negative hx).1
      have := (totalPlace_of_negative hy).1
      omega
  exact congrArg Single.mk (UInt32.toNat_inj.mp hbits)

end Single

/-! ## Entries -/

/-- A memory never accessed was not accessed after any other. -/
def AccessedAfter : Option Instant → Option Instant → Prop
  | none, _ => False
  | some _, none => True
  | some s, some t => t < s

/-- The lexicographic order of entries: total, importance, last access and id, each time the greater
first. -/
def Precedes (a b : Memory × Score) : Prop :=
  b.2.total.TotalLess a.2.total ∨ a.2.total = b.2.total ∧
    (b.1.importance < a.1.importance ∨ a.1.importance = b.1.importance ∧
      (AccessedAfter a.1.lastAccessed b.1.lastAccessed ∨ a.1.lastAccessed = b.1.lastAccessed ∧
        b.1.id < a.1.id))

theorem accessPlace_lt_iff (s t : Option Instant) :
    accessPlace t < accessPlace s ↔ AccessedAfter s t := by
  rw [← accessedBefore_iff]
  cases s <;> cases t <;> simp [accessedBefore, AccessedAfter]

theorem accessPlace_injective : Function.Injective accessPlace := by
  intro s t h
  cases s <;> cases t <;> simp only [accessPlace, toLex_inj, Prod.mk.injEq] at h
  case none.none => rfl
  case none.some => omega
  case some.none => omega
  case some.some s t =>
    obtain ⟨-, hmillis⟩ := h
    exact congrArg some (congrArg Instant.mk hmillis)

theorem precedes_iff {a b : Memory × Score} : Precedes a b ↔ rankKey b < rankKey a := by
  simp only [Precedes, rankKey, Prod.Lex.toLex_lt_toLex, accessPlace_lt_iff,
    Single.totalPlace_lt_iff, Single.totalPlace_injective.eq_iff, accessPlace_injective.eq_iff,
    eq_comm (a := b.2.total), eq_comm (a := b.1.importance), eq_comm (a := b.1.lastAccessed)]

theorem not_precedes_self (a : Memory × Score) : ¬ Precedes a a := by
  rw [precedes_iff]
  exact lt_irrefl _

theorem Precedes.trans {a b d : Memory × Score} (hab : Precedes a b) (hbd : Precedes b d) :
    Precedes a d := by
  rw [precedes_iff] at hab hbd ⊢
  exact hbd.trans hab

instance : Trans Precedes Precedes Precedes := ⟨Precedes.trans⟩

/-- Entries of different ids are never level. -/
theorem precedes_or_precedes {a b : Memory × Score} (h : a.1.id ≠ b.1.id) :
    Precedes a b ∨ Precedes b a := by
  have hkey : rankKey a ≠ rankKey b := fun heq =>
    h (congrArg (fun k => (ofLex (ofLex (ofLex k).2).2).2) heq)
  rw [precedes_iff, precedes_iff]
  exact (lt_or_gt_of_ne hkey).symm

/-! ## Rankings -/

namespace RetrievalConfig

variable {c : RetrievalConfig} {now : Instant} {query : String} {memories memories' : List Memory}

/-- The memories in the order given, each with its score. -/
def scored (c : RetrievalConfig) (now : Instant) (query : String) (memories : List Memory) :
    List (Memory × Score) :=
  memories.map fun m => (m, c.score now (Text.tokenSet query) m)

/-- An arrangement of the entries of which each precedes the next is the ranking. -/
theorem rank_eq_of_isChain {ranking : List (Memory × Score)}
    (hperm : ranking.Perm (c.scored now query memories)) (hchain : ranking.IsChain Precedes) :
    c.rank now query memories = ranking := by
  have hsorted : ranking.Pairwise Precedes := List.isChain_iff_pairwise.mp hchain
  exact mergeSort_of_perm ranksBefore_iff hperm.symm (hsorted.imp precedes_iff.mp)

theorem rank_perm (hids : (memories.map (·.id)).Nodup) (hperm : memories'.Perm memories) :
    c.rank now query memories' = c.rank now query memories := by
  refine rank_eq_of_isChain ?_ ?_
  · exact (List.mergeSort_perm _ _).trans (hperm.map _).symm
  · exact ((isRanking_rank hids).ordered.imp precedes_iff.mpr).isChain

/-- A ranking has each memory once, with its own score, and each entry strictly precedes the next.
It is the only arrangement that does, so that memories in another order have the same ranking and
the same text, for a query and for none. -/
theorem rank_is_strict_sort (c : RetrievalConfig) (now : Instant) (query : String)
    (memories : List Memory) (hids : (memories.map (·.id)).Nodup) :
    (c.rank now query memories).Perm
      (memories.map fun m => (m, c.score now (Text.tokenSet query) m)) ∧
    (c.rank now query memories).Pairwise Precedes ∧
    (∀ ranking : List (Memory × Score),
      ranking.Perm (memories.map fun m => (m, c.score now (Text.tokenSet query) m)) →
      ranking.IsChain Precedes → ranking = c.rank now query memories) ∧
    ∀ memories' : List Memory, memories'.Perm memories →
      c.rank now query memories' = c.rank now query memories ∧
      ∀ (context : ContextConfig) (budget : Nat),
        ContextBlock.format c context now memories' query budget =
          ContextBlock.format c context now memories query budget ∧
        ContextBlock.format c context now memories' "" budget =
          ContextBlock.format c context now memories "" budget := by
  refine ⟨List.mergeSort_perm _ _, (isRanking_rank hids).ordered.imp precedes_iff.mpr,
    fun ranking hperm hchain => (rank_eq_of_isChain hperm hchain).symm,
    fun memories' hperm => ⟨rank_perm hids hperm, fun context budget => ?_⟩⟩
  constructor
  · rw [ContextBlock.format, ContextBlock.format, rank_perm hids hperm]
  · rw [ContextBlock.format, ContextBlock.format, rank_perm hids hperm]

/-- Two memories that differ in nothing but their ids. -/
def sameTeas : List Memory :=
  [Store.newMemory ⟨0⟩ 1 ["food"] (World.tea 5), Store.newMemory ⟨0⟩ 2 ["food"] (World.tea 5)]

/-- Memories that are level in everything else rank by their ids, whichever is given first. -/
theorem rank_is_strict_sort_sameTeas : (sameTeas.map (·.id)).Nodup ∧
    sameTeas.reverse.Perm sameTeas ∧
      (({} : RetrievalConfig).rank ⟨0⟩ "tea" sameTeas.reverse).map (·.1.id) = [2, 1] := by
  have hids : (sameTeas.map (·.id)).Nodup := by decide
  have hperm : sameTeas.reverse.Perm sameTeas := List.reverse_perm _
  refine ⟨hids, hperm, ?_⟩
  obtain ⟨-, -, -, hsame⟩ := rank_is_strict_sort {} ⟨0⟩ "tea" sameTeas hids
  rw [(hsame sameTeas.reverse hperm).1, rank, sameTeas, List.map_cons, List.map_singleton,
    mergeSort_pair, if_neg (by decide)]
  rfl

end RetrievalConfig

end LongTermMemory
