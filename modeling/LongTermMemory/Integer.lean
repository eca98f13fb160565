/-!
Integers: the ranges that numbers of 32 and 64 bits stand for, and sums.
-/

namespace LongTermMemory

/-- The integers from `low` to `high`. -/
structure IntegerRange where
  low : Int
  high : Int

namespace IntegerRange

def int32 : IntegerRange := ⟨-2147483648, 2147483647⟩

def int64 : IntegerRange := ⟨-9223372036854775808, 9223372036854775807⟩

def nat64 : IntegerRange := ⟨0, 18446744073709551615⟩

def contains (r : IntegerRange) (i : Int) : Bool := r.low ≤ i ∧ i ≤ r.high

/-- The integer of the range that differs from `i` by a multiple of the number of its integers. -/
def wrap (r : IntegerRange) (i : Int) : Int := r.low + (i - r.low) % (r.high - r.low + 1)

end IntegerRange

def total (l : List Int) : Int := l.foldr (· + ·) 0

end LongTermMemory
