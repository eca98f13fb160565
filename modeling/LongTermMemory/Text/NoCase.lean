/-!
The order in which tag names are kept: the letters of ASCII count alike in either case, and nothing
after a NUL counts but the length.
-/

namespace LongTermMemory.Text.NoCase

def fold (c : Char) : Nat := if 'A' ≤ c ∧ c ≤ 'Z' then c.toNat + 32 else c.toNat

/-- How two names compare up to the end of the shorter one or up to a NUL. -/
def compareChars : List Char → List Char → Ordering
  | a :: as, b :: bs =>
    if a.toNat ≠ 0 ∧ fold a = fold b then compareChars as bs else compare (fold a) (fold b)
  | _, _ => .eq

def compareNames (a b : String) : Ordering :=
  (compareChars a.toList b.toList).then (compare a.utf8ByteSize b.utf8ByteSize)

def same (a b : String) : Bool := compareNames a b == .eq

def le (a b : String) : Bool := compareNames a b != .gt

end LongTermMemory.Text.NoCase
