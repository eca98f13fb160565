/-!
Binary floating-point formats, as far as rounding goes: a format is a number of significant bits
and a range of exponents, and `nearest` rounds a quotient of natural numbers to it, ties to even.
-/

namespace LongTermMemory

/-- The exponents are those of the last significant bit. -/
structure BinaryFormat where
  precision : Nat
  minExponent : Int
  maxExponent : Int

namespace BinaryFormat

def single : BinaryFormat := ⟨24, -149, 104⟩

def double : BinaryFormat := ⟨53, -1074, 971⟩

/-- `n / d` to the nearest whole number, ties to even. -/
def roundQuotient (n d : Nat) : Nat :=
  let q := n / d
  let r := n % d
  if 2 * r < d ∨ (2 * r = d ∧ q % 2 = 0) then q else q + 1

/-- The quotient `n / d` in units of `2 ^ e`. -/
def inUnits (n d : Nat) (e : Int) : Nat × Nat :=
  if 0 ≤ e then (n, d <<< e.toNat) else (n <<< (-e).toNat, d)

/-- The greatest exponent at which a positive quotient keeps all significant bits, but not below
the least of the format. -/
def exponentFor (f : BinaryFormat) (n d : Nat) : Int :=
  let low := (Nat.log2 n : Int) - Nat.log2 d - f.precision
  let (a, b) := inUnits n d low
  max f.minExponent (if 1 <<< f.precision ≤ a / b then low + 1 else low)

/-- Mantissa and exponent of the number nearest to a positive quotient, none beyond the greatest
finite number. -/
def nearest (f : BinaryFormat) (n d : Nat) : Option (Nat × Int) :=
  let e := f.exponentFor n d
  let (a, b) := inUnits n d e
  let m := roundQuotient a b
  let (m, e) := if m = 1 <<< f.precision then (m / 2, e + 1) else (m, e)
  if f.maxExponent < e then none else some (m, e)

end BinaryFormat

end LongTermMemory
