import LongTermMemory.Binary

/-!
Decimal numbers `± coefficient · 10 ^ exponent`, and their written forms: positional, and with an
exponent where the positional form would be long. `shortest` is the decimal with the fewest digits
that a binary format rounds to the same number.
-/

namespace LongTermMemory

structure Decimal where
  negative : Bool
  coefficient : Nat
  exponent : Int
deriving DecidableEq, Repr

namespace Decimal

def digits (n : Nat) : List Char := Nat.toDigits 10 n

def signed (negative : Bool) (s : String) : String := if negative then "-" ++ s else s

/-- All digits, without an exponent and without a fraction where it is whole. -/
def positional (d : Decimal) : String :=
  let ds := digits d.coefficient
  signed d.negative <| String.ofList <|
    if 0 ≤ d.exponent then
      if d.coefficient = 0 then ['0'] else ds ++ List.replicate d.exponent.toNat '0'
    else
      let places := (-d.exponent).toNat
      if places < ds.length then
        ds.take (ds.length - places) ++ '.' :: ds.drop (ds.length - places)
      else ['0', '.'] ++ List.replicate (places - ds.length) '0' ++ ds

/-- The decimal point stands at most this many digits after the first one. -/
def maxPoint : Int := 16

/-- The decimal point stands at most this many zeros before the first digit. -/
def minPoint : Int := -5

/-- A number that is always seen to be no integer: with a fraction or with an exponent. -/
def scientific (d : Decimal) : String :=
  let ds := digits d.coefficient
  let point := d.exponent + ds.length
  if d.coefficient = 0 then signed d.negative "0.0"
  else if 0 ≤ d.exponent ∧ point ≤ maxPoint then positional d ++ ".0"
  else if minPoint < point ∧ point ≤ maxPoint then positional d
  else
    let mantissa :=
      match ds with
      | [] => ""
      | [c] => c.toString
      | c :: rest => String.ofList (c :: '.' :: rest)
    signed d.negative (mantissa ++ "e" ++ toString (point - 1))

def tenTo (n : Nat) : Nat := Nat.pow 10 n

/-- Powers of ten of this size lie beyond every format, whatever the coefficient's first digit. -/
def outOfReach : Int := 400

/-- Numerator and denominator of the magnitude; a magnitude out of reach below becomes zero. -/
def quotient (d : Decimal) : Nat × Nat :=
  if d.coefficient = 0 ∨ d.exponent + (digits d.coefficient).length < -outOfReach then (0, 1)
  else if 0 ≤ d.exponent then (d.coefficient * tenTo (min d.exponent outOfReach).toNat, 1)
  else (d.coefficient, tenTo (-d.exponent).toNat)

/-- Which of two neighbours is taken when both are equally near. -/
inductive Tie where
  | up
  | even

/-- Whether the neighbour below is the first choice of the two. -/
def lowFirst (tie : Tie) (low rest d : Nat) : Bool :=
  2 * rest < d || (2 * rest = d && match tie with
    | .up => false
    | .even => low % 2 = 0)

/-- The two coefficients that bring decimals with an exponent of `e` next to `n / d`, the nearer one
first. -/
def neighbours (tie : Tie) (n d : Nat) (e : Int) : List Nat :=
  let (a, b) := if 0 ≤ e then (n, d * tenTo e.toNat) else (n * tenTo (-e).toNat, d)
  let low := a / b
  if lowFirst tie low (a % b) b then [low, low + 1] else [low + 1, low]

/-- Whether a format rounds a positive decimal to what it rounds `n / d` to. -/
def readsAs (f : BinaryFormat) (n d : Nat) (x : Decimal) : Bool :=
  let (p, q) := x.quotient
  f.nearest p q == f.nearest n d

/-- The first exponent, from the greatest one down, at which a neighbour reads as `n / d`. -/
def shortestFrom (tie : Tie) (f : BinaryFormat) (n d : Nat) : Nat → Int → Decimal
  | 0, e => ⟨false, (neighbours tie n d e).headD 0, e⟩
  | fuel + 1, e =>
    match (neighbours tie n d e).find? fun c => c ≠ 0 && readsAs f n d ⟨false, c, e⟩ with
    | some c => ⟨false, c, e⟩
    | none => shortestFrom tie f n d fuel (e - 1)

/-- The magnitudes that `shortest` is asked for lie below ten to this power. -/
def topExponent : Nat := 39

/-- Below this power of ten no digit is needed: the magnitudes are above `10 ^ (-46)`, and with 17
digits the last one is above `10 ^ (-63)`. -/
def digitDepth : Nat := 63

/-- The shortest decimal that reads as `n / d`, and of those the nearest. -/
def shortest (tie : Tie) (f : BinaryFormat) (n d : Nat) : Decimal :=
  shortestFrom tie f n d (topExponent + digitDepth) topExponent

end Decimal

end LongTermMemory
