import LongTermMemory.Decimal

/-!
Numbers in single precision, by their bits. Each operation computes the exact result and rounds
it once. `toDecimalIn?` is the shortest decimal that reads back as the same number.
-/

namespace LongTermMemory

structure Single where
  bits : UInt32
deriving DecidableEq, Inhabited

namespace Single

/-- What the bits stand for; a finite number is `± mantissa · 2 ^ exponent`. -/
inductive Value where
  | nan
  | infinite (negative : Bool)
  | finite (negative : Bool) (mantissa : Nat) (exponent : Int)

/-- The sign is the highest bit. -/
def signBit : Nat := 0x80000000

/-- The exponent stands above the bits of the mantissa, whose highest bit is not written. -/
def hiddenBit : Nat := 0x800000

/-- The bits of infinity; above them is what is not a number. -/
def infinityBits : Nat := 0x7f800000

def negative (x : Single) : Bool := signBit ≤ x.bits.toNat

def magnitudeBits (x : Single) : Nat := x.bits.toNat % signBit

def value (x : Single) : Value :=
  let e : Nat := x.magnitudeBits / hiddenBit
  let m := x.magnitudeBits % hiddenBit
  if e = 255 then if m = 0 then .infinite x.negative else .nan
  else if e = 0 then .finite x.negative m (-149)
  else .finite x.negative (m + hiddenBit) ((e : Int) - 150)

def ofBits (negative : Bool) (magnitude : Nat) : Single :=
  ⟨UInt32.ofNat (magnitude + if negative then signBit else 0)⟩

def nan : Single := ofBits true 0x7fc00000

def infinity (negative : Bool) : Single := ofBits negative infinityBits

/-- The number nearest to `± n / d`, infinite when that is beyond the finite numbers. -/
def ofQuotient (negative : Bool) (n d : Nat) : Single :=
  if n = 0 then ofBits negative 0
  else
    match BinaryFormat.single.nearest n d with
    | none => infinity negative
    | some (m, e) => ofBits negative ((e + 149).toNat * hiddenBit + m)

/-- The number nearest to `± m · 2 ^ e`. -/
def ofScaled (negative : Bool) (m : Nat) (e : Int) : Single :=
  let (n, d) := BinaryFormat.inUnits m 1 (-e)
  ofQuotient negative n d

def ofInt (i : Int) : Single := ofQuotient (i < 0) i.natAbs 1

def ofNat (n : Nat) : Single := ofQuotient false n 1

def zero : Single := ofNat 0

def one : Single := ofNat 1

/-- A quotient read in double precision first, none when that is beyond the finite numbers. -/
def throughDouble? (negative : Bool) (n d : Nat) : Option Single :=
  if n = 0 then some (ofBits negative 0)
  else (BinaryFormat.double.nearest n d).map fun (m, e) => ofScaled negative m e

def ofDecimal? (d : Decimal) : Option Single :=
  let (n, q) := d.quotient
  throughDouble? d.negative n q

def isNaN (x : Single) : Bool := infinityBits < x.magnitudeBits

def isFinite (x : Single) : Bool := x.magnitudeBits < infinityBits

/-- The place of a number in the order of all numbers, the two zeros at one place. -/
def place (x : Single) : Int := if x.negative then -x.magnitudeBits else x.magnitudeBits

/-- The place of a bit pattern in the total order of all patterns. -/
def totalPlace (x : Single) : Int :=
  if x.negative then -x.magnitudeBits - 1 else x.magnitudeBits

def le (x y : Single) : Bool := !x.isNaN && !y.isNaN && x.place ≤ y.place

def lt (x y : Single) : Bool := !x.isNaN && !y.isNaN && x.place < y.place

/-- The greater of two numbers; one that is not a number gives way. -/
def max (x y : Single) : Single := if x.isNaN || lt x y then y else x

/-- Whether the number lies in the closed unit interval. -/
def inUnit (x : Single) : Bool := le zero x && le x one

def clampUnit (x : Single) : Single :=
  if lt x zero then zero else if lt one x then one else x

def signedMantissa (negative : Bool) (m : Nat) : Int := if negative then -(m : Int) else m

def add (x y : Single) : Single :=
  match x.value, y.value with
  | .nan, _ => x
  | _, .nan => y
  | .infinite s, .infinite t => if s = t then x else nan
  | .infinite _, .finite .. => x
  | .finite .., .infinite _ => y
  | .finite s m e, .finite t n f =>
    let low := min e f
    let sum := signedMantissa s (m <<< (e - low).toNat) + signedMantissa t (n <<< (f - low).toNat)
    if sum = 0 then ofBits (s && t) 0 else ofScaled (sum < 0) sum.natAbs low

def mul (x y : Single) : Single :=
  match x.value, y.value with
  | .nan, _ => x
  | _, .nan => y
  | .infinite s, .infinite t => infinity (s != t)
  | .infinite s, .finite t n _ => if n = 0 then nan else infinity (s != t)
  | .finite s m _, .infinite t => if m = 0 then nan else infinity (s != t)
  | .finite s m e, .finite t n f => ofScaled (s != t) (m * n) (e + f)

/-- A finite number by a positive whole number. -/
def divNat (x : Single) (k : Nat) : Single :=
  match x.value with
  | .finite s m e =>
    let (n, d) := BinaryFormat.inUnits m k (-e)
    ofQuotient s n d
  | _ => x

instance : Add Single := ⟨add⟩
instance : Mul Single := ⟨mul⟩

/-- The shortest decimal that a format, into which `x` fits, reads as `x`, and of those the nearest;
none for the infinities and for what is not a number. -/
def toDecimalIn? (tie : Decimal.Tie) (f : BinaryFormat) (x : Single) : Option Decimal :=
  match x.value with
  | .finite s 0 _ => some ⟨s, 0, 0⟩
  | .finite s m e =>
    let (n, d) := BinaryFormat.inUnits m 1 (-e)
    some { Decimal.shortest tie f n d with negative := s }
  | _ => none

/-- As it stands in messages: the shortest decimal, the upper one of two, without an exponent. -/
def toText (x : Single) : String :=
  match x.toDecimalIn? .up .single with
  | some d => d.positional
  | none => if x.isNaN then "NaN" else if x.negative then "-inf" else "inf"

/-- A column of the database keeps no negative zero. -/
def stored (x : Single) : Single := if x.magnitudeBits = 0 then zero else x

end Single

end LongTermMemory
