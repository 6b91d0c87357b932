import Scaffold.Number.Powers

/-!
# Binary floating point numbers of 64 bits

A number is kept as its bit pattern, so that it has decidable equality; its exact value is
`magnitude`, a pair `(m, e)` for `m · 2 ^ e`. `ofRatio` rounds an exact quotient of natural
numbers to the nearest representable number, a tie to the even neighbour.
-/

namespace Scaffold.Number

structure Binary64 where
  bits : UInt64
deriving DecidableEq, Inhabited, Repr

namespace Binary64

def toFloat (x : Binary64) : Float := Float.ofBits x.bits

def ofFloat (f : Float) : Binary64 := ⟨f.toBits⟩

def isNegative (x : Binary64) : Bool := x.bits.toNat / pow2 63 == 1

def exponentField (x : Binary64) : Nat := x.bits.toNat / pow2 52 % pow2 11

def fractionField (x : Binary64) : Nat := x.bits.toNat % pow2 52

def isFinite (x : Binary64) : Bool := x.exponentField != 2047

def isNaN (x : Binary64) : Bool := x.exponentField == 2047 && x.fractionField != 0

def isZero (x : Binary64) : Bool := x.bits.toNat % pow2 63 == 0

/-- The absolute value of a finite number as `m · 2 ^ e`. -/
def magnitude (x : Binary64) : Nat × Int :=
  if x.exponentField = 0 then (x.fractionField, -1074)
  else (pow2 52 + x.fractionField, (x.exponentField : Int) - 1075)

def neg (x : Binary64) : Binary64 :=
  if x.isNegative then ⟨UInt64.ofNat (x.bits.toNat - pow2 63)⟩
  else ⟨UInt64.ofNat (x.bits.toNat + pow2 63)⟩

def infinity : Binary64 := ⟨0x7FF0000000000000⟩

def nan : Binary64 := ⟨0x7FF8000000000000⟩

def zero : Binary64 := ⟨0⟩

/-- Equality as numbers: the two zeros are equal, and not-a-number equals nothing. -/
def numEq (x y : Binary64) : Bool :=
  !x.isNaN && !y.isNaN && (x == y || (x.isZero && y.isZero))

/-- The quotient rounded to the nearest natural number, a tie to the even one. -/
def roundDiv (num den : Nat) : Nat :=
  let q := num / den
  let r := num % den
  if 2 * r < den then q else if den < 2 * r then q + 1 else q + q % 2

/-- Packs `m · 2 ^ e` with `m ≤ 2 ^ 53`, where `m < 2 ^ 52` only for `e = -1074`. -/
def pack (m : Nat) (e : Int) : Binary64 :=
  let (m, e) := if m = pow2 53 then (pow2 52, e + 1) else (m, e)
  if m < pow2 52 then ⟨UInt64.ofNat m⟩
  else if 971 < e then infinity
  else ⟨UInt64.ofNat ((e + 1075).toNat * pow2 52 + (m - pow2 52))⟩

/-- `num · 2 ^ e / den` for a possibly negative `e`, as a fraction. -/
def scale (num den : Nat) (e : Int) : Nat × Nat :=
  if e < 0 then (num, den * pow2 (-e).toNat) else (num * pow2 e.toNat, den)

/-- The number nearest to `num / den`. -/
def ofRatio (num den : Nat) : Binary64 :=
  if num = 0 ∨ den = 0 then zero
  else
    let guess : Int := (num.log2 : Int) - (den.log2 : Int) - 52
    let (a, b) := scale num den (-guess)
    let e := max (if a < b * pow2 52 then guess - 1 else guess) (-1074)
    let (a, b) := scale num den (-e)
    pack (roundDiv a b) e

def ofNat (n : Nat) : Binary64 := ofRatio n 1

def ofInt (i : Int) : Binary64 := if i < 0 then (ofNat i.natAbs).neg else ofNat i.natAbs

/-- The finite number as a fraction of natural numbers, without its sign. -/
def ratio (x : Binary64) : Nat × Nat :=
  let (m, e) := x.magnitude
  scale m 1 e

/-- The number nearest to the decimal `digits · 10 ^ e`. -/
def ofDecimal (digits : Nat) (e : Int) : Binary64 :=
  if e < 0 then ofRatio digits (pow10 (-e).toNat) else ofRatio (digits * pow10 e.toNat) 1

/-- The product of two finite numbers without sign, rounded once. -/
def mul (x y : Binary64) : Binary64 :=
  let (a, b) := x.ratio
  let (c, d) := y.ratio
  ofRatio (a * c) (b * d)

/-- The quotient of two finite numbers without sign, rounded once. -/
def div (x y : Binary64) : Binary64 :=
  let (a, b) := x.ratio
  let (c, d) := y.ratio
  ofRatio (a * d) (b * c)

/-- The integer part of a finite number. -/
def truncate (x : Binary64) : Int :=
  let (a, b) := x.ratio
  if x.isNegative then -((a / b : Nat) : Int) else ((a / b : Nat) : Int)

/-- Whether a finite number has no fractional part. -/
def isIntegral (x : Binary64) : Bool :=
  let (a, b) := x.ratio
  a % b == 0

end Binary64

end Scaffold.Number
