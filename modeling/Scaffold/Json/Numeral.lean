import Scaffold.Json.Basic

/-!
# Numerals of JSON text

A `Numeral` keeps the digits of a number as they are written. Its value is an integer where
neither a point nor an exponent is written and 64 bits suffice. Any other value is the leading
digits that fit into 64 bits, rounded, and then multiplied or divided by a power of ten, rounded
again; a result that is too large is no value at all.
-/

namespace Scaffold

open Number

structure Numeral where
  negative : Bool
  whole : List Char
  fraction : List Char
  /-- The sign of the exponent and its digits. -/
  exponent : Option (Bool × List Char)
deriving Inhabited

namespace Numeral

def digitValue (c : Char) : Nat := c.toNat - '0'.toNat

def largest : Nat := Number.pow2 64 - 1

/-- Leading digits that fit into 64 bits, and the power of ten they are to be taken times. -/
structure Scaled where
  digits : Nat
  power : Int
  full : Bool

/-- A further digit before the point. Once one does not fit, none is taken any more. -/
def Scaled.wholeDigit (s : Scaled) (c : Char) : Scaled :=
  let n := s.digits * 10 + digitValue c
  if s.full || largest < n then ⟨s.digits, s.power + 1, true⟩ else ⟨n, s.power, false⟩

/-- A further digit after the point. Once one does not fit, none is taken any more. -/
def Scaled.fractionDigit (s : Scaled) (c : Char) : Scaled :=
  let n := s.digits * 10 + digitValue c
  if s.full || largest < n then ⟨s.digits, s.power, true⟩ else ⟨n, s.power - 1, false⟩

def digitsValue (cs : List Char) : Nat := cs.foldl (fun n c => n * 10 + digitValue c) 0

/-- `f · 10 ^ e`, by steps of at most `10 ^ 308`, each rounded; absent if it is infinite. -/
def scaleBy (fuel : Nat) (f : Binary64) (e : Int) : Option Binary64 :=
  match fuel with
  | 0 => some f
  | fuel + 1 =>
    if e.natAbs ≤ 308 then
      if 0 ≤ e then
        let r := f.mul (Binary64.ofDecimal 1 e)
        if r.isFinite then some r else none
      else some (f.div (Binary64.ofDecimal 1 (-e)))
    else if f.isZero then some f
    else if 0 ≤ e then none
    else scaleBy fuel (f.div (Binary64.ofDecimal 1 308)) (e + 308)

def signed (negative : Bool) (f : Binary64) : Binary64 := if negative then f.neg else f

/-- The exponents that are counted at all reach to `2 ^ 31 - 1`. -/
def exponentLimit : Nat := Number.pow2 31 - 1

def real? (n : Numeral) : Option Binary64 :=
  let w := n.whole.foldl Scaled.wholeDigit ⟨0, 0, false⟩
  let s := n.fraction.foldl Scaled.fractionDigit { w with full := false }
  let f := Binary64.ofNat s.digits
  match n.exponent with
  | none => (scaleBy 8 f s.power).map (signed n.negative)
  | some (below, ds) =>
    let e := digitsValue ds
    if exponentLimit < e then
      if s.digits ≠ 0 ∧ !below then none else some (signed n.negative Binary64.zero)
    else (scaleBy 8 f (if below then s.power - e else s.power + e)).map (signed n.negative)

/-- The number that a numeral stands for; absent if it is too large. -/
def value? (n : Numeral) : Option JsonNumber :=
  let i := digitsValue n.whole
  if n.fraction.isEmpty && n.exponent.isNone && i ≤ largest then
    if !n.negative then some (.int i)
    else if i = 0 ∨ Number.pow2 63 < i then some (.real (Binary64.ofNat i).neg)
    else some (.int (-i))
  else n.real?.map .real

end Numeral

end Scaffold
