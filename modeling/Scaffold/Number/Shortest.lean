import Scaffold.Number.Binary64

/-!
# Shortest decimal digits

`shortest x` is the decimal with the fewest digits that lies in the interval of reals that round
to `x`, and of those the one nearest to `x`. The interval includes its ends exactly when the
significand of `x` is even. A `Layout` says how such digits are written.
-/

namespace Scaffold.Number

/-- The decimal `digits · 10 ^ exponent`. -/
structure Decimal where
  digits : Nat
  exponent : Int
deriving DecidableEq, Inhabited, Repr

/-- The interval of reals that round to a positive number, all in units of `2 ^ unit`. -/
structure Interval where
  low : Nat
  mid : Nat
  high : Nat
  unit : Int
  closed : Bool

def Interval.of (x : Binary64) : Interval :=
  let (m, e) := x.magnitude
  let below := if m = pow2 52 ∧ -1074 < e then 1 else 2
  ⟨4 * m - below, 4 * m, 4 * m + 2, e - 2, m % 2 == 0⟩

def digitCount (n : Nat) : Nat := (Nat.toDigits 10 n).length

/-- The decimal exponent of the first digit of `num / den`. -/
def leadingExponent (num den : Nat) : Int :=
  if den ≤ num then (digitCount (num / den) : Int) - 1
  else
    let k := digitCount (den / num)
    if den ≤ num * pow10 (k - 1) then -((k : Int) - 1) else -(k : Int)

/-- `n · 10 ^ k / 2 ^ unit` as a fraction. -/
def decimalRatio (n : Nat) (k unit : Int) : Nat × Nat :=
  let num := n * pow10 k.toNat * pow2 (-unit).toNat
  let den := pow10 (-k).toNat * pow2 unit.toNat
  (num, den)

def Interval.contains (i : Interval) (d : Decimal) : Bool :=
  let (num, den) := decimalRatio d.digits d.exponent i.unit
  if i.closed then i.low * den ≤ num && num ≤ i.high * den
  else i.low * den < num && num < i.high * den

/-- Twice the distance between a decimal and the middle, over a common denominator. -/
def Interval.distance (i : Interval) (d : Decimal) : Nat :=
  let (num, den) := decimalRatio d.digits d.exponent i.unit
  if num ≤ i.mid * den then i.mid * den - num else num - i.mid * den

/-- The best decimal of the interval on the grid of step `10 ^ k`, if there is one. -/
def Interval.onGrid? (i : Interval) (num den : Nat) (k : Int) : Option Decimal :=
  let below := num * pow10 (-k).toNat / (den * pow10 k.toNat)
  let a : Decimal := ⟨below, k⟩
  let b : Decimal := ⟨below + 1, k⟩
  match i.contains a, i.contains b with
  | true, true =>
    if i.distance a < i.distance b then some a
    else if i.distance b < i.distance a then some b
    else if below % 2 = 0 then some a else some b
  | true, false => some a
  | false, true => some b
  | false, false => none

/-- Moves trailing zeros of the digits into the exponent. -/
def Decimal.strip (fuel : Nat) (d : Decimal) : Decimal :=
  match fuel with
  | 0 => d
  | fuel + 1 =>
    if d.digits ≠ 0 ∧ d.digits % 10 = 0 then
      Decimal.strip fuel ⟨d.digits / 10, d.exponent + 1⟩
    else d

/-- The fewest digits that read back as `x`, a finite number, whose sign is not looked at. -/
def shortest (x : Binary64) : Decimal :=
  if x.isZero then ⟨0, 0⟩
  else
    let i := Interval.of x
    let (num, den) := x.ratio
    let top := leadingExponent num den
    match (List.range 17).findSome? fun (n : Nat) => i.onGrid? num den (top - n) with
    | some d => d.strip 20
    | none => ⟨0, 0⟩

/-- How digits are written: from which decimal exponents on an exponent is used, and its mark
for a positive exponent. A positional number always has a point. -/
structure Layout where
  /-- Least exponent of the first digit that is written positionally. -/
  least : Option Int
  /-- Least exponent of the first digit that is again written with an exponent. -/
  limit : Option Int
  plus : String

namespace Layout

/-- Always positional. -/
def positional : Layout := ⟨none, none, ""⟩

/-- An exponent below `1e-5` and from `1e16` on, its sign always written. -/
def signed : Layout := ⟨some (-5), some 16, "+"⟩

/-- An exponent below `1e-4` and from `1e16` on, a plus sign never written. -/
def quoted : Layout := ⟨some (-4), some 16, ""⟩

def zeros (n : Nat) : String := String.ofList (List.replicate n '0')

/-- Writes digits with the point after the first `whole` of them, padded with zeros. -/
def writePositional (digits : List Char) (top : Int) : String :=
  if top < 0 then "0." ++ zeros ((-top).toNat - 1) ++ String.ofList digits
  else
    let whole := top.toNat + 1
    let int := String.ofList (digits.take whole) ++ zeros (whole - digits.length)
    let frac := String.ofList (digits.drop whole)
    int ++ "." ++ (if frac = "" then "0" else frac)

def writeExponent (l : Layout) (digits : List Char) (top : Int) : String :=
  let head := String.ofList (digits.take 1)
  let rest := String.ofList (digits.drop 1)
  let mantissa := if rest = "" then head else head ++ "." ++ rest
  mantissa ++ "e" ++ (if top < 0 then toString top else l.plus ++ toString top)

/-- The text of a finite number. -/
def writeFinite (l : Layout) (x : Binary64) : String :=
  let sign := if x.isNegative then "-" else ""
  if x.isZero then sign ++ "0.0"
  else
    let d := shortest x
    let digits := Nat.toDigits 10 d.digits
    let top := d.exponent + (digits.length : Int) - 1
    let small := match l.least with
      | some k => decide (top < k)
      | none => false
    let large := match l.limit with
      | some k => decide (k ≤ top)
      | none => false
    sign ++ (if small || large then l.writeExponent digits top else writePositional digits top)

/-- The text of any number; infinities are `inf`, and `nanText` stands for not-a-number. -/
def write (l : Layout) (nanText : String) (x : Binary64) : String :=
  if x.isFinite then l.writeFinite x
  else if x.isNaN then nanText
  else if x.isNegative then "-inf" else "inf"

end Layout

end Scaffold.Number
