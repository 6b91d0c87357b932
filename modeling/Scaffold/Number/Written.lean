import Scaffold.Number.Binary64

/-!
# Written numbers

`Binary64.read?` reads a decimal number as it is commonly written: a sign, digits with a point
before, among or after them, and an exponent. The result is the number nearest to the exact value.
Also `natural?` reads digits of any base up to sixteen.
-/

namespace Scaffold.Number

def digitOf? (base : Nat) (c : Char) : Option Nat :=
  let d :=
    if '0' ≤ c ∧ c ≤ '9' then c.toNat - '0'.toNat
    else if 'a' ≤ c ∧ c ≤ 'f' then c.toNat - 'a'.toNat + 10
    else if 'A' ≤ c ∧ c ≤ 'F' then c.toNat - 'A'.toNat + 10
    else base
  if d < base then some d else none

def naturalFrom (base value : Nat) : List Char → Option Nat
  | [] => some value
  | c :: r => do naturalFrom base (value * base + (← digitOf? base c)) r

/-- The number that one digit or more write. -/
def natural? (base : Nat) : List Char → Option Nat
  | [] => none
  | cs => naturalFrom base 0 cs

/-- The value of decimal digits. -/
def digitsToNat (cs : List Char) : Nat := cs.foldl (fun n c => n * 10 + (c.toNat - '0'.toNat)) 0

/-- Beyond this exponent a decimal with a first digit before the point is infinite, or zero if
negative. -/
def exponentBound : Int := 400

namespace Binary64

/-- The number nearest to `digits · 10 ^ e`, where `digits` has `count` digits. -/
def ofDecimalBounded (digits count : Nat) (e : Int) : Binary64 :=
  if digits = 0 then zero
  else if exponentBound < e + count then infinity
  else if e + count < -exponentBound then zero
  else ofDecimal digits e

/-- Reads an exponent, which may be left out. -/
def readExponent? : List Char → Option Int
  | [] => some 0
  | c :: r =>
    if c = 'e' ∨ c = 'E' then
      let (negative, ds) := match r with
        | '-' :: ds => (true, ds)
        | '+' :: ds => (false, ds)
        | ds => (false, ds)
      if ds.isEmpty ∨ !ds.all Char.isDigit then none
      else some (if negative then -(digitsToNat ds : Int) else (digitsToNat ds : Int))
    else none

/-- Reads a decimal number without its sign. -/
def readUnsigned? (cs : List Char) : Option Binary64 :=
  let whole := cs.takeWhile Char.isDigit
  let rest := cs.dropWhile Char.isDigit
  let (fraction, rest) := match rest with
    | '.' :: r => (r.takeWhile Char.isDigit, r.dropWhile Char.isDigit)
    | r => ([], r)
  if whole.isEmpty && fraction.isEmpty then none
  else
    (readExponent? rest).map fun e =>
      let digits := whole ++ fraction
      ofDecimalBounded (digitsToNat digits) digits.length (e - fraction.length)

/-- The names of numbers that no digits write. -/
def readName? (cs : List Char) : Option Binary64 :=
  let s := String.ofList (cs.map Char.toLower)
  if s = "inf" ∨ s = "infinity" then some infinity
  else if s = "nan" then some nan
  else none

/-- Reads a number with or without a sign. -/
def read? (cs : List Char) : Option Binary64 :=
  match cs with
  | '-' :: r => ((readUnsigned? r).or (readName? r)).map neg
  | '+' :: r => (readUnsigned? r).or (readName? r)
  | r => (readUnsigned? r).or (readName? r)

end Binary64

end Scaffold.Number
