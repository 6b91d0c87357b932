import Scaffold.Template.Argument

/-!
# Filters of numbers

Rounding, absolute values, and turning other values into numbers.
-/

namespace Scaffold.Number.Binary64

/-- A power of ten. -/
def tenTo (n : Int) : Binary64 := ofDecimal 1 n

/-- The integer part, brought into the range of 128 bits. -/
def clamped (x : Binary64) : Int :=
  if x.isNaN then 0
  else if !x.isFinite then (if x.isNegative then -(pow2 127) else pow2 127 - 1)
  else max (-(pow2 127)) (min (pow2 127 - 1) x.truncate)

end Scaffold.Number.Binary64

namespace Scaffold.Template.Filter

open Number

def round : Taking Value := do
  let v ← Taking.value
  let places ← Taking.optional Form.int32
  Taking.finish
  match v with
  | .int _ => pure v
  | .real x =>
    let n := places.getD 0
    let power := Binary64.tenTo (n.natAbs : Int)
    let scale := if n < 0 then Binary64.lift (· / ·) (Binary64.ofNat 1) power else power
    pure (.real (Binary64.lift (· / ·) (Binary64.lift (· * ·) scale x).roundHalfAway scale))
  | v => throw (.of .invalidOperation ("cannot round value of type " ++ v.kind.name))

def abs : Taking Value := do
  let v ← Taking.value
  Taking.finish
  match v with
  | .int i => pure (.int (i.natAbs : Int))
  | .real x => pure (.real (if x.isNegative then x.neg else x))
  | _ => throw (.of .invalidOperation "cannot get absolute value")

/-- The integer that a text writes. -/
def writtenInteger? (cs : List Char) : Option Int :=
  let i := match cs with
    | '-' :: r => (natural? 10 r).map fun n => -(n : Int)
    | '+' :: r => (natural? 10 r).map fun n => (n : Int)
    | r => (natural? 10 r).map fun n => (n : Int)
  i.filter inRange

/-- The number that a text writes. -/
def writtenReal (s : String) : Run Binary64 :=
  match Binary64.read? s.toList with
  | some x => pure x
  | none =>
    throw (.of .invalidOperation
      (if s = "" then "cannot parse float from empty string" else "invalid float literal"))

def int : Taking Value := do
  let v ← Taking.value
  Taking.finish
  match v with
  | .undefined _ => pure (.int 0)
  | .none => pure (.int 0)
  | .bool b => pure (.int (if b then 1 else 0))
  | .int _ => pure v
  | .real x => pure (.int x.clamped)
  | .text s _ =>
    match writtenInteger? s.toList with
    | some i => pure (.int i)
    | none => do pure (.int (← writtenReal s).clamped)
  | v => throw (.of .invalidOperation ("cannot convert " ++ v.kind.name ++ " to integer"))

def float : Taking Value := do
  let v ← Taking.value
  Taking.finish
  match v with
  | .undefined _ => pure (.real .zero)
  | .none => pure (.real .zero)
  | .bool b => pure (.real (if b then .ofNat 1 else .zero))
  | .int i => pure (.real (.ofInt i))
  | .real _ => pure v
  | .text s _ => do pure (.real (← writtenReal s))
  | v => throw (.of .invalidOperation ("cannot convert " ++ v.kind.name ++ " to float"))

end Scaffold.Template.Filter
