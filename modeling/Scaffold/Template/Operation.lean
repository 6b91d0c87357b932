import Scaffold.Failure
import Scaffold.Template.Access

/-!
# Operators

Arithmetic on integers is exact up to 128 bits and fails beyond; with a floating point number on
either side it is floating point arithmetic. Quotients and remainders of integers are Euclidean.
-/

namespace Scaffold.Number.Binary64

/-- Applies an operation of floating point numbers. -/
def lift (f : Float → Float → Float) (x y : Binary64) : Binary64 := ofFloat (f x.toFloat y.toFloat)

/-- The number without its fractional part, which keeps its sign. -/
def whole (x : Binary64) : Binary64 :=
  if x.isFinite then
    let t := ofNat x.truncate.natAbs
    if x.isNegative then t.neg else t
  else x

/-- The remainder of a quotient cut to an integer, with the sign of the first number. -/
def remainder (x y : Binary64) : Binary64 :=
  if !x.isFinite || y.isNaN || y.isZero then nan
  else if !y.isFinite then x
  else
    let (a, b) := x.ratio
    let (c, d) := y.ratio
    let r := ofRatio (a * d % (c * b)) (b * d)
    if x.isNegative then r.neg else r

/-- The quotient for which the remainder is not negative. -/
def euclideanQuotient (x y : Binary64) : Binary64 :=
  let q := (lift (· / ·) x y).whole
  let r := remainder x y
  if !r.isNaN && r.isNegative && !r.isZero then
    if y.isNegative then lift (· + ·) q (ofNat 1) else lift (· - ·) q (ofNat 1)
  else q

/-- Rounds to an integer, a half away from zero. -/
def roundHalfAway (x : Binary64) : Binary64 :=
  if x.isFinite then
    let (a, b) := x.ratio
    let t := ofNat ((2 * a + b) / (2 * b))
    if x.isNegative then t.neg else t
  else x

end Scaffold.Number.Binary64

namespace Scaffold.Template

open Number

namespace BinaryOperator

/-- How an operator is written. -/
def sign : BinaryOperator → String
  | eq => "=="
  | ne => "!="
  | lt => "<"
  | le => "<="
  | gt => ">"
  | ge => ">="
  | member => "in"
  | add => "+"
  | sub => "-"
  | mul => "*"
  | div => "/"
  | floorDiv => "//"
  | rem => "%"
  | power => "**"
  | concat => "~"

end BinaryOperator

/-- The integers that results of arithmetic may be. -/
def inRange (i : Int) : Bool := -(Number.pow2 127) ≤ i && i < Number.pow2 127

/-- The sizes of texts and lists that may be built by repetition. -/
def sizeLimit : Nat := Number.pow2 63

namespace Value

def unsupported (op : BinaryOperator) (a b : Value) : RenderFault :=
  .of .invalidOperation ("tried to use " ++ op.sign ++ " operator on unsupported types " ++
    a.kind.name ++ " and " ++ b.kind.name)

def incalculable (h : Heap) (op : BinaryOperator) (a b : Value) : RenderFault :=
  .of .invalidOperation ("unable to calculate " ++ a.shown h ++ " " ++ op.sign ++ " " ++ b.shown h)

/-- The result of exact arithmetic, if it is one. -/
def ofResult (h : Heap) (op : BinaryOperator) (a b : Value) (r : Option Int) :
    Except RenderFault Value :=
  match r with
  | some i => if inRange i then .ok (.int i) else .error (incalculable h op a b)
  | Option.none => .error (incalculable h op a b)

def coerce? (h : Heap) (a b : Value) : Option Coerced :=
  match (a.datum h).coerce? false (b.datum h) with
  | some (.ints i j) => if inRange i && inRange j then some (.ints i j) else Option.none
  | c => c

/-- Arithmetic on two numbers. -/
def arithmetic (h : Heap) (op : BinaryOperator) (exact : Int → Int → Option Int)
    (real : Binary64 → Binary64 → Binary64) (a b : Value) : Except RenderFault Value :=
  match coerce? h a b with
  | some (.ints i j) => ofResult h op a b (exact i j)
  | some (.reals x y) => .ok (.real (real x y))
  | _ => .error (unsupported op a b)

def isRow (v : Value) : Bool := v.kind == .sequence || v.kind == .iterator

/-- The number of repetitions that a value asks for. -/
def count? (v : Value) : Option Nat :=
  match v.integer? with
  | some i => if 0 ≤ i ∧ i < (sizeLimit : Int) * 2 then some i.toNat else Option.none
  | Option.none => Option.none

def add (h : Heap) (a b : Value) : Except RenderFault Value :=
  if a.isRow && b.isRow then
    .ok (.stream ((a.items? h).getD [] ++ (b.items? h).getD []))
  else
    match a, b with
    | .text s _, .text t _ => .ok (.ofText (s ++ t))
    | a, b => arithmetic h .add (fun i j => some (i + j)) (Binary64.lift (· + ·)) a b

def repeatText (s : String) (n : Value) : Except RenderFault Value :=
  match n.count? with
  | some n => .ok (.ofText (String.join (List.replicate n s)))
  | Option.none =>
    .error (.of .invalidOperation "strings can only be multiplied with integers")

def repeatRow (h : Heap) (v n : Value) : Except RenderFault Value :=
  match n.count? with
  | some n => .ok (.stream (List.replicate n ((v.items? h).getD [])).flatten)
  | Option.none =>
    .error (.of .invalidOperation "sequences and iterables can only be multiplied with integers")

def mul (h : Heap) (a b : Value) : Except RenderFault Value :=
  match a, b with
  | .text s _, n => repeatText s n
  | n, .text s _ => repeatText s n
  | a, b =>
    if a.isRow then repeatRow h a b
    else if b.isRow then repeatRow h b a
    else arithmetic h .mul (fun i j => some (i * j)) (Binary64.lift (· * ·)) a b

def div (h : Heap) (a b : Value) : Except RenderFault Value :=
  match (a.datum h).real? false, (b.datum h).real? false with
  | some x, some y => .ok (.real (Binary64.lift (· / ·) x y))
  | _, _ => .error (unsupported .div a b)

/-- A power of integers, if its exponent is not negative and the result not far too large. -/
def powerOf? (base exponent : Int) : Option Int :=
  if exponent < 0 ∨ Number.pow2 32 ≤ exponent then none?
  else if base.natAbs ≤ 1 then some (Int.pow base (exponent.toNat % 2 + 2 * min (exponent.toNat / 2) 1))
  else if 127 < exponent then none?
  else some (Int.pow base exponent.toNat)
where
  none? : Option Int := Option.none

def contains (h : Heap) (item container : Value) : Except RenderFault Bool :=
  match container with
  | .undefined true => .ok false
  | .undefined false => .error (.bare .undefinedValue)
  | .text s _ =>
    let part := match item with
      | .text t _ => t
      | v => v.shown h
    .ok (isInfix part.toList s.toList)
  | .none => .error noContainer
  | .bool _ => .error noContainer
  | .int _ => .error noContainer
  | .real _ => .error noContainer
  | .builtin _ => .ok false
  | .routine .. => .ok false
  | .loop _ => .ok false
  | c =>
    if c.kind == .map then .ok (c.item? h item).isSome
    else .ok (((c.items? h).getD []).any fun v => (v.datum h).same (item.datum h))
where
  noContainer : RenderFault :=
    .of .invalidOperation "cannot perform a containment check on this value"
  isInfix (part : List Char) : List Char → Bool
    | [] => part.isEmpty
    | c :: r => part.isPrefixOf (c :: r) || isInfix part r

/-- The text of a value, which has to be defined. -/
def definedText (h : Heap) (v : Value) : Except RenderFault String :=
  match v with
  | .undefined false => .error (.bare .undefinedValue)
  | v => .ok (v.shown h)

def binary (h : Heap) (op : BinaryOperator) (a b : Value) : Except RenderFault Value :=
  let ordered (p : Ordering → Bool) : Except RenderFault Value :=
    .ok (.bool (p ((a.datum h).order (b.datum h))))
  match op with
  | .eq => .ok (.bool ((a.datum h).same (b.datum h)))
  | .ne => .ok (.bool !(a.datum h).same (b.datum h))
  | .lt => ordered (· == .lt)
  | .le => ordered (· != .gt)
  | .gt => ordered (· == .gt)
  | .ge => ordered (· != .lt)
  | .member => (contains h a b).map .bool
  | .add => add h a b
  | .sub => arithmetic h .sub (fun i j => some (i - j)) (Binary64.lift (· - ·)) a b
  | .mul => mul h a b
  | .div => div h a b
  | .floorDiv =>
    arithmetic h .floorDiv (fun i j => if j = 0 then Option.none else some (i / j))
      Binary64.euclideanQuotient a b
  | .rem =>
    arithmetic h .rem (fun i j => if j = 0 then Option.none else some (i % j))
      Binary64.remainder a b
  | .power => arithmetic h .power powerOf? (Binary64.lift Float.pow) a b
  | .concat => do .ok (.ofText ((← definedText h a) ++ (← definedText h b)))

def negate (v : Value) : Except RenderFault Value :=
  match v with
  | .int i =>
    if inRange (-i) then .ok (.int (-i))
    else .error (if inRange i then .of .invalidOperation "overflow" else .bare .invalidOperation)
  | .real x => .ok (.real x.neg)
  | _ => .error (.bare .invalidOperation)

/-- The bound of a slice, if there is one. -/
def bound? (v : Value) : Except RenderFault (Option Int) :=
  match v with
  | .undefined true => .ok Option.none
  | .none => .ok Option.none
  | v =>
    match v.index? with
    | some i => .ok (some i)
    | Option.none =>
      .error (.of .invalidOperation ("cannot convert " ++ v.kind.name ++ " to i64"))

/-- The place that a bound stands for in a list of this length, within the limits. -/
def clampBound (length : Nat) (low high : Int) (i : Int) : Int :=
  max low (min high (if i < 0 then i + length else i))

/-- Every `step`-th item. -/
def everyNth {α : Type} (step : Nat) (skip : Nat) : List α → List α
  | [] => []
  | a :: r =>
    match skip with
    | 0 => a :: everyNth step (step - 1) r
    | n + 1 => everyNth step n r

/-- The items from one bound up to another. A negative step goes from the end to the front. -/
def sliceList {α : Type} (start stop : Option Int) (step : Int) (xs : List α) : List α :=
  let n : Int := xs.length
  if 0 < step then
    let a := clampBound xs.length 0 n (start.getD 0)
    let b := clampBound xs.length 0 n (stop.getD n)
    everyNth step.toNat 0 ((xs.drop a.toNat).take (b - a).toNat)
  else
    let a := match start with
      | some i => clampBound xs.length (-1) (n - 1) i
      | Option.none => n - 1
    let b := match stop with
      | some i => clampBound xs.length (-1) (n - 1) i
      | Option.none => -1
    everyNth (-step).toNat 0 ((xs.drop (b + 1).toNat).take (a - b).toNat).reverse

def slice (h : Heap) (v start stop step : Value) : Except RenderFault Value := do
  let a ← bound? start
  let b ← bound? stop
  let s := (← bound? step).getD 1
  if s = 0 then throw (.of .invalidOperation "cannot slice by step size of 0")
  match v with
  | .undefined true => pure (.list [])
  | .undefined false => throw (.bare .undefinedValue)
  | .none => pure (.list [])
  | .text t _ => pure (.ofText (String.ofList (sliceList a b s t.toList)))
  | v =>
    if v.isRow then pure (.stream (sliceList a b s ((v.items? h).getD [])))
    else throw (.of .invalidOperation ("value of type " ++ v.kind.name ++ " cannot be sliced"))

end Value

end Scaffold.Template
