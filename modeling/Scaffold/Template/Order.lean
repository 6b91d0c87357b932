import Scaffold.Template.Datum
import Scaffold.Text.Case

/-!
# Equality and order of data

Truth values count as the numbers 0 and 1 when they are compared for equality, and lists equal
streams of the same items. In the order, values of different kinds are ordered by their kinds.
-/

namespace Scaffold.Number.Binary64

/-- The bits of a number as an integer, in the order of the numbers. Negative zero comes before
zero. -/
def orderKey (x : Binary64) : Int :=
  if x.isNegative then -((x.bits.toNat - Number.pow2 63 : Nat) : Int) - 1 else (x.bits.toNat : Int)

end Scaffold.Number.Binary64

namespace Scaffold.Template

open Number

/-- Two data brought to one type. -/
inductive Coerced
  | ints (a b : Int)
  | reals (a b : Binary64)
  | texts (a b : String)

namespace Datum

def int? : Datum → Option Int
  | bool b => some (if b then 1 else 0)
  | int i => some i
  | _ => Option.none

/-- The number as a floating point number; with `exact` only if nothing is lost. -/
def real? (exact : Bool) : Datum → Option Binary64
  | real x => some x
  | d => do
    let i ← d.int?
    let x := Binary64.ofInt i
    if exact && x.truncate != i then Option.none else some x

def coerce? (exact : Bool) : Datum → Datum → Option Coerced
  | text a, text b => some (.texts a b)
  | real x, d => (d.real? exact).map (.reals x ·)
  | d, real y => (d.real? exact).map (.reals · y)
  | a, b => do some (.ints (← a.int?) (← b.int?))

mutual

/-- Whether two data are equal. -/
def same : Datum → Datum → Bool
  | undefined, d => d.kind == .undefined
  | none, d => d.kind == .none
  | list xs, list ys => sameItems xs ys
  | list xs, stream ys => sameItems xs ys
  | stream xs, list ys => sameItems xs ys
  | stream xs, stream ys => sameItems xs ys
  | map ks vs, map js ws =>
    ks.length == js.length &&
      ((sameRows ks js).zip (sameRows vs ws)).all fun (r, s) => (r.zip s).any fun (a, b) => a && b
  | closed s, closed t => s == t
  | a, b =>
    match coerce? true a b with
    | some (.ints i j) => i == j
    | some (.reals x y) => x.numEq y
    | some (.texts s t) => s == t
    | Option.none => false

def sameItems : List Datum → List Datum → Bool
  | [], [] => true
  | x :: xs, y :: ys => same x y && sameItems xs ys
  | _, _ => false

/-- For every item of the first list, which items of the second are equal to it. -/
def sameRows : List Datum → List Datum → List (List Bool)
  | [], _ => []
  | x :: xs, ys => ys.map (same x) :: sameRows xs ys

end

/-- The first difference decides, then the length. -/
def lexicographic (os : List Ordering) (m n : Nat) : Ordering :=
  match os.find? (· != .eq) with
  | some o => o
  | Option.none => compare m n

def interleave : List Ordering → List Ordering → List Ordering
  | a :: r, b :: s => a :: b :: interleave r s
  | _, _ => []

def compareScalars (a b : Datum) : Ordering :=
  match coerce? false a b with
  | some (.ints i j) => compare i j
  | some (.reals x y) => compare x.orderKey y.orderKey
  | some (.texts s t) => compare s t
  | Option.none => .eq

mutual

/-- The order of data. -/
def order : Datum → Datum → Ordering
  | list xs, list ys => lexicographic (orders xs ys) xs.length ys.length
  | stream xs, stream ys => lexicographic (orders xs ys) xs.length ys.length
  | map ks vs, map js ws =>
    lexicographic (interleave (orders ks js) (orders vs ws)) ks.length js.length
  | closed s, closed t => compare s t
  | a, b => (compare a.kind.rank b.kind.rank).then (compareScalars a b)

def orders : List Datum → List Datum → List Ordering
  | x :: xs, y :: ys => order x y :: orders xs ys
  | _, _ => []

end

/-- The order in which filters sort: texts without regard to case unless asked otherwise. -/
def sortOrder (caseSensitive : Bool) (a b : Datum) : Ordering :=
  match caseSensitive, a, b with
  | false, text s, text t => compare (Text.lower s) (Text.lower t)
  | _, a, b => order a b

end Datum

/-- Sorts by an order, equal things in their given order. -/
def sortBy {α : Type} (f : α → α → Ordering) (xs : List α) : List α :=
  xs.mergeSort fun a b => f a b != .gt

end Scaffold.Template
