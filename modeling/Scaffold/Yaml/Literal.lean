import Scaffold.Decode
import Scaffold.Number.Written
import Scaffold.Yaml.Draft

/-!
# What scalars mean

A plain scalar may be a null, a boolean, an integer or a floating point number; every other scalar
is a string, unless its tag says otherwise. `Literal.of` gives the meaning of a scalar, or the
fault of a tag that its text does not satisfy.
-/

namespace Scaffold.Yaml

open Number

/-- Integers of 64 bits are apart from wider ones, and those read as negative from the others. -/
inductive Literal
  | null
  | bool (b : Bool)
  | natural (n : Nat)
  | negative (i : Int)
  | wide (i : Int)
  | real (x : Binary64)
  | string (s : String)
deriving Inhabited

namespace Literal

def isNull (s : String) : Bool := s == "null" || s == "Null" || s == "NULL" || s == "~"

def bool? (s : String) : Option Bool :=
  if s == "true" || s == "True" || s == "TRUE" then some true
  else if s == "false" || s == "False" || s == "FALSE" then some false
  else none

/-- Digits with a zero in front of them are no number. -/
def hasLeadingZero (cs : List Char) : Bool :=
  let cs := match cs with
    | '-' :: r => r
    | '+' :: r => r
    | r => r
  match cs with
  | '0' :: r => !r.isEmpty && r.all Char.isDigit
  | _ => false

/-- The bases of integers and the letters that name them. -/
def bases : List (Char × Nat) := [('x', 16), ('o', 8), ('b', 2)]

def withBase? (limit : Nat) (c : Char) (digits : List Char) : Option Nat :=
  (bases.lookup c).bind fun base => (natural? base digits).filter (· ≤ limit)

/-- A number without a sign, or with a plus, that is at most `limit`. -/
def unsigned? (limit : Nat) (cs : List Char) : Option Nat :=
  let body := match cs with
    | '+' :: r => r
    | r => r
  let based := match body with
    | '0' :: c :: r => withBase? limit c r
    | _ => none
  match based with
  | some n => some n
  | none =>
    if hasLeadingZero cs then none else (natural? 10 body).filter (· ≤ limit)

/-- A number with a minus whose absolute value is at most `limit`. -/
def signed? (limit : Nat) (cs : List Char) : Option Int :=
  match cs with
  | '-' :: r =>
    let based := match r with
      | '0' :: c :: r => withBase? limit c r
      | _ => none
    let n := match based with
      | some n => some n
      | none => if hasLeadingZero cs then none else (natural? 10 r).filter (· ≤ limit)
    n.map fun n => -(n : Int)
  | _ => none

def integer? (s : String) : Option Literal :=
  let cs := s.toList
  ((unsigned? (Number.pow2 64 - 1) cs).map natural).or <|
    ((signed? (Number.pow2 63) cs).map negative).or <|
      ((unsigned? (Number.pow2 128 - 1) cs).map fun n => wide n).or <|
        (signed? (Number.pow2 127) cs).map wide

def real? (s : String) : Option Binary64 :=
  let positive := match s.toList with
    | '+' :: r => r
    | r => r
  if s.toList.head? = some '+' ∧ (positive.head? = some '+' ∨ positive.head? = some '-') then none
  else
    let p := String.ofList positive
    if p = ".inf" ∨ p = ".Inf" ∨ p = ".INF" then some Binary64.infinity
    else if s = "-.inf" ∨ s = "-.Inf" ∨ s = "-.INF" then some Binary64.infinity.neg
    else if s = ".nan" ∨ s = ".NaN" ∨ s = ".NAN" then some Binary64.nan
    else (Binary64.read? positive).filter Binary64.isFinite

/-- The meaning of a plain scalar. -/
def ofPlain (s : String) : Literal :=
  if s = "" ∨ isNull s then null
  else
    match bool? s with
    | some b => bool b
    | none =>
      match integer? s with
      | some l => l
      | none =>
        if hasLeadingZero s.toList then string s
        else
          match real? s with
          | some x => real x
          | none => string s

/-- A tag of the standard, by its last part. -/
def standardTag (name : String) : String := "tag:yaml.org,2002:" ++ name

/-- Tags that no standard names begin with an exclamation mark. -/
def isLocalTag (t : String) : Bool := t.toList.head? == some '!'

/-- The meaning of a scalar. -/
def of (tag : Option String) (style : ScalarStyle) (s : String) : Except Decode.Fault Literal :=
  let untagged : Literal := if style = .plain then ofPlain s else string s
  let needs (kind : String) (l : Option Literal) : Except Decode.Fault Literal :=
    match l with
    | some l => .ok l
    | none => .error (.invalidValue (.string s) kind)
  match tag with
  | none => .ok untagged
  | some t =>
    if t = standardTag "bool" then needs "a boolean" ((bool? s).map bool)
    else if t = standardTag "int" then needs "an integer" (integer? s)
    else if t = standardTag "float" then needs "a float" ((real? s).map real)
    else if t = standardTag "null" then needs "null" (if isNull s then some null else none)
    else if isLocalTag t then .ok untagged
    else .ok (string s)

def found : Literal → Decode.Found
  | null => .null
  | bool b => .bool b
  | natural n => .int n
  | negative i => .int i
  | wide i => .wide i
  | real x => .real x
  | string s => .string s

end Literal

end Scaffold.Yaml
