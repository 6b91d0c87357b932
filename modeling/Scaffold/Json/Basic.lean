import Scaffold.Entries
import Scaffold.Number.Shortest

/-!
# JSON values

The members of an object stand in a list. Values read generically have their keys in increasing
order and without repetition (`Json.canonical`); documents that are written keep the order in
which their members were put.
-/

namespace Scaffold

/-- A number of a JSON text: an integer of at most 64 bits, or a floating point number. -/
inductive JsonNumber
  | int (i : Int)
  | real (x : Number.Binary64)
deriving DecidableEq, Inhabited

/-- Integers and floating point numbers are never equal to each other. -/
def JsonNumber.same : JsonNumber → JsonNumber → Bool
  | .int i, .int j => i == j
  | .real x, .real y => x.numEq y
  | _, _ => false

inductive Json
  | null
  | bool (b : Bool)
  | number (n : JsonNumber)
  | string (s : String)
  | array (items : List Json)
  | object (members : List (String × Json))
deriving Inhabited

namespace Json

mutual

/-- Equality of values whose members are listed in the same order. -/
def same : Json → Json → Bool
  | .null, .null => true
  | .bool a, .bool b => a == b
  | .number a, .number b => a.same b
  | .string a, .string b => a == b
  | .array a, .array b => sameItems a b
  | .object a, .object b => sameMembers a b
  | _, _ => false

def sameItems : List Json → List Json → Bool
  | [], [] => true
  | a :: r, b :: s => same a b && sameItems r s
  | _, _ => false

def sameMembers : List (String × Json) → List (String × Json) → Bool
  | [], [] => true
  | (k, a) :: r, (l, b) :: s => k == l && same a b && sameMembers r s
  | _, _ => false

end

/-- Members in increasing order of their keys, the last of a repeated key. -/
def sortMembers (ms : List (String × Json)) : List (String × Json) :=
  ms.foldl (fun acc (k, v) => Entries.put k v acc) []

mutual

/-- The value with the members of every object in increasing order. -/
def canonical : Json → Json
  | .array items => .array (canonicalItems items)
  | .object members => .object (sortMembers (canonicalMembers members))
  | v => v

def canonicalItems : List Json → List Json
  | [] => []
  | v :: r => canonical v :: canonicalItems r

def canonicalMembers : List (String × Json) → List (String × Json)
  | [] => []
  | (k, v) :: r => (k, canonical v) :: canonicalMembers r

end

def string? : Json → Option String
  | .string s => some s
  | _ => none

def isString : Json → Bool
  | .string _ => true
  | _ => false

def member? (k : String) : Json → Option Json
  | .object ms => ms.lookup k
  | _ => none

end Json

end Scaffold
