import Scaffold.Json.Printer

/-!
# Schemas of JSON values

A `Schema` allows everything, nothing, or what satisfies a list of rules. `Schema.violations` are
all violations of a value, in the order of the rules; objects are gone through in the order of their
members. A rule about the parts of a value may refer to the whole schema (`Target.whole`), which is
how a schema describes trees.
-/

namespace Scaffold

/-- The types of JSON values; integers are numbers too. -/
inductive JsonType
  | array
  | boolean
  | integer
  | null
  | number
  | object
  | string
deriving DecidableEq, Inhabited

namespace JsonType

/-- All types in the order of their names. -/
def all : List JsonType := [array, boolean, integer, null, number, object, string]

def name : JsonType → String
  | array => "array"
  | boolean => "boolean"
  | integer => "integer"
  | null => "null"
  | number => "number"
  | object => "object"
  | string => "string"

def ofName? (s : String) : Option JsonType := all.find? (·.name == s)

end JsonType

/-- Whether a number has no fractional part. -/
def JsonNumber.isIntegral : JsonNumber → Bool
  | .int _ => true
  | .real x => x.isFinite && x.isIntegral

/-- The number as a fraction. -/
def JsonNumber.fraction : JsonNumber → Int × Nat
  | .int i => (i, 1)
  | .real x =>
    let (a, b) := x.ratio
    (if x.isNegative then -(a : Int) else a, b)

def JsonNumber.lt (x y : JsonNumber) : Bool :=
  let (a, b) := x.fraction
  let (c, d) := y.fraction
  decide (a * d < c * b)

/-- Equality by value, whether written as an integer or not. -/
def JsonNumber.equals (x y : JsonNumber) : Bool :=
  let (a, b) := x.fraction
  let (c, d) := y.fraction
  a * d == c * b

namespace Json

def hasType (v : Json) : JsonType → Bool
  | .array => match v with | .array _ => true | _ => false
  | .boolean => match v with | .bool _ => true | _ => false
  | .integer => match v with | .number n => n.isIntegral | _ => false
  | .null => match v with | .null => true | _ => false
  | .number => match v with | .number _ => true | _ => false
  | .object => match v with | .object _ => true | _ => false
  | .string => v.isString

mutual

/-- Equality of values, numbers by what they are worth. -/
def equals : Json → Json → Bool
  | .null, .null => true
  | .bool a, .bool b => a == b
  | .number a, .number b => a.equals b
  | .string a, .string b => a == b
  | .array a, .array b => equalItems a b
  | .object a, .object b => equalMembers a b
  | _, _ => false

def equalItems : List Json → List Json → Bool
  | [], [] => true
  | a :: r, b :: s => equals a b && equalItems r s
  | _, _ => false

def equalMembers : List (String × Json) → List (String × Json) → Bool
  | [], [] => true
  | (k, a) :: r, (l, b) :: s => k == l && equals a b && equalMembers r s
  | _, _ => false

end

/-- Whether no two of the values are equal. -/
def allDistinct : List Json → Bool
  | [] => true
  | v :: r => !r.any (equals v) && allDistinct r

end Json

mutual

inductive Schema
  | anything
  | nothing
  | rules (rs : List Rule)

/-- What the parts of a value are checked against. -/
inductive Target
  | whole
  | schema (s : Schema)

/-- What a schema says about the members of an object that it does not name. -/
inductive Others
  | free
  | refused
  | checked (t : Target)

inductive Rule
  | types (ts : List JsonType)
  | enum (options : List Json)
  | const (v : Json)
  | minimum (n : JsonNumber)
  | maximum (n : JsonNumber)
  | minLength (n : Nat)
  | maxLength (n : Nat)
  | minItems (n : Nat)
  | maxItems (n : Nat)
  | uniqueItems
  | items (t : Target)
  | required (names : List String)
  | members (named : List (String × Target)) (others : Others)
  | empty
  | propertyNames (s : Schema)
  | allOf (ss : List Schema)
  | anyOf (ss : List Schema)
  | oneOf (ss : List Schema)
  | not (source : Json) (s : Schema)

end

instance : Inhabited Schema := ⟨.anything⟩

/-- A value that a schema does not allow, and why. -/
inductive Violation
  | refused (v : Json)
  | types (v : Json) (ts : List JsonType)
  | enum (v : Json) (options : List Json)
  | const (expected : Json)
  | minimum (v : Json) (n : JsonNumber)
  | maximum (v : Json) (n : JsonNumber)
  | exclusiveMinimum (v : Json) (n : JsonNumber)
  | minLength (v : Json) (n : Nat)
  | maxLength (v : Json) (n : Nat)
  | minItems (v : Json) (n : Nat)
  | maxItems (v : Json) (n : Nat)
  | uniqueItems (v : Json)
  | required (name : String)
  | unexpected (names : List String)
  | noneOf (v : Json) (keyword : String)
  | manyOf (v : Json)
  | not (v : Json) (source : Json)
deriving Inhabited

namespace Violation

def counted (n : Nat) (noun : String) : String :=
  toString n ++ " " ++ noun ++ (if n = 1 then "" else "s")

def namesOfTypes (ts : List JsonType) : String :=
  match ts with
  | [t] => "type \"" ++ t.name ++ "\""
  | ts => "types " ++ ", ".intercalate (ts.map fun t => "\"" ++ t.name ++ "\"")

/-- An enumeration of values: at most three, or two and how many more there are. -/
def options (vs : List Json) : String :=
  match vs.map Json.compact with
  | [] => ""
  | [a] => a
  | [a, b] => a ++ " or " ++ b
  | [a, b, c] => a ++ ", " ++ b ++ " or " ++ c
  | a :: b :: r => a ++ ", " ++ b ++ " or " ++ toString r.length ++ " other candidates"

def message : Violation → String
  | refused v => "False schema does not allow " ++ v.compact
  | types v ts => v.compact ++ " is not of " ++ namesOfTypes ts
  | enum v os => v.compact ++ " is not one of " ++ options os
  | const e => e.compact ++ " was expected"
  | minimum v n => v.compact ++ " is less than the minimum of " ++ n.text
  | maximum v n => v.compact ++ " is greater than the maximum of " ++ n.text
  | exclusiveMinimum v n => v.compact ++ " is less than or equal to the minimum of " ++ n.text
  | minLength v n => v.compact ++ " is shorter than " ++ counted n "character"
  | maxLength v n => v.compact ++ " is longer than " ++ counted n "character"
  | minItems v n => v.compact ++ " has less than " ++ counted n "item"
  | maxItems v n => v.compact ++ " has more than " ++ counted n "item"
  | uniqueItems v => v.compact ++ " has non-unique elements"
  | required n => (Json.string n).compact ++ " is a required property"
  | unexpected ns =>
    "Additional properties are not allowed (" ++ ", ".intercalate (ns.map fun n => "'" ++ n ++ "'") ++
      (if ns.length = 1 then " was" else " were") ++ " unexpected)"
  | noneOf v k => v.compact ++ " is not valid under any of the schemas listed in the '" ++ k ++
      "' keyword"
  | manyOf v => v.compact ++
      " is valid under more than one of the schemas listed in the 'oneOf' keyword"
  | not v s => s.compact ++ " is not allowed for " ++ v.compact

end Violation

namespace Schema

/-- The violations of rules that look at no part of the value by a schema of its own. -/
def flatViolations (v : Json) : Rule → List Violation
  | .types ts => if ts.any v.hasType then [] else [.types v ts]
  | .enum os => if os.any v.equals then [] else [.enum v os]
  | .const e => if v.equals e then [] else [.const e]
  | .minimum n =>
    match v with
    | .number x => if x.lt n then [.minimum v n] else []
    | _ => []
  | .maximum n =>
    match v with
    | .number x => if n.lt x then [.maximum v n] else []
    | _ => []
  | .minLength n =>
    match v with
    | .string s => if s.length < n then [.minLength v n] else []
    | _ => []
  | .maxLength n =>
    match v with
    | .string s => if n < s.length then [.maxLength v n] else []
    | _ => []
  | .minItems n =>
    match v with
    | .array vs => if vs.length < n then [.minItems v n] else []
    | _ => []
  | .maxItems n =>
    match v with
    | .array vs => if n < vs.length then [.maxItems v n] else []
    | _ => []
  | .uniqueItems =>
    match v with
    | .array vs => if Json.allDistinct vs then [] else [.uniqueItems v]
    | _ => []
  | .required names =>
    match v with
    | .object ms => (names.filter fun n => !(ms.any (·.1 == n))).map .required
    | _ => []
  | .empty =>
    match v with
    | .object ((_, w) :: _) => [.refused w]
    | _ => []
  | _ => []

/-- The members of an object that a rule neither names nor allows. -/
def unnamed (named : List (String × Target)) (others : Others) (ms : List (String × Json)) :
    List String :=
  match others with
  | .refused => (ms.map (·.1)).filter fun k => (named.lookup k).isNone
  | _ => []

mutual

/-- The violations of a value within a schema that is part of `root`. -/
def violationsIn (root s : Schema) (v : Json) : List Violation :=
  match s with
  | .anything => []
  | .nothing => [.refused v]
  | .rules rs => ofRules root rs v
termination_by (sizeOf v, sizeOf s)

def ofRules (root : Schema) (rs : List Rule) (v : Json) : List Violation :=
  match rs with
  | [] => []
  | r :: rs => ofRule root r v ++ ofRules root rs v
termination_by (sizeOf v, sizeOf rs)

def ofRule (root : Schema) (r : Rule) (v : Json) : List Violation :=
  match r with
  | .items t =>
    match v with
    | .array vs => ofItems root t vs
    | _ => []
  | .members named others =>
    match v with
    | .object ms =>
      ofMembers root named others ms ++
        (match unnamed named others ms with
          | [] => []
          | ns => [.unexpected ns])
    | _ => []
  | .propertyNames s =>
    match v with
    | .object ms => ofNames root s ms
    | _ => []
  | .allOf ss => (ofEach root ss v).flatten
  | .anyOf ss => if (ofEach root ss v).any List.isEmpty then [] else [.noneOf v "anyOf"]
  | .oneOf ss =>
    match (ofEach root ss v).filter List.isEmpty with
    | [] => [.noneOf v "oneOf"]
    | [_] => []
    | _ => [.manyOf v]
  | .not source s => if (violationsIn root s v).isEmpty then [.not v source] else []
  | r => flatViolations v r
termination_by (sizeOf v, sizeOf r)

def ofEach (root : Schema) (ss : List Schema) (v : Json) : List (List Violation) :=
  match ss with
  | [] => []
  | s :: ss => violationsIn root s v :: ofEach root ss v
termination_by (sizeOf v, sizeOf ss)

def ofItems (root : Schema) (t : Target) (vs : List Json) : List Violation :=
  match vs with
  | [] => []
  | v :: vs =>
    (match t with
      | .whole => violationsIn root root v
      | .schema s => violationsIn root s v) ++ ofItems root t vs
termination_by (sizeOf vs, 0)

def ofMembers (root : Schema) (named : List (String × Target)) (others : Others)
    (ms : List (String × Json)) : List Violation :=
  match ms with
  | [] => []
  | (k, v) :: ms =>
    (match named.lookup k with
      | some .whole => violationsIn root root v
      | some (.schema s) => violationsIn root s v
      | none =>
        match others with
        | .checked .whole => violationsIn root root v
        | .checked (.schema s) => violationsIn root s v
        | _ => []) ++ ofMembers root named others ms
termination_by (sizeOf ms, 0)

def ofNames (root s : Schema) (ms : List (String × Json)) : List Violation :=
  match ms with
  | [] => []
  | (k, _) :: ms => violationsIn root s (.string k) ++ ofNames root s ms
termination_by (sizeOf ms, 0)

end

/-- All violations of a value. -/
def violations (s : Schema) (v : Json) : List Violation := violationsIn s s v

end Schema

end Scaffold
