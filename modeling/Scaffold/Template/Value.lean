import Scaffold.Template.Basic
import Scaffold.Tree.Node

/-!
# Values of templates

What the expressions of a template stand for. Namespaces, running loops and the names that macros
hold on to can change while others refer to them: such values are numbers of cells of a `Heap`.
Maps have their keys in increasing order.
-/

namespace Scaffold.Template

/-- The functions that every template may call. -/
inductive Builtin
  | range
  | dictionary
  | space
  | inspect
deriving DecidableEq, Inhabited

mutual

inductive Value
  | undefined (silent : Bool)
  | none
  | bool (b : Bool)
  | int (i : Int)
  | real (x : Number.Binary64)
  | text (s : String) (safe : Bool)
  | list (items : List Value)
  | stream (items : List Value)
  | map (members : List Member)
  | options (members : List Member)
  | group (key : Value) (items : List Value)
  | node (n : Node)
  | builtin (f : Builtin)
  | routine (home : String) (m : Macro) (closure : Nat) (takesCaller : Bool)
  | loop (cell : Nat)
  | space (cell : Nat)

/-- A key of a map and its value. -/
inductive Member
  | mk (key value : Value)

end

instance : Inhabited Value := ⟨.none⟩

/-- What kind of thing a value is. -/
inductive Kind
  | undefined
  | none
  | bool
  | number
  | string
  | sequence
  | map
  | iterator
  | plain
deriving DecidableEq, Inhabited

namespace Kind

def name : Kind → String
  | undefined => "undefined"
  | none => "none"
  | bool => "bool"
  | number => "number"
  | string => "string"
  | sequence => "sequence"
  | map => "map"
  | iterator => "iterator"
  | plain => "plain object"

/-- Values of different kinds are ordered by their kinds. -/
def rank : Kind → Nat
  | undefined => 0
  | none => 1
  | bool => 2
  | number => 3
  | string => 4
  | sequence => 5
  | map => 6
  | iterator => 7
  | plain => 8

end Kind

namespace Value

def ofText (s : String) : Value := .text s false

def kind : Value → Kind
  | undefined _ => .undefined
  | none => .none
  | bool _ => .bool
  | int _ => .number
  | real _ => .number
  | text .. => .string
  | list _ => .sequence
  | stream _ => .iterator
  | map _ => .map
  | options _ => .map
  | group .. => .sequence
  | node _ => .map
  | builtin _ => .plain
  | routine .. => .plain
  | loop _ => .plain
  | space _ => .map

def isUndefined : Value → Bool
  | undefined _ => true
  | _ => false

def isNone : Value → Bool
  | none => true
  | _ => false

def text? : Value → Option String
  | text s _ => some s
  | _ => Option.none

def isSafe : Value → Bool
  | text _ safe => safe
  | _ => false

/-- A list of a key and a value. -/
def pair (k v : Value) : Value := .list [k, v]

def ofLiteral : Literal → Value
  | .nothing => undefined true
  | .none => none
  | .bool b => bool b
  | .int i => int i
  | .real x => real x
  | .text s => ofText s

def ofNumber : JsonNumber → Value
  | .int i => int i
  | .real x => real x

mutual

/-- The value that a JSON value with sorted keys stands for. -/
def ofSorted : Json → Value
  | .null => none
  | .bool b => bool b
  | .number n => ofNumber n
  | .string s => ofText s
  | .array items => list (ofItems items)
  | .object ms => map (ofMembers ms)

def ofItems : List Json → List Value
  | [] => []
  | v :: r => ofSorted v :: ofItems r

def ofMembers : List (String × Json) → List Member
  | [] => []
  | (k, v) :: r => .mk (ofText k) (ofSorted v) :: ofMembers r

end

def ofJson (v : Json) : Value := ofSorted v.canonical

end Value

/-- A loop that is running. -/
structure Running where
  /-- How many items came before the present one. -/
  index : Nat
  count : Nat
  depth : Nat
  previous : Option Value
  following : Option Value
  /-- The arguments of the last call that asked for changes. -/
  changed : Option (List Value)
deriving Inhabited

/-- A thing that changes while others refer to it. -/
inductive Cell
  | fields (entries : List (String × Value))
  | running (r : Running)
deriving Inhabited

/-- The things that change, by number. -/
structure Heap where
  cells : Array Cell
deriving Inhabited

namespace Heap

def empty : Heap := ⟨#[]⟩

/-- Adds a cell and gives its number. -/
def new (h : Heap) (c : Cell) : Nat × Heap := (h.cells.size, ⟨h.cells.push c⟩)

/-- The fields of a namespace or of a closure. -/
def fields (h : Heap) (n : Nat) : List (String × Value) :=
  match h.cells[n]? with
  | some (.fields es) => es
  | _ => []

def running (h : Heap) (n : Nat) : Running :=
  match h.cells[n]? with
  | some (.running r) => r
  | _ => default

def set (h : Heap) (n : Nat) (c : Cell) : Heap := ⟨h.cells.setIfInBounds n c⟩

end Heap

end Scaffold.Template
