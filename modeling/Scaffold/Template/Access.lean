import Scaffold.Template.Order

/-!
# Parts of values

Looking up attributes and items, and going through what a value consists of. Maps are built with
their keys in increasing order, and a repeated key keeps its last value.
-/

namespace Scaffold.Template

namespace Member

def key : Member → Value
  | mk k _ => k

def value : Member → Value
  | mk _ v => v

/-- Puts a value under a key in its place. -/
def put (h : Heap) (k v : Value) : List Member → List Member
  | [] => [mk k v]
  | mk l w :: r =>
    match (k.datum h).order (l.datum h) with
    | .eq => mk l v :: r
    | .lt => mk k v :: mk l w :: r
    | .gt => mk l w :: put h k v r

def putAll (h : Heap) (ms : List (Value × Value)) : List Member :=
  ms.foldl (fun acc (k, v) => put h k v acc) []

/-- The members with texts for keys, which are put in order. -/
def ofEntries (es : List (String × Value)) : List Member :=
  (es.foldl (fun acc (k, v) => Entries.put k v acc) []).map fun e => mk (.ofText e.1) e.2

/-- The value under a name. -/
def named? (name : String) (ms : List Member) : Option Value :=
  (ms.find? fun m => m.key.text? == some name).map value

/-- The value under a key. -/
def under? (h : Heap) (k : Value) (ms : List Member) : Option Value :=
  (ms.find? fun m => (k.datum h).order (m.key.datum h) == .eq).map value

end Member

/-- The names of a running loop's attributes. -/
def Running.attribute? (r : Running) : String → Option Value
  | "index0" => some (.int r.index)
  | "index" => some (.int (r.index + 1))
  | "length" => some (.int r.count)
  | "revindex" => some (.int (r.count - r.index : Nat))
  | "revindex0" => some (.int (r.count - r.index - 1 : Nat))
  | "first" => some (.bool (r.index == 0))
  | "last" => some (.bool (r.count == 0 || r.index + 1 == r.count))
  | "depth" => some (.int (r.depth + 1))
  | "depth0" => some (.int r.depth)
  | "previtem" => some (r.previous.getD (.undefined false))
  | "nextitem" => some (r.following.getD (.undefined false))
  | _ => none

namespace Value

/-- The attribute of a node's handle: its tag, its children, or an attribute of the node. -/
def nodeAttribute? (n : Node) (name : String) : Option Value :=
  if name = "tag" then some (.ofText n.tag)
  else if name = "children" then some (.list (n.children.map .node))
  else (n.attribute? name).map .ofJson

/-- The keys of a node's handle in order. -/
def nodeKeys (n : Node) : List String := "tag" :: "children" :: n.attributes.keys

def attribute? (h : Heap) (name : String) : Value → Option Value
  | map ms => Member.named? name ms
  | options ms => Member.named? name ms
  | node n => nodeAttribute? n name
  | group k items =>
    if name = "grouper" then some k else if name = "list" then some (.list items) else Option.none
  | routine _ m _ takesCaller =>
    if name = "name" then some (.ofText m.name)
    else if name = "arguments" then some (.list (m.parameters.map .ofText))
    else if name = "caller" then some (.bool takesCaller)
    else Option.none
  | loop n => (h.running n).attribute? name
  | space n => (h.fields n).lookup name
  | _ => Option.none

/-- The integer that a value is, if it is one within 64 bits. -/
def index? : Value → Option Int
  | bool b => some (if b then 1 else 0)
  | int i => if -(Number.pow2 63) ≤ i ∧ i < Number.pow2 63 then some i else Option.none
  | real x =>
    if x.isFinite && x.isIntegral && x.truncate.natAbs < Number.pow2 63 then some x.truncate
    else Option.none
  | _ => Option.none

/-- The place in a list of this length; negative numbers count from the end. -/
def place? (length : Nat) (key : Value) : Option Nat :=
  match key.index? with
  | some i =>
    if 0 ≤ i then some i.toNat
    else if i.natAbs ≤ length then some (length - i.natAbs) else Option.none
  | Option.none => Option.none

def item? (h : Heap) (v key : Value) : Option Value :=
  match v with
  | text s _ =>
    let cs := s.toList
    ((place? cs.length key).bind (cs[·]?)).map fun c => .ofText (String.singleton c)
  | list items => (place? items.length key).bind (items[·]?)
  | stream items => (place? items.length key).bind (items[·]?)
  | map ms => Member.under? h key ms
  | options ms => Member.under? h key ms
  | group k items =>
    match place? 2 key with
    | some i => [k, .list items][i]?
    | Option.none => key.text?.bind fun name => v.attribute? h name
  | v => key.text?.bind fun name => v.attribute? h name

/-- What a value consists of when it is gone through. -/
def items? (h : Heap) : Value → Option (List Value)
  | undefined _ => some []
  | none => some []
  | text s _ => some (s.toList.map fun c => .ofText (String.singleton c))
  | list items => some items
  | stream items => some items
  | map ms => some (ms.map Member.key)
  | options ms => some (ms.map Member.key)
  | group k items => some [k, .list items]
  | node n => some ((nodeKeys n).map .ofText)
  | space n => some ((h.fields n).map fun e => .ofText e.1)
  | _ => Option.none

/-- The parts of a value that is no text. -/
def parts? (h : Heap) : Value → Option (List Value)
  | undefined _ => Option.none
  | none => Option.none
  | text .. => Option.none
  | v => v.items? h

/-- The members of a value that is a map. -/
def pairs? (h : Heap) : Value → Option (List (Value × Value))
  | map ms => some (ms.map fun m => (m.key, m.value))
  | options ms => some (ms.map fun m => (m.key, m.value))
  | node n => some ((nodeKeys n).map fun k => (.ofText k, (nodeAttribute? n k).getD .none))
  | space n => some ((h.fields n).map fun e => (.ofText e.1, e.2))
  | _ => Option.none

def length? (h : Heap) : Value → Option Nat
  | undefined _ => Option.none
  | none => Option.none
  | v => (v.items? h).map List.length

/-- Whether a value counts as true. -/
def isTrue (h : Heap) : Value → Bool
  | undefined _ => false
  | none => false
  | bool b => b
  | int i => i != 0
  | real x => !x.isZero
  | text s _ => s != ""
  | v => v.length? h != some 0

/-- The integer that a value is. -/
def integer? : Value → Option Int
  | bool b => some (if b then 1 else 0)
  | int i => some i
  | real x => if x.isFinite && x.isIntegral then some x.truncate else Option.none
  | _ => Option.none

end Value

end Scaffold.Template
