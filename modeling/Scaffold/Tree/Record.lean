import Scaffold.Decode
import Scaffold.Json.Draft
import Scaffold.Text.Blank
import Scaffold.Tree.Node

/-!
# Trees in JSON documents

A `Record` is one object of a tree document as it is written: `tag`, `value`, `attributes` and
`children`. `Record.ofDraft` reads one from a text, where the first fault in the order of the text
decides; `Record.ofJson` reads one from a value. `Record.toNode` puts the value among the
attributes.
-/

namespace Scaffold

open Decode

inductive Record
  | mk (tag : String) (value : Option String) (attributes : Attributes) (children : List Record)
deriving Inhabited

namespace Record

def shape : String := "struct JsonNode"

def shapeOfFour : String := "struct JsonNode with 4 elements"

/-- The fields that have been read so far. -/
structure Parts where
  tag : Option String
  value : Option (Option String)
  attributes : Option Attributes
  children : Option (List Record)

def Parts.none : Parts := ⟨.none, .none, .none, .none⟩

/-- A record needs its tag; every other field may be left out. -/
def Parts.finish (p : Parts) : Except Fault Record :=
  match p.tag with
  | .none => .error (.missingField "tag")
  | some t => .ok (.mk t (p.value.getD .none) (p.attributes.getD .empty) (p.children.getD []))

def foundNumber : JsonNumber → Found
  | .int i => .int i
  | .real x => .real x

/-! ### From a value -/

def foundJson : Json → Found
  | .null => .null
  | .bool b => .bool b
  | .number n => foundNumber n
  | .string s => .string s
  | .array _ => .sequence
  | .object _ => .map

def stringOf : Json → Except Fault String
  | .string s => .ok s
  | v => .error (.invalidType (foundJson v) "a string")

def optionalOf : Json → Except Fault (Option String)
  | .null => .ok .none
  | v => (stringOf v).map some

def attributesOf : Json → Except Fault Attributes
  | .object ms => .ok (Attributes.ofList ms)
  | v => .error (.invalidType (foundJson v) "a map")

mutual

/-- The record that a value holds, either by field names or by position. -/
def ofJson : Json → Except Fault Record
  | .object ms => do (← ofMembers ms Parts.none).finish
  | .array items =>
    match items with
    | [] => .error (.invalidLength 0 shapeOfFour)
    | [t] => do
      .ok (.mk (← stringOf t) .none .empty [])
    | [t, v] => do
      .ok (.mk (← stringOf t) (← optionalOf v) .empty [])
    | [t, v, a] => do
      .ok (.mk (← stringOf t) (← optionalOf v) (← attributesOf a) [])
    | t :: v :: a :: .array cs :: rest => do
      let t ← stringOf t
      let v ← optionalOf v
      let a ← attributesOf a
      let cs ← ofItems cs
      if rest.isEmpty then .ok (.mk t v a cs)
      else .error (.invalidLength (rest.length + 4) "fewer elements in array")
    | t :: v :: a :: c :: _ => do
      let _ ← stringOf t
      let _ ← optionalOf v
      let _ ← attributesOf a
      .error (.invalidType (foundJson c) "a sequence")
  | v => .error (.invalidType (foundJson v) shape)

def ofMembers : List (String × Json) → Parts → Except Fault Parts
  | [], p => .ok p
  | (k, v) :: r, p =>
    if k = "tag" then do
      ofMembers r { p with tag := some (← stringOf v) }
    else if k = "value" then do
      ofMembers r { p with value := some (← optionalOf v) }
    else if k = "attributes" then do
      ofMembers r { p with attributes := some (← attributesOf v) }
    else if k = "children" then
      match v with
      | .array cs => do
        ofMembers r { p with children := some (← ofItems cs) }
      | v => .error (.invalidType (foundJson v) "a sequence")
    else ofMembers r p

def ofItems : List Json → Except Fault (List Record)
  | [] => .ok []
  | v :: r => do
    let n ← ofJson v
    let ns ← ofItems r
    .ok (n :: ns)

end

/-! ### From a text -/

/-- The fault of a draft that is not what was expected. -/
def unexpected (expected : String) : Draft → Fault
  | .null => .invalidType .null expected
  | .bool b => .invalidType (.bool b) expected
  | .number (some n) => .invalidType (foundNumber n) expected
  | .string (some s) => .invalidType (.string s) expected
  | .array _ _ => .invalidType .sequence expected
  | .object _ _ => .invalidType .map expected
  | _ => .form

def stringIn : Draft → Except Fault String
  | .string (some s) => .ok s
  | d => .error (unexpected "a string" d)

def optionalIn : Draft → Except Fault (Option String)
  | .null => .ok .none
  | d => (stringIn d).map some

/-- Entries up to the first fault of form. -/
def entriesIn (depth : Nat) : List (Option String × Draft) → Except Fault (List (String × Json))
  | [] => .ok []
  | (some k, d) :: r => do
    match Json.ofDraft? depth d with
    | some v => .ok ((k, v) :: (← entriesIn depth r))
    | .none => .error .form
  | (.none, _) :: _ => .error .form

def attributesIn (depth : Nat) : Draft → Except Fault Attributes
  | .object ms closed => do
    if depth ≤ 1 then .error .form
    else
      let es ← entriesIn (depth - 1) ms
      if closed then .ok (Attributes.ofList es) else .error .form
  | d => .error (unexpected "a map" d)

mutual

/-- The record that a draft holds, nested in at most `depth - 1` further levels. -/
def ofDraft (depth : Nat) : Draft → Except Fault Record
  | .object ms closed => do
    if depth ≤ 1 then .error .form
    else
      let p ← ofDraftMembers (depth - 1) ms Parts.none
      if closed then p.finish else .error .form
  | .array items closed => do
    if depth ≤ 1 then .error .form
    else ofPositions (depth - 1) closed items
  | d => .error (unexpected shape d)

def ofDraftMembers (depth : Nat) : List (Option String × Draft) → Parts → Except Fault Parts
  | [], p => .ok p
  | (.none, _) :: _, _ => .error .form
  | (some k, d) :: r, p =>
    if k = "tag" then do
      if p.tag.isSome then .error (.duplicateField k)
      else ofDraftMembers depth r { p with tag := some (← stringIn d) }
    else if k = "value" then do
      if p.value.isSome then .error (.duplicateField k)
      else ofDraftMembers depth r { p with value := some (← optionalIn d) }
    else if k = "attributes" then do
      if p.attributes.isSome then .error (.duplicateField k)
      else ofDraftMembers depth r { p with attributes := some (← attributesIn depth d) }
    else if k = "children" then do
      if p.children.isSome then .error (.duplicateField k)
      else ofDraftMembers depth r { p with children := some (← childrenIn depth d) }
    else if d.isWhole then ofDraftMembers depth r p
    else .error .form

def childrenIn (depth : Nat) : Draft → Except Fault (List Record)
  | .array items closed => do
    if depth ≤ 1 then .error .form
    else
      let ns ← ofDrafts (depth - 1) items
      if closed then .ok ns else .error .form
  | d => .error (unexpected "a sequence" d)

def ofDrafts (depth : Nat) : List Draft → Except Fault (List Record)
  | [] => .ok []
  | d :: r => do
    let n ← ofDraft depth d
    let ns ← ofDrafts depth r
    .ok (n :: ns)

/-- The fields by position; trailing ones may be left out, and nothing may follow the fourth. -/
def ofPositions (depth : Nat) (closed : Bool) : List Draft → Except Fault Record
  | [] => .error (if closed then .invalidLength 0 shapeOfFour else .form)
  | [t] => do
    let t ← stringIn t
    if closed then .ok (.mk t .none .empty []) else .error .form
  | [t, v] => do
    let t ← stringIn t
    let v ← optionalIn v
    if closed then .ok (.mk t v .empty []) else .error .form
  | [t, v, a] => do
    let t ← stringIn t
    let v ← optionalIn v
    let a ← attributesIn depth a
    if closed then .ok (.mk t v a []) else .error .form
  | t :: v :: a :: c :: rest => do
    let t ← stringIn t
    let v ← optionalIn v
    let a ← attributesIn depth a
    let c ← childrenIn depth c
    if closed && rest.isEmpty then .ok (.mk t v a c) else .error .form

end

/-- Reads a record from a whole text. -/
def read (text : String) : Except Fault Record := do
  let (d, whole) := Draft.ofChars text.toList
  let r ← ofDraft Draft.depthLimit d
  if whole then .ok r else .error .form

/-! ### To a node -/

mutual

/-- The node of a record: a value that is not blank becomes the first attribute. -/
def toNode : Record → Except TreeFault Node
  | mk tag value attributes children => do
    let own ← match value.bind Text.trimmed? with
      | some t =>
        if attributes.contains textName then .error (.valueTwice tag)
        else .ok ((Attributes.empty.insert textName (.string t)).insertAll attributes.entries)
      | .none => .ok attributes
    let ns ← toNodes children
    Node.make tag own ns

def toNodes : List Record → Except TreeFault (List Node)
  | [] => .ok []
  | r :: rs => do
    let n ← toNode r
    let ns ← toNodes rs
    .ok (n :: ns)

end

end Record

end Scaffold
