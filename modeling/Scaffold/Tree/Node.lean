import Scaffold.Json.Printer
import Scaffold.Tree.Attributes

/-!
# Document trees

A `Node` has a tag, attributes and children. Its type keeps what every tree satisfies: no tag is
empty, and no attribute has a name that belongs to the node itself. `Node.make` builds a node or
says which of the two rules is broken. `Node.document` is its JSON form.
-/

namespace Scaffold

/-- The names that belong to a node itself and are never attributes. -/
def reservedNames : List String := ["tag", "children"]

/-- The attribute that holds an element's text. -/
def textName : String := "value"

/-- A node of a document tree. -/
inductive Node
  | mk (tag : String) (attributes : Attributes) (children : List Node)
      (tag_ne : tag ≠ "") (free : ∀ k ∈ attributes.keys, k ∉ reservedNames)

/-- Why a tree cannot be built from a document. -/
inductive TreeFault
  | emptyTag
  | reservedName (key tag : String)
  | textAndValue (tag : String)
  | valueTwice (tag : String)
deriving DecidableEq, Inhabited

def TreeFault.message : TreeFault → String
  | .emptyTag => "node tag must not be empty"
  | .reservedName key tag => "attribute '" ++ key ++ "' on <" ++ tag ++ "> uses a reserved name"
  | .textAndValue tag => "<" ++ tag ++ "> has both text content and a 'value' attribute"
  | .valueTwice tag => "<" ++ tag ++ "> has both a value and a 'value' attribute"

namespace Node

/-- A node with these parts, unless its tag is empty or an attribute has a reserved name. -/
def make (tag : String) (attributes : Attributes) (children : List Node) :
    Except TreeFault Node :=
  if ht : tag = "" then .error .emptyTag
  else match h : attributes.keys.find? (reservedNames.contains ·) with
    | some key => .error (.reservedName key tag)
    | none => .ok (.mk tag attributes children ht (by
        intro k hk hr
        have := List.find?_eq_none.1 h k hk
        simp_all))

def leaf (tag : String) : Except TreeFault Node := make tag .empty []

def tag : Node → String
  | mk t _ _ _ _ => t

def attributes : Node → Attributes
  | mk _ a _ _ _ => a

def children : Node → List Node
  | mk _ _ c _ _ => c

def attribute? (n : Node) (key : String) : Option Json := n.attributes.get? key

/-- The text of the element, if it has any. -/
def text? (n : Node) : Option String := (n.attribute? textName).bind Json.string?

mutual

/-- Equality of trees: attributes in any order, children in order. -/
def same : Node → Node → Bool
  | mk t a c _ _, mk u b d _ _ => t == u && a.same b && sameList c d

def sameList : List Node → List Node → Bool
  | [], [] => true
  | n :: r, m :: s => same n m && sameList r s
  | _, _ => false

end

mutual

/-- The rows of the tree in pre-order, each with its depth. -/
def rows (depth : Nat) : Node → List (Nat × Node)
  | n@(mk _ _ c _ _) => (depth, n) :: rowsOfList (depth + 1) c

def rowsOfList (depth : Nat) : List Node → List (Nat × Node)
  | [] => []
  | n :: r => rows depth n ++ rowsOfList depth r

end

mutual

/-- Number of levels of the tree. -/
def height : Node → Nat
  | mk _ _ c _ _ => heightOfList c + 1

def heightOfList : List Node → Nat
  | [] => 0
  | n :: r => max (height n) (heightOfList r)

end

/-- Whether an attribute is written as the text of its element. -/
def isText (e : String × Json) : Bool := e.1 == textName && e.2.isString

/-- The members of a node's JSON form that come before its children. -/
def ownMembers (tag : String) (a : Attributes) : List (String × Json) :=
  let rest := a.entries.filter fun e => !isText e
  [("tag", .string tag)] ++
    (match a.entries.find? isText with
      | some (_, v) => [("value", v)]
      | none => []) ++
    (if rest.isEmpty then [] else [("attributes", .object rest)])

mutual

/-- The JSON form: `tag`, `value`, `attributes` and `children`, empty parts left out. -/
def document : Node → Json
  | mk t a c _ _ =>
    .object (ownMembers t a ++
      (if c.isEmpty then [] else [("children", .array (documents c))]))

def documents : List Node → List Json
  | [] => []
  | n :: r => document n :: documents r

end

/-- The JSON form with the members of every object in increasing order. -/
def toJson (n : Node) : Json := n.document.canonical

/-- The compact text of the JSON form. -/
def text (n : Node) : String := n.document.compact

end Node

end Scaffold
