import Scaffold.Markup.Event

/-!
# Trees of XML documents

`build` runs over the events of a document with the open elements on a stack. The text before the
first child of an element, character data included, becomes its attribute `value`; text behind a
child is passed over. `Document.read` is the whole way from text to tree.
-/

namespace Scaffold.Markup

/-- How the text of an element becomes its attribute. -/
inductive TextMode
  /-- Trimmed, and left out if nothing is left. -/
  | normalized
  /-- As it is written, and left out if it is empty, or blank before a child. -/
  | raw
deriving DecidableEq, Inhabited

/-- An element whose end has not come yet. -/
structure OpenElement where
  tag : String
  attributes : List (String × String)
  text : String
  children : List Node

namespace OpenElement

def start (tag : String) (attributes : List (String × String)) : OpenElement :=
  ⟨tag, attributes, "", []⟩

/-- The text that the element is given, if any. -/
def text? (e : OpenElement) : TextMode → Option String
  | .normalized => Text.trimmed? e.text
  | .raw =>
    if !e.children.isEmpty && Text.isBlankText e.text then none
    else if e.text = "" then none
    else some e.text

/-- The node of an element that has come to its end. -/
def close (e : OpenElement) (mode : TextMode) : Except TreeFault Node := do
  let own := e.attributes.map fun (k, v) => (k, Json.string v)
  match e.text? mode with
  | some t =>
    if own.any (·.1 == textName) then .error (.textAndValue e.tag)
    else Node.make e.tag ((Attributes.empty.insert textName (.string t)).insertAll own) e.children
  | none => Node.make e.tag (Attributes.ofList own) e.children

end OpenElement

/-- The open elements, the innermost first, and the root once it is complete. -/
structure Progress where
  stack : List OpenElement
  root : Option Node

def Progress.start : Progress := ⟨[], none⟩

/-- Gives a complete node to its parent, or makes it the root. -/
def Progress.attach (p : Progress) (n : Node) : Except Fault Progress :=
  match p.stack with
  | e :: es => .ok { p with stack := { e with children := e.children ++ [n] } :: es }
  | [] =>
    match p.root with
    | some _ => .error (.secondRoot n.tag)
    | none => .ok { p with root := some n }

/-- Adds text to the innermost element, as long as that has no child. -/
def Progress.addText (p : Progress) (s : String) : Except Fault Progress :=
  match p.stack with
  | e :: es =>
    if e.children.isEmpty then .ok { p with stack := { e with text := e.text ++ s } :: es }
    else .ok p
  | [] => if Text.isBlankText s then .ok p else .error .textOutside

def Progress.step (mode : TextMode) (p : Progress) : Event → Except Fault Progress
  | .start tag attributes => .ok { p with stack := .start tag attributes :: p.stack }
  | .empty tag attributes => do
    let n ← ((OpenElement.start tag attributes).close mode).mapError .tree
    p.attach n
  | .finish =>
    match p.stack with
    | [] => .error .unexpectedEnd
    | e :: es => do
      let n ← (e.close mode).mapError .tree
      { p with stack := es }.attach n
  | .text s => p.addText s
  | .cdata s => p.addText s
  | .other => .ok p

/-- The tree of a complete document. -/
def Progress.finish (p : Progress) : Except Fault Node :=
  match p.stack with
  | e :: _ => .error (.neverClosed e.tag)
  | [] =>
    match p.root with
    | some n => .ok n
    | none => .error .noRoot

def run (mode : TextMode) : Progress → List Event → Except Fault Progress
  | p, [] => .ok p
  | p, e :: es => do run mode (← p.step mode e) es

/-- The tree of a sequence of events. -/
def build (mode : TextMode) (es : List Event) : Except Fault Node := do
  (← run mode .start es).finish

/-- Reads the tree of an XML text. Of two faults the one that comes first decides. -/
def read (mode : TextMode) (text : String) : Except Fault Node := do
  let (es, fault) := events text.toList
  let p ← run mode .start es
  match fault with
  | some f => .error f
  | none => p.finish

end Scaffold.Markup
