import Scaffold.Template.Render

/-!
# Rendering nodes

A node is rendered in a mode through the template for its tag, which sees the attributes of the node
and its children. Children can be rendered from there, in any mode, and so on down the tree. All of
this is an inquiry, which a repository answers.
-/

namespace Scaffold

open Template (Value Member renderTemplate)

variable {linked : Bool}

/-- Renders the template for a tag and a mode with the names of a value. -/
def renderNamed (child : Node → String → Inquiry (Except Failure String)) (tag mode : String)
    (context : Value) : Inquiry (Except Failure String) := do
  let name := templateName tag mode
  match ← Inquiry.templateOf name with
  | .ok t =>
    Inquiry.noting ("Rendering template " ++ name)
    let r ← renderTemplate child t context
    pure (r.mapError (.render name))
  | .error f =>
    if f.kind = .templateNotFound then pure (.error (.templateNotFound name))
    else pure (.error (.render name f))

namespace Node

/-- What the template for a node sees. -/
def context (n : Node) : Value :=
  .map (Member.ofEntries
    (n.attributes.entries.map (fun (k, v) => (k, Value.ofJson v)) ++
      [("children", .list (n.children.map .node))]))

/-- What it takes to render a node in a mode. There has to be a template for its tag in this mode. -/
def rendering (n : Node) (mode : String) : Inquiry (Except Failure String) := do
  match ← Inquiry.modesOf n.tag with
  | .error f => pure (.error f)
  | .ok available =>
    if available.contains mode then
      Inquiry.noting ("Rendering <" ++ n.tag ++ "> as '" ++ mode ++ "'")
      renderNamed
        (fun c mode => if c.height < n.height then rendering c mode else pure (.error (.parse "")))
        n.tag mode n.context
    else pure (.error (.invalidMode n.tag mode available))
termination_by n.height

/-- Renders a node in a mode. -/
def render (r : Repository) (n : Node) (mode : String) : WorkOn linked String := do
  Work.ofExcept (← (n.rendering mode).conduct r)

end Node

/-- Renders the template for a tag and a mode with the names of a JSON value. -/
def Repository.render (r : Repository) (tag mode : String) (context : Json) :
    WorkOn linked String := do
  Work.ofExcept (← (renderNamed Node.rendering tag mode (Value.ofJson context)).conduct r)

end Scaffold
