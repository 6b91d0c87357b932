import Scaffold.Schema.Basic
import Scaffold.Tree.Node

/-!
# The schema of tree documents

A tree document is an object with a `tag`, and possibly a `value`, `attributes` and `children`,
which are tree documents again. No attribute has a name that belongs to the node itself.
-/

namespace Scaffold.Schema

/-- The names of attributes: any but the reserved ones. -/
def attributeName : Schema :=
  let options := Json.array (["tag", "children"].map Json.string)
  .rules [.not (.object [("enum", options)]) (.rules [.enum (["tag", "children"].map .string)])]

/-- The schema that the JSON form of a tree satisfies. -/
def tree : Schema :=
  .rules
    [.members
      [("attributes", .schema (.rules [.propertyNames attributeName, .types [.object]])),
        ("children", .schema (.rules [.items .whole, .types [.array]])),
        ("tag", .schema (.rules [.minLength 1, .types [.string]])),
        ("value", .schema (.rules [.types [.null, .string]]))]
      .refused,
      .required ["tag"],
      .types [.object]]

end Scaffold.Schema
