import Scaffold.Proofs.Entries
import Scaffold.Rendering

/-!
# What a template sees of a node

The attributes of a node and its children are names in the template
(`Node.attribute?_context`, `Node.attribute?_context_children`), whatever the order of the attributes
(`Node.context_congr`).
-/

namespace Scaffold

open Template

namespace Template.Member

theorem named?_map (name : String) (es : List (String × Value)) :
    named? name (es.map fun e => mk (.ofText e.1) e.2) = es.lookup name := by
  induction es with
  | nil => rfl
  | cons e es ih =>
    rw [named?] at ih ⊢
    have hkey : ((mk (.ofText e.1) e.2).key.text? == some name) = (name == e.1) := by
      simp [key, Value.ofText, Value.text?, Bool.beq_comm]
    rw [List.map_cons, List.find?_cons, hkey, List.lookup_cons]
    cases name == e.1 with
    | true => rfl
    | false => exact ih

theorem named?_ofEntries (name : String) (es : List (String × Value)) :
    named? name (ofEntries es) = es.reverse.lookup name := by
  rw [ofEntries, named?_map, Entries.lookup_foldl_put]
  exact Option.or_none

/-- Only what is found under the names matters. -/
theorem ofEntries_congr {es fs : List (String × Value)}
    (h : ∀ k, es.reverse.lookup k = fs.reverse.lookup k) : ofEntries es = ofEntries fs := by
  refine congrArg (List.map _) (Entries.eq_of_lookup (Entries.increasing_foldl_put es _ .nil)
    (Entries.increasing_foldl_put fs _ .nil) fun k => ?_)
  rw [Entries.lookup_foldl_put, Entries.lookup_foldl_put, h]

end Template.Member

namespace Node

/-- The names that are put into the context of a node. -/
def names (n : Node) : List (String × Value) :=
  n.attributes.entries.map (fun (k, v) => (k, Value.ofJson v)) ++
    [("children", .list (n.children.map .node))]

theorem lookup_names (n : Node) (name : String) : n.names.reverse.lookup name =
    if name = "children" then some (.list (n.children.map .node))
    else (n.attribute? name).map .ofJson := by
  rw [names, List.reverse_append, ← List.map_reverse, List.reverse_singleton,
    List.singleton_append, List.lookup_cons]
  by_cases hname : name = "children"
  · rw [if_pos hname, hname]
    rfl
  · have hne : (name == "children") = false := by simpa using hname
    rw [if_neg hname, hne, attribute?, Attributes.get?, ← Entries.lookup_reverse n.attributes.distinct]
    induction n.attributes.entries.reverse with
    | nil => rfl
    | cons e es ih =>
      rw [List.map_cons, List.lookup_cons, List.lookup_cons]
      cases name == e.1 with
      | true => rfl
      | false => exact ih

theorem attribute?_context_children (n : Node) (h : Heap) :
    n.context.attribute? h "children" = some (.list (n.children.map .node)) :=
  (Member.named?_ofEntries _ _).trans ((n.lookup_names _).trans (if_pos rfl))

/-- The attributes are names in the template. -/
theorem attribute?_context (n : Node) (h : Heap) {name : String} (hname : name ≠ "children") :
    n.context.attribute? h name = (n.attribute? name).map .ofJson :=
  (Member.named?_ofEntries _ _).trans ((n.lookup_names _).trans (if_neg hname))

/-- **The names that a template sees** do not tell the order of the attributes. -/
theorem context_congr {m n : Node} (hc : m.children = n.children)
    (h : ∀ k, m.attribute? k = n.attribute? k) : m.context = n.context := by
  refine congrArg Value.map (Member.ofEntries_congr fun k => ?_)
  exact (m.lookup_names k).trans (by rw [hc, h, ← lookup_names]; rfl)

/-- A text under a name is that text in the template. -/
theorem attribute?_context_text (n : Node) (h : Heap)
    (hv : ∀ v, n.attribute? textName = some v → ∃ x, v = .string x) :
    n.context.attribute? h textName = n.text?.map .ofText := by
  rw [n.attribute?_context h (by decide), text?]
  cases hn : n.attribute? textName with
  | none => rfl
  | some v =>
    obtain ⟨x, rfl⟩ := hv v hn
    rfl

end Node

end Scaffold
