import Mathlib.Order.Lattice
import Scaffold.Tree.Node

/-!
# Trees in pre-order

The nodes of a tree in pre-order are the node itself and then those of its children one after the other
(`Node.preorder_eq`).
-/

namespace Scaffold.Node

/-- The nodes of a tree in pre-order. -/
def preorder (n : Node) : List Node := (n.rows 0).map Prod.snd

mutual

theorem map_snd_rows (d e : Nat) : ∀ n : Node, (n.rows d).map Prod.snd = (n.rows e).map Prod.snd
  | mk t a c ht hf => by
    rw [rows, rows, List.map_cons, List.map_cons, map_snd_rowsOfList (d + 1) 0,
      map_snd_rowsOfList (e + 1) 0]

theorem map_snd_rowsOfList (d e : Nat) : ∀ ns : List Node,
    (rowsOfList d ns).map Prod.snd = ns.flatMap fun n => (n.rows e).map Prod.snd
  | [] => rfl
  | n :: ns => by
    rw [rowsOfList, List.map_append, List.flatMap_cons, map_snd_rows d e n,
      map_snd_rowsOfList d e ns]

end

theorem preorder_eq (n : Node) : n.preorder = n :: n.children.flatMap preorder := by
  obtain ⟨t, a, c, ht, hf⟩ := n
  rw [preorder, rows, List.map_cons, map_snd_rowsOfList 1 0]
  rfl

theorem mem_preorder (n : Node) : n ∈ n.preorder := by
  rw [preorder_eq]
  exact List.mem_cons_self

theorem preorder_subset {n c : Node} (hc : c ∈ n.children) : c.preorder ⊆ n.preorder := by
  rw [n.preorder_eq]
  exact fun x hx => List.mem_cons_of_mem _ (List.mem_flatMap.2 ⟨c, hc, hx⟩)

theorem height_le_heightOfList {c : Node} : ∀ {ns : List Node}, c ∈ ns →
    c.height ≤ heightOfList ns
  | n :: ns, h => by
    rw [heightOfList]
    rcases List.mem_cons.1 h with rfl | h
    · exact le_max_left _ _
    · exact (height_le_heightOfList h).trans (le_max_right _ _)

theorem height_lt_of_mem_children {n c : Node} (hc : c ∈ n.children) : c.height < n.height := by
  obtain ⟨t, a, cs, ht, hf⟩ := n
  rw [height]
  exact Nat.lt_succ_of_le (height_le_heightOfList hc)

end Scaffold.Node
