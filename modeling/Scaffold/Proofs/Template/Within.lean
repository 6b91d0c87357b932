import Mathlib.Data.List.Basic
import Mathlib.Tactic.SplitIfs
import Scaffold.Proofs.Entries
import Scaffold.Proofs.Results
import Scaffold.Proofs.Tree.Preorder
import Scaffold.Template.Machine

/-!
# The nodes of values

`Value.nodes` are the nodes that a value holds, those in lists, maps and groups included. A value is
within a height if all of these are lower (`Value.Within`), and so are heaps, frames and machines.
As the children of a node are lower than the node, whatever is looked up in such a value, or computed
from such values, is within the same height.
-/

namespace Scaffold.Template

mutual

/-- The nodes that a value holds. What stands in a cell is no part of it. -/
def Value.nodes : Value → List Node
  | .list items => nodesOfItems items
  | .stream items => nodesOfItems items
  | .map ms => nodesOfMembers ms
  | .options ms => nodesOfMembers ms
  | .group k items => k.nodes ++ nodesOfItems items
  | .node n => [n]
  | _ => []

def nodesOfItems : List Value → List Node
  | [] => []
  | v :: r => v.nodes ++ nodesOfItems r

def nodesOfMembers : List Member → List Node
  | [] => []
  | .mk k v :: r => k.nodes ++ v.nodes ++ nodesOfMembers r

end

theorem nodesOfItems_eq (vs : List Value) : nodesOfItems vs = vs.flatMap Value.nodes := by
  induction vs with
  | nil => rfl
  | cons v vs ih => rw [nodesOfItems, ih, List.flatMap_cons]

theorem nodesOfMembers_eq (ms : List Member) :
    nodesOfMembers ms = ms.flatMap fun m => m.key.nodes ++ m.value.nodes := by
  induction ms with
  | nil => rfl
  | cons m ms ih =>
    cases m
    rw [nodesOfMembers, ih, List.flatMap_cons, Member.key, Member.value]

/-! ### Values within a height -/

/-- **All nodes of a value are lower** than this. -/
def Value.Within (k : Nat) (v : Value) : Prop := ∀ n ∈ v.nodes, n.height < k

/-- The key and the value of a member are. -/
def Member.Within (k : Nat) (m : Member) : Prop := m.key.Within k ∧ m.value.Within k

variable {k : Nat} {h : Heap} {v w : Value} {vs : List Value} {ms : List Member} {name : String}

namespace Value

/-- A value without nodes is within every height. -/
theorem within_of_nodes (hv : v.nodes = []) : v.Within k := by
  intro n hn
  rw [hv] at hn
  cases hn

@[simp] theorem within_undefined (silent : Bool) : (undefined silent).Within k :=
  within_of_nodes rfl

@[simp] theorem within_none : none.Within k := within_of_nodes rfl

@[simp] theorem within_bool (b : Bool) : (bool b).Within k := within_of_nodes rfl

@[simp] theorem within_int (i : Int) : (int i).Within k := within_of_nodes rfl

@[simp] theorem within_real (x : Number.Binary64) : (real x).Within k := within_of_nodes rfl

@[simp] theorem within_text (s : String) (safe : Bool) : (text s safe).Within k :=
  within_of_nodes rfl

@[simp] theorem within_ofText (s : String) : (ofText s).Within k := within_text s false

@[simp] theorem within_builtin (f : Builtin) : (builtin f).Within k := within_of_nodes rfl

@[simp] theorem within_routine (home : String) (m : Macro) (cell : Nat) (takesCaller : Bool) :
    (routine home m cell takesCaller).Within k := within_of_nodes rfl

@[simp] theorem within_loop (cell : Nat) : (loop cell).Within k := within_of_nodes rfl

@[simp] theorem within_space (cell : Nat) : (space cell).Within k := within_of_nodes rfl

@[simp] theorem within_node {n : Node} : (node n).Within k ↔ n.height < k :=
  List.forall_mem_singleton

@[simp] theorem within_list : (list vs).Within k ↔ ∀ v ∈ vs, v.Within k := by
  simp only [Within, nodes, nodesOfItems_eq, List.mem_flatMap]
  exact ⟨fun h v hv n hn => h n ⟨v, hv, hn⟩, fun h n ⟨v, hv, hn⟩ => h v hv n hn⟩

@[simp] theorem within_stream : (stream vs).Within k ↔ ∀ v ∈ vs, v.Within k := by
  rw [← within_list, Within, Within, nodes, nodes]

@[simp] theorem within_map : (map ms).Within k ↔ ∀ m ∈ ms, m.Within k := by
  simp only [Within, Member.Within, nodes, nodesOfMembers_eq, List.mem_flatMap, List.mem_append]
  constructor
  · intro h m hm
    exact ⟨fun n hn => h n ⟨m, hm, .inl hn⟩, fun n hn => h n ⟨m, hm, .inr hn⟩⟩
  · rintro h n ⟨m, hm, hn | hn⟩
    · exact (h m hm).1 n hn
    · exact (h m hm).2 n hn

@[simp] theorem within_options : (options ms).Within k ↔ ∀ m ∈ ms, m.Within k := by
  rw [← within_map, Within, Within, nodes, nodes]

@[simp] theorem within_group :
    (group v vs).Within k ↔ v.Within k ∧ ∀ w ∈ vs, w.Within k := by
  rw [← within_list]
  simp only [Within, nodes, List.mem_append]
  exact ⟨fun h => ⟨fun n hn => h n (.inl hn), fun n hn => h n (.inr hn)⟩,
    fun h n hn => hn.elim (h.1 n) (h.2 n)⟩

/-- A value that may be missing, with another one in its place. -/
theorem within_getD {v? : Option Value} (hv : ∀ v, v? = some v → v.Within k) (hw : w.Within k) :
    (v?.getD w).Within k := by
  cases v? with
  | none => exact hw
  | some v => exact hv v rfl

theorem within_pair (hv : v.Within k) (hw : w.Within k) : (pair v w).Within k := by
  simp [pair, hv, hw]

theorem within_ofLiteral (c : Literal) : (ofLiteral c).Within k := by
  cases c <;> simp [ofLiteral]

mutual

theorem within_ofSorted : ∀ j : Json, (ofSorted j).Within k
  | .null => by simp [ofSorted]
  | .bool b => by simp [ofSorted]
  | .number n => by cases n <;> simp [ofSorted, ofNumber]
  | .string s => by simp [ofSorted]
  | .array items => by
    rw [ofSorted, within_list]
    exact within_ofItems items
  | .object ms => by
    rw [ofSorted, within_map]
    exact within_ofMembers ms

theorem within_ofItems : ∀ items : List Json, ∀ v ∈ ofItems items, v.Within k
  | [] => by simp [ofItems]
  | j :: r => by
    rw [ofItems, List.forall_mem_cons]
    exact ⟨within_ofSorted j, within_ofItems r⟩

theorem within_ofMembers : ∀ ms : List (String × Json), ∀ m ∈ ofMembers ms, m.Within k
  | [] => by simp [ofMembers]
  | (key, j) :: r => by
    rw [ofMembers, List.forall_mem_cons]
    exact ⟨⟨within_ofText key, within_ofSorted j⟩, within_ofMembers r⟩

end

theorem within_ofJson (j : Json) : (ofJson j).Within k := within_ofSorted j.canonical

/-- The children of a node are lower than the node. -/
theorem within_children {n : Node} (hn : n.height ≤ k) :
    ∀ v ∈ n.children.map node, v.Within k := by
  intro v hv
  obtain ⟨c, hc, rfl⟩ := List.mem_map.1 hv
  exact within_node.2 ((Node.height_lt_of_mem_children hc).trans_le hn)

end Value

/-- Both parts of each pair are. -/
def PairsWithin (k : Nat) (ps : List (Value × Value)) : Prop :=
  ∀ p ∈ ps, p.1.Within k ∧ p.2.Within k

/-- The value under each name is. -/
def EntriesWithin (k : Nat) (es : List (String × Value)) : Prop := ∀ e ∈ es, e.2.Within k

variable {es : List (String × Value)}

theorem EntriesWithin.lookup (hes : EntriesWithin k es) (hv : es.lookup name = some v) :
    v.Within k := by
  obtain ⟨before, after, rfl, -⟩ := List.lookup_eq_some_iff.1 hv
  exact hes (name, v) (by simp)

/-- The value of a name that may be missing. -/
theorem EntriesWithin.getD_lookup (hes : EntriesWithin k es) (name : String) :
    ((es.lookup name).getD (.undefined false)).Within k :=
  Value.within_getD (fun _ hv => hes.lookup hv) (Value.within_undefined false)

theorem EntriesWithin.put (hes : EntriesWithin k es) (hv : v.Within k) :
    EntriesWithin k (Entries.put name v es) := by
  intro e he
  rcases Entries.eq_or_mem_of_mem_put he with rfl | he
  · exact hv
  · exact hes e he

theorem EntriesWithin.foldl_put {acc : List (String × Value)} (hacc : EntriesWithin k acc)
    (hes : EntriesWithin k es) :
    EntriesWithin k (es.foldl (fun acc e => Entries.put e.1 e.2 acc) acc) := by
  induction es generalizing acc with
  | nil => exact hacc
  | cons e es ih =>
    obtain ⟨he, hes⟩ := List.forall_mem_cons.1 hes
    exact ih (hacc.put he) hes

/-! ### Maps -/

namespace Member

theorem within_put (hv : v.Within k) (hw : w.Within k) (hms : ∀ m ∈ ms, m.Within k) :
    ∀ m ∈ put h v w ms, m.Within k := by
  induction ms with
  | nil =>
    intro m hm
    rw [put, List.mem_singleton] at hm
    exact hm ▸ ⟨hv, hw⟩
  | cons m ms ih =>
    obtain ⟨l, u⟩ := m
    obtain ⟨hm, hms⟩ := List.forall_mem_cons.1 hms
    rw [put]
    cases (v.datum h).order (l.datum h) with
    | eq => exact List.forall_mem_cons.2 ⟨⟨hm.1, hw⟩, hms⟩
    | lt => exact List.forall_mem_cons.2 ⟨⟨hv, hw⟩, List.forall_mem_cons.2 ⟨hm, hms⟩⟩
    | gt => exact List.forall_mem_cons.2 ⟨hm, ih hms⟩

theorem within_putAll {ps : List (Value × Value)} (hps : PairsWithin k ps) :
    ∀ m ∈ putAll h ps, m.Within k := by
  suffices ∀ acc : List Member, (∀ m ∈ acc, m.Within k) →
      ∀ m ∈ ps.foldl (fun acc p => put h p.1 p.2 acc) acc, m.Within k from
    this [] (by simp)
  induction ps with
  | nil => exact fun acc hacc => hacc
  | cons p ps ih =>
    obtain ⟨hp, hps⟩ := List.forall_mem_cons.1 hps
    exact fun acc hacc => ih hps _ (within_put hp.1 hp.2 hacc)

theorem within_ofEntries (hes : EntriesWithin k es) : ∀ m ∈ ofEntries es, m.Within k := by
  have hnone : EntriesWithin k [] := by simp [EntriesWithin]
  intro m hm
  obtain ⟨e, he, rfl⟩ := List.mem_map.1 hm
  exact ⟨Value.within_ofText e.1, hnone.foldl_put hes e he⟩

theorem within_named? (hms : ∀ m ∈ ms, m.Within k) (hv : named? name ms = some v) :
    v.Within k := by
  obtain ⟨m, hm, rfl⟩ := Option.map_eq_some_iff.1 hv
  exact (hms m (List.mem_of_find?_eq_some hm)).2

theorem within_under? (hms : ∀ m ∈ ms, m.Within k) (hv : under? h w ms = some v) :
    v.Within k := by
  obtain ⟨m, hm, rfl⟩ := Option.map_eq_some_iff.1 hv
  exact (hms m (List.mem_of_find?_eq_some hm)).2

end Member

/-! ### Cells -/

/-- The items around the present one of a loop, and the arguments that it remembers. -/
structure Running.Within (k : Nat) (r : Running) : Prop where
  previous : ∀ v, r.previous = some v → v.Within k
  following : ∀ v, r.following = some v → v.Within k
  changed : ∀ vs, r.changed = some vs → ∀ v ∈ vs, v.Within k

def Cell.Within (k : Nat) : Cell → Prop
  | .fields es => EntriesWithin k es
  | .running r => r.Within k

def Heap.Within (k : Nat) (h : Heap) : Prop := ∀ c ∈ h.cells, c.Within k

namespace Heap

theorem within_empty : empty.Within k := by simp [Within, empty]

theorem Within.fields (hh : h.Within k) (n : Nat) : EntriesWithin k (h.fields n) := by
  rw [Heap.fields]
  split
  next es hc => exact hh _ (Array.mem_of_getElem? hc)
  · simp [EntriesWithin]

theorem Within.running (hh : h.Within k) (n : Nat) : (h.running n).Within k := by
  rw [Heap.running]
  split
  next r hc => exact hh _ (Array.mem_of_getElem? hc)
  · constructor <;> intro v hv <;> cases hv

theorem Within.new {c : Cell} (hh : h.Within k) (hc : c.Within k) : (h.new c).2.Within k := by
  intro c' hc'
  rcases Array.mem_push.1 hc' with hc' | rfl
  · exact hh c' hc'
  · exact hc

theorem Within.set {c : Cell} (hh : h.Within k) (hc : c.Within k) (n : Nat) :
    (h.set n c).Within k := by
  intro c' hc'
  rcases Array.mem_or_eq_of_mem_setIfInBounds hc' with hc' | rfl
  · exact hh c' hc'
  · exact hc

end Heap

theorem Running.Within.attribute? {r : Running} (hr : r.Within k)
    (hv : r.attribute? name = some v) : v.Within k := by
  unfold Running.attribute? at hv
  split at hv <;> cases hv
  case h_10 => exact Value.within_getD hr.previous (Value.within_undefined false)
  case h_11 => exact Value.within_getD hr.following (Value.within_undefined false)
  all_goals simp

/-! ### Parts of values -/

namespace Value

theorem within_nodeAttribute? {n : Node} (hn : n.height ≤ k)
    (hv : nodeAttribute? n name = some v) : v.Within k := by
  rw [nodeAttribute?] at hv
  split_ifs at hv
  · cases hv
    exact within_ofText n.tag
  · cases hv
    exact within_list.2 (within_children hn)
  · obtain ⟨j, -, rfl⟩ := Option.map_eq_some_iff.1 hv
    exact within_ofJson j

theorem Within.attribute? (hv : v.Within k) (hh : h.Within k)
    (hw : v.attribute? h name = some w) : w.Within k := by
  cases v with
  | map ms => exact Member.within_named? (within_map.1 hv) hw
  | options ms => exact Member.within_named? (within_options.1 hv) hw
  | node n => exact within_nodeAttribute? (within_node.1 hv).le hw
  | group key items =>
    obtain ⟨hkey, hitems⟩ := within_group.1 hv
    rw [Value.attribute?] at hw
    split_ifs at hw <;> cases hw
    · exact hkey
    · exact within_list.2 hitems
  | routine home m cell takesCaller =>
    rw [Value.attribute?] at hw
    split_ifs at hw <;> cases hw <;> simp
  | loop n => exact (hh.running n).attribute? hw
  | space n => exact (hh.fields n).lookup hw
  | _ => cases hw

theorem Within.item? {key : Value} (hv : v.Within k) (hh : h.Within k)
    (hw : v.item? h key = some w) : w.Within k := by
  have hplace : ∀ items : List Value, (∀ u ∈ items, u.Within k) →
      (place? items.length key).bind (items[·]?) = some w → w.Within k := by
    intro items hitems hw
    obtain ⟨i, -, hi⟩ := Option.bind_eq_some_iff.1 hw
    exact hitems w (List.mem_of_getElem? hi)
  have hname : (key.text?.bind fun name => v.attribute? h name) = some w → w.Within k := by
    intro hw
    obtain ⟨name, -, hname⟩ := Option.bind_eq_some_iff.1 hw
    exact hv.attribute? hh hname
  cases v with
  | text s safe =>
    obtain ⟨c, -, rfl⟩ := Option.map_eq_some_iff.1 hw
    exact within_ofText _
  | list items => exact hplace items (within_list.1 hv) hw
  | stream items => exact hplace items (within_stream.1 hv) hw
  | map ms => exact Member.within_under? (within_map.1 hv) hw
  | options ms => exact Member.within_under? (within_options.1 hv) hw
  | group first items =>
    obtain ⟨hfirst, hitems⟩ := within_group.1 hv
    rw [Value.item?] at hw
    split at hw
    · have hmem := List.mem_of_getElem? hw
      rw [List.mem_cons, List.mem_singleton] at hmem
      rcases hmem with rfl | rfl
      · exact hfirst
      · exact within_list.2 hitems
    · exact hname hw
  | _ => exact hname hw

theorem Within.items? (hv : v.Within k) (hvs : v.items? h = some vs) : ∀ w ∈ vs, w.Within k := by
  cases v with
  | list items =>
    cases hvs
    exact within_list.1 hv
  | stream items =>
    cases hvs
    exact within_stream.1 hv
  | map ms =>
    cases hvs
    exact List.forall_mem_map.2 fun m hm => (within_map.1 hv m hm).1
  | options ms =>
    cases hvs
    exact List.forall_mem_map.2 fun m hm => (within_options.1 hv m hm).1
  | group first items =>
    cases hvs
    simpa using within_group.1 hv
  | space n =>
    cases hvs
    exact List.forall_mem_map.2 fun e _ => within_ofText e.1
  | _ => cases hvs <;> simp

theorem Within.getD_items? (hv : v.Within k) : ∀ w ∈ (v.items? h).getD [], w.Within k := by
  cases hvs : v.items? h with
  | none => simp
  | some vs => exact hv.items? hvs

theorem Within.parts? (hv : v.Within k) (hvs : v.parts? h = some vs) : ∀ w ∈ vs, w.Within k := by
  cases v with
  | undefined silent => cases hvs
  | none => cases hvs
  | text s safe => cases hvs
  | _ => exact hv.items? (h := h) hvs

theorem Within.pairs? {ps : List (Value × Value)} (hv : v.Within k) (hh : h.Within k)
    (hps : v.pairs? h = some ps) : PairsWithin k ps := by
  cases v with
  | map ms =>
    cases hps
    exact List.forall_mem_map.2 (within_map.1 hv)
  | options ms =>
    cases hps
    exact List.forall_mem_map.2 (within_options.1 hv)
  | node n =>
    cases hps
    refine List.forall_mem_map.2 fun key _ => ⟨within_ofText key, ?_⟩
    cases ha : nodeAttribute? n key with
    | none => exact within_none
    | some w => exact within_nodeAttribute? (within_node.1 hv).le ha
  | space n =>
    cases hps
    exact List.forall_mem_map.2 fun e he => ⟨within_ofText e.1, hh.fields n e he⟩
  | _ => cases hps

/-! ### Operators -/

theorem within_arithmetic {op : BinaryOperator} {exact : Int → Int → Option Int}
    {real : Number.Binary64 → Number.Binary64 → Number.Binary64} {u : Value}
    (hu : arithmetic h op exact real v w = .ok u) : u.Within k := by
  rw [arithmetic] at hu
  split at hu
  next i j _ =>
    unfold ofResult at hu
    split at hu
    · split_ifs at hu
      cases hu
      exact within_int _
    · cases hu
  · cases hu
    exact within_real _
  · cases hu

theorem Within.add {u : Value} (hv : v.Within k) (hw : w.Within k) (hu : add h v w = .ok u) :
    u.Within k := by
  unfold Value.add at hu
  split_ifs at hu
  · cases hu
    exact within_stream.2 (List.forall_mem_append.2 ⟨hv.getD_items?, hw.getD_items?⟩)
  · split at hu
    · cases hu
      exact within_ofText _
    · exact within_arithmetic hu

theorem within_repeatText {s : String} {u : Value} (hu : repeatText s v = .ok u) : u.Within k := by
  rw [repeatText] at hu
  split at hu <;> cases hu
  exact within_ofText _

theorem Within.repeatRow {u : Value} (hv : v.Within k) (hu : repeatRow h v w = .ok u) :
    u.Within k := by
  rw [Value.repeatRow] at hu
  split at hu <;> cases hu
  rw [within_stream]
  intro x hx
  obtain ⟨row, hrow, hx⟩ := List.mem_flatten.1 hx
  rw [List.eq_of_mem_replicate hrow] at hx
  exact hv.getD_items? x hx

theorem Within.mul {u : Value} (hv : v.Within k) (hw : w.Within k) (hu : mul h v w = .ok u) :
    u.Within k := by
  unfold Value.mul at hu
  split at hu
  · exact within_repeatText hu
  · exact within_repeatText hu
  · split_ifs at hu
    · exact hv.repeatRow hu
    · exact hw.repeatRow hu
    · exact within_arithmetic hu

theorem Within.binary {op : BinaryOperator} {u : Value} (hv : v.Within k) (hw : w.Within k)
    (hu : binary h op v w = .ok u) : u.Within k := by
  cases op with
  | add => exact hv.add hw hu
  | mul => exact hv.mul hw hu
  | sub => exact within_arithmetic hu
  | floorDiv => exact within_arithmetic hu
  | rem => exact within_arithmetic hu
  | power => exact within_arithmetic hu
  | member =>
    simp only [Value.binary] at hu
    cases hc : contains h v w <;> rw [hc] at hu <;> cases hu
    exact within_bool _
  | div =>
    simp only [Value.binary, div] at hu
    split at hu <;> cases hu
    exact within_real _
  | concat =>
    simp only [Value.binary, bind, Except.bind] at hu
    split at hu
    · cases hu
    · split at hu <;> cases hu
      exact within_ofText _
  | _ =>
    cases hu
    exact within_bool _

theorem within_negate {u : Value} (hu : negate v = .ok u) : u.Within k := by
  unfold negate at hu
  split at hu
  · split_ifs at hu
    cases hu
    exact within_int _
  · cases hu
    exact within_real _
  · cases hu

end Value

theorem mem_of_mem_everyNth {α : Type} {step skip : Nat} {x : α} {xs : List α}
    (h : x ∈ Value.everyNth step skip xs) : x ∈ xs := by
  induction xs generalizing skip with
  | nil => exact h
  | cons y ys ih =>
    cases skip with
    | zero =>
      rcases List.mem_cons.1 h with rfl | h
      · exact List.mem_cons_self
      · exact List.mem_cons_of_mem y (ih h)
    | succ n => exact List.mem_cons_of_mem y (ih h)

theorem mem_of_mem_sliceList {α : Type} {start stop : Option Int} {step : Int} {x : α} {xs : List α}
    (h : x ∈ Value.sliceList start stop step xs) : x ∈ xs := by
  unfold Value.sliceList at h
  split_ifs at h
  · exact List.mem_of_mem_drop (List.mem_of_mem_take (mem_of_mem_everyNth h))
  · have htake := List.mem_reverse.1 (mem_of_mem_everyNth h)
    exact List.mem_of_mem_drop (List.mem_of_mem_take htake)

theorem Value.Within.slice {start stop step u : Value} (hv : v.Within k)
    (hu : slice h v start stop step = .ok u) : u.Within k := by
  unfold Value.slice at hu
  obtain ⟨a, -, hu⟩ := exists_of_bind_eq_ok hu
  obtain ⟨b, -, hu⟩ := exists_of_bind_eq_ok hu
  obtain ⟨c, -, hu⟩ := exists_of_bind_eq_ok hu
  dsimp only at hu
  split_ifs at hu
  · cases hu
  · split at hu
    · cases hu
      simp
    · cases hu
    · cases hu
      simp
    · cases hu
      exact within_ofText _
    · split_ifs at hu
      cases hu
      exact within_stream.2 fun x hx => hv.getD_items? x (mem_of_mem_sliceList hx)

/-! ### Machines -/

def Ground.Within (k : Nat) : Ground → Prop
  | .given v => v.Within k
  | _ => True

structure Frame.Within (k : Nat) (f : Frame) : Prop where
  ground : f.ground.Within k
  locals : EntriesWithin k f.locals

/-- **The nodes in the cells and the frames** of a machine are lower than this. -/
structure Machine.Within (k : Nat) (s : Machine) : Prop where
  heap : s.heap.Within k
  frames : ∀ f ∈ s.frames, f.Within k

theorem Frame.within_nothing : (Frame.on .nothing).Within k :=
  ⟨trivial, by simp [EntriesWithin, Frame.on]⟩

theorem Frame.Within.inFrame? {f : Frame} (hf : f.Within k) (hh : h.Within k)
    (hv : Run.inFrame? h name f = some v) : v.Within k := by
  have hground : Run.inFrame?.grounded h name f = some v → v.Within k := by
    rw [Run.inFrame?.grounded]
    have hg := hf.ground
    split
    next => intro hv; cases hv
    next u hu =>
      rw [hu] at hg
      exact Value.Within.attribute? hg hh
    next n hn => exact (hh.fields n).lookup
  unfold Run.inFrame? at hv
  split at hv
  next u hu =>
    cases hv
    exact hf.locals.lookup hu
  · split at hv
    · split_ifs at hv
      · cases hv
        exact Value.within_loop _
      · exact hground hv
    · exact hground hv

end Scaffold.Template
