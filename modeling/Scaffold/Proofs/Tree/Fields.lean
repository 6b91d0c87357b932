import Scaffold.Proofs.Json.Proper
import Scaffold.Tree.Record

/-!
# Fields of a tree document

A tree document is an object of four fields, of which only the tag has to be there.
`Json.treeMembers` lists them in increasing order, as they are in every value that is read
generically (`eq_treeFields`), and `Record.ofJson_treeMembers` says what is read from them.
-/

namespace Scaffold

/-- A list that is left out where it is empty. -/
def present {α : Type} (l : List α) : Option (List α) := if l.isEmpty then none else some l

@[simp] theorem getD_present {α : Type} (l : List α) : (present l).getD [] = l := by
  cases l <;> rfl

namespace Json

/-- A member of an object, if there is a value for it. -/
def fieldOf (k : String) (v : Option Json) : List (String × Json) := (v.map fun v => (k, v)).toList

/-- The fields of a tree document in increasing order. -/
def treeFields (attributes children tag value : Option Json) : List (String × Json) :=
  fieldOf "attributes" attributes ++ fieldOf "children" children ++ fieldOf "tag" tag ++
    fieldOf "value" value

/-- The fields of a tree document with a tag, and with attributes and children of the right
shapes. -/
def treeMembers (t : String) (v : Option Json) (a : Option (List (String × Json)))
    (c : Option (List Json)) : List (String × Json) :=
  treeFields (a.map .object) (c.map .array) (some (.string t)) v

variable {a c t v : Option Json} {k : String} {w : Json}

theorem mem_fieldOf {e : String × Json} : e ∈ fieldOf k v ↔ v = some e.2 ∧ e.1 = k := by
  obtain ⟨l, w⟩ := e
  cases v with
  | none => simp [fieldOf]
  | some u => simp [fieldOf, eq_comm, and_comm]

theorem mem_treeFields {e : String × Json} : e ∈ treeFields a c t v ↔
    (a = some e.2 ∧ e.1 = "attributes") ∨ (c = some e.2 ∧ e.1 = "children") ∨
      (t = some e.2 ∧ e.1 = "tag") ∨ (v = some e.2 ∧ e.1 = "value") := by
  simp only [treeFields, List.mem_append, mem_fieldOf, or_assoc]

theorem increasing_treeFields (a c t v : Option Json) :
    Entries.Increasing (treeFields a c t v) := by
  have hfield : ∀ k (w : Option Json), (Entries.keys (fieldOf k w)).Sublist [k] := by
    intro k w
    cases w with
    | none => exact List.nil_sublist _
    | some w => exact List.Sublist.refl _
  have hall : (["attributes", "children", "tag", "value"] : List String).Pairwise (· < ·) := by
    decide
  -- the keys are some of the four, in their order
  refine hall.sublist ?_
  simp only [treeFields, Entries.keys_append]
  exact (((hfield _ a).append (hfield _ c)).append (hfield _ t)).append (hfield _ v)

/-- **An object of these fields is the list of them**, if its keys are increasing. -/
theorem eq_treeFields {ms : List (String × Json)} (h : Entries.Increasing ms)
    (hk : ∀ k ∈ Entries.keys ms, k ∈ ["attributes", "children", "tag", "value"]) :
    ms = treeFields (ms.lookup "attributes") (ms.lookup "children") (ms.lookup "tag")
      (ms.lookup "value") := by
  have hfields := increasing_treeFields (ms.lookup "attributes") (ms.lookup "children")
    (ms.lookup "tag") (ms.lookup "value")
  refine Entries.eq_of_perm ((List.perm_ext_iff_of_nodup h.nodup.of_map hfields.nodup.of_map).2
    fun e => ?_) h hfields
  obtain ⟨k, w⟩ := e
  simp only [mem_treeFields, Entries.lookup_eq_some_iff_mem h.nodup]
  constructor
  · intro hm
    have hname := hk k (Entries.mem_keys.2 ⟨w, hm⟩)
    simp only [List.mem_cons, List.not_mem_nil, or_false] at hname
    rcases hname with rfl | rfl | rfl | rfl
    · exact .inl ⟨hm, rfl⟩
    · exact .inr (.inl ⟨hm, rfl⟩)
    · exact .inr (.inr (.inl ⟨hm, rfl⟩))
    · exact .inr (.inr (.inr ⟨hm, rfl⟩))
  · rintro (⟨hm, rfl⟩ | ⟨hm, rfl⟩ | ⟨hm, rfl⟩ | ⟨hm, rfl⟩) <;> exact hm

/-- The order in which a tree writes its fields, and the increasing order. -/
theorem sortMembers_fields (t : Json) (v a c : Option Json) :
    sortMembers ([("tag", t)] ++ fieldOf "value" v ++ fieldOf "attributes" a ++
      fieldOf "children" c) = treeFields a c (some t) v := by
  cases v <;> cases a <;> cases c <;> rfl

end Json

namespace Record

open Json

/-- What is read from the fields of a tree document; all but the tag may be missing. -/
theorem ofJson_treeMembers {t : String} {v : Option Json} {a : Option (List (String × Json))}
    {c : Option (List Json)} {s : Option String} {rs : List Record}
    (hv : optionalOf (v.getD .null) = .ok s) (hc : ofItems (c.getD []) = .ok rs) :
    ofJson (.object (treeMembers t v a c)) = .ok (.mk t s (.ofList (a.getD [])) rs) := by
  have hnone : v = none → s = none := by
    rintro rfl
    exact (Except.ok.inj hv).symm
  have hnil : c = none → rs = [] := by
    rintro rfl
    exact (Except.ok.inj hc).symm
  cases v <;> cases a <;> cases c <;>
    simp_all [ofJson, ofMembers, treeMembers, treeFields, fieldOf, stringOf, attributesOf,
      Parts.none, Parts.finish, bind, Except.bind, Attributes.ofList, Attributes.insertAll]

end Record

end Scaffold
