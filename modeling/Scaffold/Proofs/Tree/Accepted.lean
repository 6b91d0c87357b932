import Scaffold.Proofs.Text.Trim
import Scaffold.Proofs.Tree.Agreement

/-!
# The values that are trees

`Json.Documented` is the shape that the documentation gives for trees: objects of a tag, a value,
attributes and children. The reader accepts one shape more (`Json.Accepted`), since it also takes the
same fields by their position in an array. It accepts nothing else, and refuses everything else with
a parse failure (`Node.ofJson_isOk_iff`).

* `Record.ofJson_object_iff`, `Record.ofJson_array_iff`: what is read of either form is what its
  four fields say.
* `Json.isTree_of_fields`: when four fields are those of a tree, given what their children are.
-/

namespace Scaffold

namespace Record

/-- **The record that four fields give**; all but the tag may be missing. -/
def ReadOf (t v a c : Option Json) : Record → Prop
  | mk tag value attributes children =>
    t = some (.string tag) ∧ optionalOf (v.getD .null) = .ok value ∧
      attributesOf (a.getD (.object [])) = .ok attributes ∧
      childrenOf (c.getD (.array [])) = .ok children

variable {r : Record} {v : Json}

theorem stringOf_eq_ok_iff {s : String} : stringOf v = .ok s ↔ v = .string s := by
  cases v <;> simp [stringOf]

theorem optionalOf_eq_ok_iff {o : Option String} :
    optionalOf v = .ok o ↔ (v = .null ∧ o = none) ∨ ∃ s, v = .string s ∧ o = some s := by
  cases v <;> simp [optionalOf, stringOf, Except.map, eq_comm]

theorem attributesOf_eq_ok_iff {b : Attributes} :
    attributesOf v = .ok b ↔ ∃ as, v = .object as ∧ b = Attributes.ofList as := by
  cases v <;> simp [attributesOf, eq_comm]

theorem childrenOf_eq_ok_iff {rs : List Record} :
    childrenOf v = .ok rs ↔ ∃ cs, v = .array cs ∧ ofItems cs = .ok rs := by
  cases v <;> simp [childrenOf]

/-- A field that was not read keeps its default, which is what is read of a default value. -/
theorem getD_of_slot {α : Type} {read : Json → Except Decode.Fault α} {x : Option Json}
    {o : Option α} {d : Json} {b : α} (hd : read d = .ok b) (h : slot read none x = .ok o) :
    read (x.getD d) = .ok (o.getD b) := by
  cases x with
  | none =>
    rw [slot_none_iff.1 h]
    exact hd
  | some w =>
    obtain ⟨y, hy, rfl⟩ := slot_some_iff.1 h
    exact hy

theorem slot_of_getD {α : Type} {read : Json → Except Decode.Fault α} {x : Option Json} {d : Json}
    {b c : α} (hd : read d = .ok b) (h : read (x.getD d) = .ok c) :
    ∃ o, slot read none x = .ok o ∧ o.getD b = c := by
  cases x with
  | none => exact ⟨none, rfl, Except.ok.inj (hd.symm.trans h)⟩
  | some w => exact ⟨some c, slot_some_iff.2 ⟨c, h, rfl⟩, rfl⟩

/-- **An object is read by the names of its members.** -/
theorem ofJson_object_iff {ms : List (String × Json)} (h : (Entries.keys ms).Nodup) :
    ofJson (.object ms) = .ok r ↔ ReadOf (ms.lookup "tag") (ms.lookup "value")
      (ms.lookup "attributes") (ms.lookup "children") r := by
  have hcount : ∀ k ∈ fieldNames, (Entries.keys ms).count k ≤ 1 := fun k _ =>
    List.nodup_iff_count_le_one.1 h k
  have hvalue : optionalOf .null = .ok none := rfl
  have hattributes : attributesOf (.object []) = .ok .empty := rfl
  have hchildren : childrenOf (.array []) = .ok [] := rfl
  obtain ⟨tag, value, attributes, children⟩ := r
  rw [ofJson, bind_eq_ok_iff, ReadOf]
  simp only [ofMembers_eq_ok_iff hcount]
  constructor
  · rintro ⟨⟨t, v, a, c⟩, ⟨ht, hv, ha, hc⟩, hfinish⟩
    -- the record is finished only if a tag was read
    cases t with
    | none => cases hfinish
    | some t =>
      cases hfinish
      refine ⟨?_, getD_of_slot hvalue hv, getD_of_slot hattributes ha, getD_of_slot hchildren hc⟩
      cases hw : ms.lookup "tag" with
      | none =>
        rw [hw, slot_none_iff] at ht
        cases ht
      | some w =>
        rw [hw, slot_some_iff] at ht
        obtain ⟨s, hs, hst⟩ := ht
        rw [stringOf_eq_ok_iff.1 hs, Option.some.inj hst]
  · rintro ⟨ht, hv, ha, hc⟩
    obtain ⟨v, hvs, rfl⟩ := slot_of_getD hvalue hv
    obtain ⟨a, has, rfl⟩ := slot_of_getD hattributes ha
    obtain ⟨c, hcs, rfl⟩ := slot_of_getD hchildren hc
    refine ⟨⟨some tag, v, a, c⟩, ⟨?_, hvs, has, hcs⟩, rfl⟩
    rw [ht]
    rfl

/-- **An array is read by position**, and may not go on after the fourth field. -/
theorem ofJson_array_iff {vs : List Json} : ofJson (.array vs) = .ok r ↔
    vs.length ≤ 4 ∧ ReadOf vs[0]? vs[1]? vs[2]? vs[3]? r := by
  obtain ⟨tag, value, attributes, children⟩ := r
  match vs with
  | [] => simp [ofJson, ReadOf]
  | [t] => simp [ofJson, ReadOf, bind_eq_ok_iff, stringOf_eq_ok_iff, optionalOf, attributesOf,
      childrenOf, ofItems, Attributes.ofList, Attributes.insertAll]
  | [t, v] => simp [ofJson, ReadOf, bind_eq_ok_iff, stringOf_eq_ok_iff, attributesOf,
      childrenOf, ofItems, Attributes.ofList, Attributes.insertAll]
  | [t, v, a] => simp [ofJson, ReadOf, bind_eq_ok_iff, stringOf_eq_ok_iff, childrenOf, ofItems]
  | t :: v :: a :: c :: rest =>
    cases c with
    | array cs =>
      cases rest <;>
        simp [ofJson, ReadOf, bind_eq_ok_iff, stringOf_eq_ok_iff, childrenOf]
    | _ => simp [ofJson, ReadOf, bind_eq_ok_iff, stringOf_eq_ok_iff, childrenOf]

/-! ### Records that become nodes -/

/-- **A record becomes a node** if its tag is not empty, no attribute has a reserved name, a value
that is not blank meets no attribute of its name, and its children become nodes. -/
theorem exists_toNode_iff {t : String} {s : Option String} {a : Attributes} {rs : List Record} :
    (∃ n, (mk t s a rs).toNode = .ok n) ↔
      t ≠ "" ∧ (∀ k ∈ a.keys, k ∉ reservedNames) ∧
        (s.bind Text.trimmed? = none ∨ textName ∉ a.keys) ∧ ∃ ns, toNodes rs = .ok ns := by
  constructor
  · rintro ⟨n, hn⟩
    have hone : s.bind Text.trimmed? = none ∨ textName ∉ a.keys := by
      by_contra hboth
      rw [not_or, not_not] at hboth
      rw [Node.toNode_of_both hboth.1 hboth.2] at hn
      cases hn
    obtain ⟨ns, hns⟩ : ∃ ns, toNodes rs = .ok ns := by
      cases hrs : toNodes rs with
      | ok ns => exact ⟨ns, rfl⟩
      | error f =>
        rw [Node.toNode_of_children hone hrs] at hn
        cases hn
    -- the node is made of these attributes, before which the value may be put
    obtain ⟨b, hmake, hentries⟩ := Node.toNode_eq_make t rs hone
    rw [hmake, hns] at hn
    have hsub : ∀ k ∈ a.keys, k ∈ b.keys := by
      intro k hk
      rw [Attributes.keys, hentries, Entries.keys, List.map_append]
      exact List.mem_append_right _ hk
    obtain ⟨u, d, c, tag_ne, free⟩ := n
    obtain ⟨rfl, rfl, -⟩ := Node.make_eq_ok_iff.1 hn
    exact ⟨tag_ne, fun k hk => free k (hsub k hk), hone, ns, hns⟩
  · rintro ⟨tag_ne, free, hone, ns, hns⟩
    obtain ⟨b, hb, hnode, -⟩ := Node.toNode_of_single tag_ne free hone hns
    exact ⟨_, hnode⟩

end Record

theorem Attributes.mem_keys_ofList {k : String} {es : List (String × Json)} :
    k ∈ (ofList es).keys ↔ k ∈ Entries.keys es := by
  have hlookup : (ofList es).entries.lookup k = es.reverse.lookup k :=
    (lookup_insertAll k es).trans Option.or_none
  rw [keys, ← Entries.isSome_lookup, hlookup, Entries.isSome_lookup,
    (Entries.keys_perm es.reverse_perm).mem_iff]

namespace Json

open Record

/-! ### The shape of a tree -/

/-- **What the fields of a tree may be**, but for the children themselves: a tag that is not empty,
a text or null as the value, attributes without reserved names, an array of children, and not both a
value that is not blank and an attribute of its name. -/
structure FieldsFit (t v a c : Option Json) : Prop where
  tag : ∃ s, t = some (.string s) ∧ s ≠ ""
  value : ∀ w, v = some w → w = .null ∨ ∃ s, w = .string s
  attributes : ∀ w, a = some w →
    ∃ as, w = .object as ∧ ∀ k ∈ Entries.keys as, k ∉ reservedNames
  children : ∀ w, c = some w → ∃ cs, w = .array cs
  single : ∀ s as, v = some (.string s) → a = some (.object as) →
    textName ∈ Entries.keys as → Text.isBlankText s = true

/-- **The documented shape of a tree**: objects, with any other members beside the four fields. -/
inductive Documented : Json → Prop
  | object {ms : List (String × Json)} :
      FieldsFit (ms.lookup "tag") (ms.lookup "value") (ms.lookup "attributes")
        (ms.lookup "children") →
      (∀ cs, ms.lookup "children" = some (.array cs) → ∀ d ∈ cs, Documented d) →
      Documented (.object ms)

/-- **The shape that is accepted**: the same, where any node may also be an array of its fields in
the order tag, value, attributes, children. -/
inductive Accepted : Json → Prop
  | object {ms : List (String × Json)} :
      FieldsFit (ms.lookup "tag") (ms.lookup "value") (ms.lookup "attributes")
        (ms.lookup "children") →
      (∀ cs, ms.lookup "children" = some (.array cs) → ∀ d ∈ cs, Accepted d) →
      Accepted (.object ms)
  | array {vs : List Json} : vs.length ≤ 4 → FieldsFit vs[0]? vs[1]? vs[2]? vs[3]? →
      (∀ cs, vs[3]? = some (.array cs) → ∀ d ∈ cs, Accepted d) → Accepted (.array vs)

/-- A node of the value is written as an array. -/
inductive Positional : Json → Prop
  | array (vs : List Json) : Positional (.array vs)
  | child {ms : List (String × Json)} {cs : List Json} {d : Json} :
      ms.lookup "children" = some (.array cs) → d ∈ cs → Positional d → Positional (.object ms)

/-- The documented shape is the accepted one without arrays in the place of nodes. -/
theorem documented_iff {v : Json} : v.Documented ↔ v.Accepted ∧ ¬ v.Positional := by
  constructor
  · intro h
    induction h with
    | object hfit hc ih =>
      refine ⟨.object hfit fun cs hcs d hd => (ih cs hcs d hd).1, fun hp => ?_⟩
      cases hp with
      | child hcs hd hp => exact (ih _ hcs _ hd).2 hp
  · rintro ⟨h, hp⟩
    induction h with
    | object hfit hc ih =>
      exact .object hfit fun cs hcs d hd => ih cs hcs d hd fun hpd => hp (.child hcs hd hpd)
    | array hlength hfit hc ih => exact absurd (.array _) hp

/-! ### What is read -/

/-- The value is read as a record that becomes a node. -/
def IsTree (v : Json) : Prop := ∃ r n, ofJson v = .ok r ∧ r.toNode = .ok n

theorem isTree_items {cs : List Json} :
    (∃ rs ns, ofItems cs = .ok rs ∧ toNodes rs = .ok ns) ↔ ∀ d ∈ cs, d.IsTree := by
  induction cs with
  | nil => simp [ofItems, toNodes]
  | cons d l ih =>
    rw [List.forall_mem_cons, ← ih]
    constructor
    · rintro ⟨rs, ns, hrs, hns⟩
      rw [ofItems] at hrs
      obtain ⟨r, hr, hrs⟩ := exists_of_bind_eq_ok hrs
      obtain ⟨rs', hrs', hcons⟩ := exists_of_bind_eq_ok hrs
      cases hcons
      rw [toNodes] at hns
      obtain ⟨n, hn, hns⟩ := exists_of_bind_eq_ok hns
      obtain ⟨ns', hns', -⟩ := exists_of_bind_eq_ok hns
      exact ⟨⟨r, n, hr, hn⟩, rs', ns', hrs', hns'⟩
    · rintro ⟨⟨r, n, hr, hn⟩, rs, ns, hrs, hns⟩
      refine ⟨r :: rs, n :: ns, ?_, ?_⟩
      · rw [ofItems, hr, hrs]
        rfl
      · rw [toNodes, hn, hns]
        rfl

/-! ### When four fields are those of a tree -/

section

variable {t v a c : Option Json}

theorem fieldsFit_of_readOf {r : Record} {n : Node} (h : ReadOf t v a c r) (hn : r.toNode = .ok n) :
    FieldsFit t v a c ∧ ∀ cs, c = some (.array cs) → ∀ d ∈ cs, d.IsTree := by
  obtain ⟨tag, value, attributes, children⟩ := r
  obtain ⟨rfl, hv, ha, hc⟩ := h
  obtain ⟨tag_ne, free, hone, ns, hns⟩ := exists_toNode_iff.1 ⟨n, hn⟩
  obtain ⟨cs, hcs, hrs⟩ := childrenOf_eq_ok_iff.1 hc
  obtain ⟨as, has, rfl⟩ := attributesOf_eq_ok_iff.1 ha
  refine ⟨⟨⟨tag, rfl, tag_ne⟩, ?_, ?_, ?_, ?_⟩, ?_⟩
  · rintro w rfl
    rcases optionalOf_eq_ok_iff.1 hv with ⟨hw, -⟩ | ⟨s, hw, -⟩
    · exact .inl hw
    · exact .inr ⟨s, hw⟩
  · rintro w rfl
    exact ⟨as, has, fun k hk => free k (Attributes.mem_keys_ofList.2 hk)⟩
  · rintro w rfl
    exact ⟨cs, hcs⟩
  · -- a node has no room for a value beside an attribute of its name
    rintro s bs rfl rfl hk
    cases has
    cases hv
    have hblank := hone.resolve_right (not_not.2 (Attributes.mem_keys_ofList.2 hk))
    exact Text.trimmed?_eq_none_iff.1 hblank
  · rintro ds rfl
    cases hcs
    exact isTree_items.1 ⟨children, ns, hrs, hns⟩

namespace FieldsFit

variable (h : FieldsFit t v a c)

include h

theorem exists_value : ∃ value, optionalOf (v.getD .null) = .ok value ∧
    ∀ s, value = some s → v = some (.string s) := by
  cases v with
  | none => exact ⟨none, rfl, fun s h => nomatch h⟩
  | some w =>
    rcases h.value w rfl with rfl | ⟨s, rfl⟩
    · exact ⟨none, rfl, fun s h => nomatch h⟩
    · exact ⟨some s, rfl, fun u h => by rw [Option.some.inj h]⟩

theorem exists_attributes : ∃ as, a.getD (.object []) = .object as ∧
    (∀ k ∈ Entries.keys as, k ∉ reservedNames) ∧
    (textName ∈ Entries.keys as → a = some (.object as)) := by
  cases a with
  | none => exact ⟨[], rfl, by simp, by simp⟩
  | some w =>
    obtain ⟨as, rfl, free⟩ := h.attributes w rfl
    exact ⟨as, rfl, free, fun _ => rfl⟩

theorem exists_children (htrees : ∀ cs, c = some (.array cs) → ∀ d ∈ cs, d.IsTree) :
    ∃ cs, c.getD (.array []) = .array cs ∧ ∀ d ∈ cs, d.IsTree := by
  cases c with
  | none => exact ⟨[], rfl, by simp⟩
  | some w =>
    obtain ⟨cs, rfl⟩ := h.children w rfl
    exact ⟨cs, rfl, htrees cs rfl⟩

theorem exists_readOf (htrees : ∀ cs, c = some (.array cs) → ∀ d ∈ cs, d.IsTree) :
    ∃ r n, ReadOf t v a c r ∧ r.toNode = .ok n := by
  obtain ⟨tag, rfl, tag_ne⟩ := h.tag
  obtain ⟨value, hv, hvalue⟩ := h.exists_value
  obtain ⟨as, has, free, hattributes⟩ := h.exists_attributes
  obtain ⟨cs, hcs, hchildren⟩ := h.exists_children htrees
  obtain ⟨rs, ns, hrs, hns⟩ := isTree_items.2 hchildren
  have hone : value.bind Text.trimmed? = none ∨ textName ∉ (Attributes.ofList as).keys := by
    cases value with
    | none => exact .inl rfl
    | some s =>
      by_cases hk : textName ∈ Entries.keys as
      · exact .inl (Text.trimmed?_eq_none_iff.2 (h.single s as (hvalue s rfl) (hattributes hk) hk))
      · exact .inr (mt Attributes.mem_keys_ofList.1 hk)
  obtain ⟨n, hn⟩ := exists_toNode_iff.2
    ⟨tag_ne, fun k hk => free k (Attributes.mem_keys_ofList.1 hk), hone, ns, hns⟩
  refine ⟨Record.mk tag value (.ofList as) rs, n, ⟨rfl, hv, ?_, ?_⟩, hn⟩
  · rw [has]
    rfl
  · rw [hcs]
    exact hrs

end FieldsFit

theorem isTree_of_fields : (∃ r n, ReadOf t v a c r ∧ r.toNode = .ok n) ↔
    FieldsFit t v a c ∧ ∀ cs, c = some (.array cs) → ∀ d ∈ cs, d.IsTree := by
  constructor
  · rintro ⟨r, n, hr, hn⟩
    exact fieldsFit_of_readOf hr hn
  · rintro ⟨hfit, htrees⟩
    exact hfit.exists_readOf htrees

end

theorem isTree_object_iff {ms : List (String × Json)} (h : (Entries.keys ms).Nodup) :
    (object ms).IsTree ↔
      FieldsFit (ms.lookup "tag") (ms.lookup "value") (ms.lookup "attributes")
        (ms.lookup "children") ∧
      ∀ cs, ms.lookup "children" = some (.array cs) → ∀ d ∈ cs, d.IsTree := by
  rw [← isTree_of_fields, IsTree]
  simp only [ofJson_object_iff h]

theorem isTree_array_iff {vs : List Json} : (array vs).IsTree ↔ vs.length ≤ 4 ∧
    FieldsFit vs[0]? vs[1]? vs[2]? vs[3]? ∧
      ∀ cs, vs[3]? = some (.array cs) → ∀ d ∈ cs, d.IsTree := by
  rw [← isTree_of_fields, IsTree]
  simp only [ofJson_array_iff, and_assoc, exists_and_left]

theorem isTree_of_accepted {v : Json} (h : v.Accepted) (hv : v.canonical = v) : v.IsTree := by
  induction h with
  | @object ms hfit hc ih =>
    obtain ⟨hinc, hms⟩ := canonical_object_iff.1 hv
    refine (isTree_object_iff hinc.nodup).2 ⟨hfit, fun cs hcs d hd => ih cs hcs d hd ?_⟩
    exact canonical_array_iff.1 (hms _ ((Entries.lookup_eq_some_iff_mem hinc.nodup).1 hcs)) d hd
  | @array vs hlength hfit hc ih =>
    refine isTree_array_iff.2 ⟨hlength, hfit, fun cs hcs d hd => ih cs hcs d hd ?_⟩
    exact canonical_array_iff.1 (canonical_array_iff.1 hv _ (List.mem_of_getElem? hcs)) d hd

/-- By recursion on the value, the children of a node being smaller than the node. -/
theorem accepted_of_isTree (v : Json) (hv : v.canonical = v) (h : v.IsTree) : v.Accepted := by
  cases v with
  | object ms =>
    obtain ⟨hinc, hms⟩ := canonical_object_iff.1 hv
    obtain ⟨hfit, hc⟩ := (isTree_object_iff hinc.nodup).1 h
    refine .object hfit fun cs hcs d hd => ?_
    have hmem := (Entries.lookup_eq_some_iff_mem hinc.nodup).1 hcs
    have hsmaller : sizeOf d < sizeOf (object ms) := by
      have h₁ := List.sizeOf_lt_of_mem hd
      have h₂ := List.sizeOf_lt_of_mem hmem
      simp only [Prod.mk.sizeOf_spec, Json.array.sizeOf_spec, Json.object.sizeOf_spec] at h₂ ⊢
      omega
    exact accepted_of_isTree d (canonical_array_iff.1 (hms _ hmem) d hd) (hc cs hcs d hd)
  | array vs =>
    obtain ⟨hlength, hfit, hc⟩ := isTree_array_iff.1 h
    refine .array hlength hfit fun cs hcs d hd => ?_
    have hmem := List.mem_of_getElem? hcs
    have hsmaller : sizeOf d < sizeOf (array vs) := by
      have h₁ := List.sizeOf_lt_of_mem hd
      have h₂ := List.sizeOf_lt_of_mem hmem
      simp only [Json.array.sizeOf_spec] at h₂ ⊢
      omega
    have hd' := canonical_array_iff.1 (canonical_array_iff.1 hv _ hmem) d hd
    exact accepted_of_isTree d hd' (hc cs hcs d hd)
  | _ =>
    obtain ⟨r, n, hr, -⟩ := h
    cases hr
termination_by sizeOf v
decreasing_by
  all_goals
    subst_vars
    exact hsmaller

end Json

namespace Node

/-- A value is read as a node, or refused with a parse failure. -/
theorem ofJson_cases (v : Json) :
    (v.IsTree ∧ ∃ n, ofJson v = .ok n) ∨ (¬ v.IsTree ∧ ∃ d, ofJson v = .error (.parse d)) := by
  rw [ofJson, ofRecord, Json.IsTree]
  cases hr : Record.ofJson v with
  | error f =>
    refine .inr ⟨?_, _, rfl⟩
    rintro ⟨_, _, h, _⟩
    cases h
  | ok r =>
    cases hn : r.toNode with
    | error f =>
      refine .inr ⟨?_, f.message, by simp [bind, Except.bind, hn, Except.mapError]⟩
      rintro ⟨s, n, hs, h⟩
      cases hs
      rw [hn] at h
      cases h
    | ok n =>
      exact .inl ⟨⟨r, n, rfl, hn⟩, n, by simp [bind, Except.bind, hn, Except.mapError]⟩

/-- **Exactly the accepted values are read as nodes**, and all others are refused with a parse
failure. The accepted values are the documented ones, and those with arrays in the place of
nodes. -/
theorem ofJson_isOk_iff {v : Json} (hv : v.canonical = v) :
    ((∃ n, ofJson v = .ok n) ↔ v.Accepted) ∧
      (¬ v.Accepted → ∃ d, ofJson v = .error (.parse d)) ∧
      (v.Documented ↔ v.Accepted ∧ ¬ v.Positional) := by
  have haccepted : v.IsTree ↔ v.Accepted :=
    ⟨Json.accepted_of_isTree v hv, fun h => Json.isTree_of_accepted h hv⟩
  refine ⟨?_, ?_, Json.documented_iff⟩
  · rw [← haccepted]
    rcases ofJson_cases v with ⟨htree, hn⟩ | ⟨htree, d, hd⟩
    · exact iff_of_true hn htree
    · exact iff_of_false (fun ⟨n, hn⟩ => by rw [hd] at hn; cases hn) htree
  · rw [← haccepted]
    intro hno
    rcases ofJson_cases v with ⟨htree, -⟩ | ⟨-, hd⟩
    · exact absurd htree hno
    · exact hd

/-- A tree with a member that is no field, a blank value, and one child by position. -/
def mixed : Json :=
  .object [("attributes", .object [("size", .number (.int 1))]),
    ("children", .array [.array [.string "b", .null], .object [("tag", .string "c")]]),
    ("note", .bool true), ("tag", .string "a"), ("value", .string " ")]

theorem ofJson_isOk_mixed :
    mixed.canonical = mixed ∧ (∃ n, ofJson mixed = .ok n) ∧ mixed.Accepted ∧ ¬ mixed.Documented := by
  have hv : mixed.canonical = mixed := rfl
  obtain ⟨hiff, -, hdocumented⟩ := ofJson_isOk_iff hv
  have hn : ∃ n, ofJson mixed = .ok n :=
    exists_of_isOk (by decide +kernel : (ofJson mixed).isOk = true)
  have hp : mixed.Positional := .child rfl (List.mem_cons_self) (.array _)
  exact ⟨hv, hn, hiff.1 hn, fun h => (hdocumented.1 h).2 hp⟩

/-- **An array of a tag is read as a node**, although it is not an object. -/
theorem ofJson_array_of_tag :
    (∃ n, ofJson (.array [.string "a"]) = .ok n) ∧ ¬ (Json.array [.string "a"]).Documented := by
  refine ⟨exists_of_isOk (by decide +kernel : (ofJson (.array [.string "a"])).isOk = true), ?_⟩
  intro h
  cases h

end Node

end Scaffold
