import Scaffold.Proofs.Tree.RoundTrip

/-!
# The JSON form tells the tree

Objects in increasing order are the same just if what is found under every name is
(`sameMembers_iff`), and so are attributes, in whatever order they are (`Attributes.same_iff`). The
JSON form of a node keeps its text apart from its other attributes, but from the two what is found
under every name can be told (`sameField_iff_of_text`). So trees have the same JSON form just if they
are the same (`Node.same_toJson_iff`).
-/

namespace Scaffold

open Json

/-- **The same value in both places**, or none in either. -/
def SameField (v w : Option Json) : Prop := Option.Rel (fun v w => v.same w = true) v w

section

variable {v w : Json} {x y : Option Json}

@[simp] theorem sameField_none : SameField none none := .none

@[simp] theorem sameField_some : SameField (some v) (some w) ↔ v.same w = true :=
  ⟨fun h => by cases h; assumption, fun h => .some h⟩

@[simp] theorem not_sameField_left : ¬ SameField (some v) none := by
  rintro ⟨⟩

@[simp] theorem not_sameField_right : ¬ SameField none (some w) := by
  rintro ⟨⟩

theorem SameField.isSome_eq (h : SameField x y) : x.isSome = y.isSome := by
  cases h <;> rfl

/-- Values that are the same are both texts or both none. -/
theorem string?_of_same (h : v.same w = true) : v.string? = w.string? := by
  cases v <;> cases w <;> simp_all [Json.same, string?]

theorem isString_eq (v : Json) : v.isString = v.string?.isSome := by
  cases v <;> rfl

/-- A place where there may be a text is the same if the texts are equal and what is no text is the
same. -/
theorem sameField_iff_of_text : SameField x y ↔ x.bind string? = y.bind string? ∧
    SameField (x.filter fun v => !v.isString) (y.filter fun v => !v.isString) := by
  constructor
  · intro h
    cases h with
    | none => exact ⟨rfl, .none⟩
    | @some v w h =>
      have hstring := string?_of_same h
      refine ⟨hstring, ?_⟩
      simp only [Option.filter_some, isString_eq, hstring]
      split
      · exact .some h
      · exact .none
  · rintro ⟨htext, hother⟩
    cases x with
    | none =>
      cases y with
      | none => exact .none
      | some w => cases w <;> simp_all [Option.filter, isString, string?]
    | some v =>
      cases y with
      | none => cases v <;> simp_all [Option.filter, isString, string?]
      | some w => cases v <;> cases w <;> simp_all [Option.filter, isString, string?, Json.same]

end

/-! ### Members and attributes by what is found in them -/

namespace Json

open Entries

variable {es fs r s : List (String × Json)} {k : String} {x y : Option Json}

/-- What is the same under every name begins with the same key: a first key that is smaller would
only be found on its side. -/
theorem head_eq_of_sameFields {l : String} {v w : Json} (hes : Increasing ((k, v) :: es))
    (hfs : Increasing ((l, w) :: fs))
    (h : ∀ j, SameField (((k, v) :: es).lookup j) (((l, w) :: fs).lookup j)) : k = l := by
  have hk := h k
  have hl := h l
  rw [List.lookup_cons_self] at hk hl
  rcases lt_trichotomy k l with hlt | heq | hlt
  · rw [hfs.lookup_of_lt hlt] at hk
    cases hk
  · exact heq
  · rw [hes.lookup_of_lt hlt] at hl
    cases hl

/-- Behind a first key that is the same, where it is found no more. -/
theorem sameFields_cons_iff {v w : Json} (hes : Increasing ((k, v) :: es))
    (hfs : Increasing ((k, w) :: fs)) :
    (∀ j, SameField (((k, v) :: es).lookup j) (((k, w) :: fs).lookup j)) ↔
      v.same w = true ∧ ∀ j, SameField (es.lookup j) (fs.lookup j) := by
  have hother : ∀ {j}, j ≠ k → (j == k) = false := fun hj => by simpa using hj
  constructor
  · intro hall
    have hvw := hall k
    rw [List.lookup_cons_self, List.lookup_cons_self, sameField_some] at hvw
    refine ⟨hvw, fun j => ?_⟩
    by_cases hj : j = k
    · rw [hj, hes.lookup_tail, hfs.lookup_tail]
      exact .none
    · simpa only [List.lookup_cons, hother hj] using hall j
  · rintro ⟨hvw, hall⟩ j
    by_cases hj : j = k
    · subst hj
      rw [List.lookup_cons_self, List.lookup_cons_self]
      exact .some hvw
    · simpa only [List.lookup_cons, hother hj] using hall j

/-- **Members in increasing order are the same** if what is found under every name is. -/
theorem sameMembers_iff (hes : Increasing es) (hfs : Increasing fs) :
    sameMembers es fs = true ↔ ∀ k, SameField (es.lookup k) (fs.lookup k) := by
  induction es generalizing fs with
  | nil =>
    cases fs with
    | nil => simp [sameMembers]
    | cons f fs =>
      refine ⟨fun h => by simp [sameMembers] at h, fun h => ?_⟩
      have hfirst := h f.1
      rw [List.lookup_cons_self] at hfirst
      cases hfirst
  | cons e es ih =>
    obtain ⟨k, v⟩ := e
    cases fs with
    | nil =>
      refine ⟨fun h => by simp [sameMembers] at h, fun h => ?_⟩
      have hfirst := h k
      rw [List.lookup_cons_self] at hfirst
      cases hfirst
    | cons f fs =>
      obtain ⟨l, w⟩ := f
      have hrest := ih (increasing_cons.1 hes).2 (increasing_cons.1 hfs).2
      rw [sameMembers, Bool.and_eq_true, Bool.and_eq_true, beq_iff_eq, hrest]
      constructor
      · rintro ⟨⟨rfl, hvw⟩, hall⟩
        exact (sameFields_cons_iff hes hfs).2 ⟨hvw, hall⟩
      · intro hall
        obtain rfl := head_eq_of_sameFields hes hfs hall
        obtain ⟨hvw, htail⟩ := (sameFields_cons_iff hes hfs).1 hall
        exact ⟨⟨rfl, hvw⟩, htail⟩

/-- A field that stands first in two objects, where nothing else has its name. -/
theorem sameMembers_fieldOf (hr : k ∉ keys r) (hs : k ∉ keys s) :
    sameMembers (fieldOf k x ++ r) (fieldOf k y ++ s) = true ↔
      SameField x y ∧ sameMembers r s = true := by
  cases x with
  | none =>
    cases y with
    | none => simp [fieldOf]
    | some w =>
      cases r with
      | nil => simp [fieldOf, sameMembers]
      | cons e r =>
        have hne : e.1 ≠ k := fun h => hr (by simp [h])
        simp [fieldOf, sameMembers, hne]
  | some v =>
    cases y with
    | none =>
      cases s with
      | nil => simp [fieldOf, sameMembers]
      | cons e s =>
        have hne : k ≠ e.1 := fun h => hs (by simp [h])
        simp [fieldOf, sameMembers, hne]
    | some w => simp [fieldOf, sameMembers]

theorem not_mem_keys_fieldOf {j : String} (h : j ≠ k) : j ∉ keys (fieldOf k x) := by
  cases x <;> simp [fieldOf, h]

/-- **Objects with the fields of trees are the same** if every field is. -/
theorem sameMembers_treeFields {a c t v a' c' t' v' : Option Json} :
    sameMembers (treeFields a c t v) (treeFields a' c' t' v') = true ↔
      SameField a a' ∧ SameField c c' ∧ SameField t t' ∧ SameField v v' := by
  have hlast : sameMembers (fieldOf "value" v) (fieldOf "value" v') = true ↔ SameField v v' := by
    have hend := sameMembers_fieldOf (k := "value") (x := v) (y := v') (r := []) (s := [])
      (by simp) (by simp)
    simpa [sameMembers] using hend
  simp only [treeFields, List.append_assoc]
  rw [sameMembers_fieldOf, sameMembers_fieldOf, sameMembers_fieldOf, hlast]
  all_goals simp [not_mem_keys_fieldOf]

theorem sameField_array_present {vs ws : List Json} :
    SameField ((present vs).map .array) ((present ws).map .array) ↔ sameItems vs ws = true := by
  cases vs <;> cases ws <;> simp [present, Json.same, sameItems]

theorem sameField_object_present :
    SameField ((present es).map .object) ((present fs).map .object) ↔ sameMembers es fs = true := by
  cases es <;> cases fs <;> simp [present, Json.same, sameMembers]

theorem sameField_string {s t : Option String} :
    SameField (s.map .string) (t.map .string) ↔ s = t := by
  cases s <;> cases t <;> simp [Json.same]

end Json

namespace Attributes

variable {a b : Attributes}

/-- **Attributes are the same** if what is found under every name is. -/
theorem same_iff : a.same b = true ↔ ∀ k, SameField (a.get? k) (b.get? k) := by
  constructor
  · intro h k
    cases ha : a.get? k with
    | some v =>
      obtain ⟨w, hw, hvw⟩ := exists_of_same h (get?_eq_some_iff.1 ha)
      rw [hw]
      exact .some hvw
    | none =>
      rw [get?_eq_none_of_same h ha]
      exact .none
  · intro h
    have hmem : ∀ k, k ∈ a.keys ↔ k ∈ b.keys := by
      intro k
      have hk := (h k).isSome_eq
      rw [get?, get?] at hk
      rw [keys, keys, ← Entries.isSome_lookup, ← Entries.isSome_lookup, hk]
    have hkeys : a.keys.Perm b.keys := (List.perm_ext_iff_of_nodup a.distinct b.distinct).2 hmem
    have hlength : a.entries.length = b.entries.length := by
      simpa [keys, Entries.keys] using hkeys.length_eq
    rw [same, Bool.and_eq_true, beq_iff_eq, List.all_eq_true]
    refine ⟨hlength, fun e he => ?_⟩
    obtain ⟨k, v⟩ := e
    have hk := h k
    rw [get?_eq_some_iff.2 he] at hk
    cases hb : b.get? k with
    | none => rw [hb] at hk; cases hk
    | some w =>
      rw [hb] at hk
      simp only [hb]
      exact sameField_some.1 hk

end Attributes

namespace Node

open Attributes

variable {a b : Attributes}

/-- What is found among the attributes that are written as such. -/
theorem lookup_others (a : Attributes) (k : String) : (sortMembers (others a)).lookup k =
    (a.get? k).filter fun v => !isText (k, v) := by
  rw [Entries.lookup_perm (increasing_sortMembers _).nodup (perm_sortMembers (nodup_others a)),
    others, Entries.lookup_filter a.distinct, get?]

/-- **The text of a node and its other attributes** tell the attributes. -/
theorem same_iff_of_text : a.same b = true ↔ textOf? a = textOf? b ∧
    sameMembers (sortMembers (others a)) (sortMembers (others b)) = true := by
  rw [Attributes.same_iff, sameMembers_iff (increasing_sortMembers _) (increasing_sortMembers _)]
  have htext : ∀ v, isText (textName, v) = v.isString := fun v => by simp [isText]
  have hother : ∀ {k}, k ≠ textName → ∀ (a : Attributes),
      (sortMembers (others a)).lookup k = a.get? k := by
    intro k hk a
    have hno : ∀ v, isText (k, v) = false := fun v => by simp [isText, hk]
    rw [lookup_others]
    simp only [hno]
    cases a.get? k <;> rfl
  have hfield : SameField (a.get? textName) (b.get? textName) ↔ textOf? a = textOf? b ∧
      SameField ((sortMembers (others a)).lookup textName)
        ((sortMembers (others b)).lookup textName) := by
    simp only [lookup_others, htext]
    exact sameField_iff_of_text
  constructor
  · intro h
    obtain ⟨hequal, htextField⟩ := hfield.1 (h textName)
    refine ⟨hequal, fun k => ?_⟩
    by_cases hk : k = textName
    · rwa [hk]
    · rw [hother hk, hother hk]
      exact h k
  · rintro ⟨hequal, h⟩ k
    by_cases hk : k = textName
    · rw [hk]
      exact hfield.2 ⟨hequal, h textName⟩
    · rw [← hother hk a, ← hother hk b]
      exact h k

/-- The values of the attributes in the tree are as values read generically are: in every object the
keys are increasing. -/
def Canonical (n : Node) : Prop := n.EachAttribute fun _ v => v.canonical = v

mutual

/-- The JSON forms by the parts of the nodes, all the way down. -/
theorem same_toJson : (n m : Node) → n.Canonical → m.Canonical →
    (n.toJson.same m.toJson = true ↔ n.same m = true)
  | mk t a c ht ha, mk u b d hu hb, hn, hm => by
    rw [Canonical, EachAttribute] at hn hm
    rw [toJson_mk_of_canonical ht ha hn.1, toJson_mk_of_canonical hu hb hm.1, Json.same, treeMembers,
      treeMembers, sameMembers_treeFields, sameField_object_present, sameField_array_present,
      sameField_string, sameField_some, sameItems_toJson c d hn.2 hm.2, same, Bool.and_eq_true,
      Bool.and_eq_true, beq_iff_eq, same_iff_of_text, Json.same, beq_iff_eq]
    constructor
    · exact fun ⟨hothers, hc, htag, htext⟩ => ⟨⟨htag, htext, hothers⟩, hc⟩
    · exact fun ⟨⟨htag, htext, hothers⟩, hc⟩ => ⟨hothers, hc, htag, htext⟩

theorem sameItems_toJson : (ns ms : List Node) →
    (EachAttributeOfList (fun _ v => v.canonical = v) ns) →
    (EachAttributeOfList (fun _ v => v.canonical = v) ms) →
    (sameItems (ns.map toJson) (ms.map toJson) = true ↔ sameList ns ms = true)
  | [], [], _, _ => by simp [sameItems, sameList]
  | [], _ :: _, _, _ => by simp [sameItems, sameList]
  | _ :: _, [], _, _ => by simp [sameItems, sameList]
  | n :: r, m :: s, hn, hm => by
    rw [EachAttributeOfList] at hn hm
    rw [List.map_cons, List.map_cons, sameItems, Bool.and_eq_true, same_toJson n m hn.1 hm.1,
      sameItems_toJson r s hn.2 hm.2, sameList, Bool.and_eq_true]

end

/-- **The JSON form is faithful.** Trees have the same JSON form just if they are the same: it tells
the tags, the attributes, of which a text stands apart, and the children in their order. -/
theorem same_toJson_iff {m n : Node} (hm : m.Canonical) (hn : n.Canonical) :
    m.toJson.same n.toJson = true ↔ m.same n = true := same_toJson m n hm hn

namespace SampleFaithful

def leaf : Node :=
  .mk "leaf" ⟨[("kept", .bool true)], by decide⟩ [] (by decide) (by decide)

/-- A text and an object. -/
def worded : Node :=
  .mk "entry" ⟨[("value", .string "1"), ("of", .object [("x", .null)])], by decide⟩ [leaf]
    (by decide) (by decide)

def reordered : Node :=
  .mk "entry" ⟨[("of", .object [("x", .null)]), ("value", .string "1")], by decide⟩ [leaf]
    (by decide) (by decide)

/-- A number in the place of the text. -/
def counted : Node :=
  .mk "entry" ⟨[("value", .number (.int 1)), ("of", .object [("x", .null)])], by decide⟩ [leaf]
    (by decide) (by decide)

theorem canonical_samples : worded.Canonical ∧ reordered.Canonical ∧ counted.Canonical := by
  have hmembers : sortMembers (canonicalMembers [("x", .null)]) = [("x", .null)] := rfl
  simp [Canonical, worded, reordered, counted, leaf, EachAttribute, EachAttributeOfList,
    Json.canonical, hmembers]

end SampleFaithful

open SampleFaithful in
theorem same_toJson_iff_sample : worded.toJson.same reordered.toJson = true ∧
    worded.toJson.same counted.toJson = false := by
  obtain ⟨hworded, hreordered, hcounted⟩ := canonical_samples
  refine ⟨(same_toJson_iff hworded hreordered).2 (by decide), ?_⟩
  rw [Bool.eq_false_iff]
  exact mt (same_toJson_iff hworded hcounted).1 (by decide)

end Node

end Scaffold
